/-!
# Sets of characters

A set of characters is a list of ranges of code points, each with its first and its last one. In an
ascending list the ranges stand in order and apart from each other, so that no code point is counted
twice.
-/

namespace DirectoryReconcile.Text

structure CharSet where
  ranges : List (Nat × Nat)

namespace CharSet

def contains (set : CharSet) (c : Char) : Bool :=
  set.ranges.any fun range ↦ range.1 ≤ c.toNat && c.toNat ≤ range.2

/-- How many code points the ranges have together. -/
def size (set : CharSet) : Nat :=
  set.ranges.foldl (fun total range ↦ total + (range.2 + 1 - range.1)) 0

/-- Whether ranges are not empty, start at a bound or later, and have a gap before each next one. -/
def ascendFrom (bound : Nat) : List (Nat × Nat) → Bool
  | [] => true
  | range :: rest => bound ≤ range.1 && range.1 ≤ range.2 && ascendFrom (range.2 + 2) rest

def isAscending (set : CharSet) : Bool := ascendFrom 0 set.ranges

theorem contains_iff {set : CharSet} {c : Char} :
    set.contains c ↔ ∃ range ∈ set.ranges, range.1 ≤ c.toNat ∧ c.toNat ≤ range.2 := by
  simp [contains]

theorem contains_of_mem {set : CharSet} {c : Char} (first last : Nat)
    (h : (first, last) ∈ set.ranges) (hfirst : first ≤ c.toNat) (hlast : c.toNat ≤ last) :
    set.contains c :=
  contains_iff.2 ⟨(first, last), h, hfirst, hlast⟩

end CharSet

end DirectoryReconcile.Text
