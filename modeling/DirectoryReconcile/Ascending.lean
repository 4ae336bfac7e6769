/-!
# Strictly ascending lists

A finite set of values with a linear order, kept as the strictly ascending list of its members.
-/

namespace DirectoryReconcile.Ascending

variable {α : Type} [LT α] [DecidableLT α] [DecidableEq α]

/-- Puts a value at its place; one that is there already is not repeated. -/
def insert (x : α) : List α → List α
  | [] => [x]
  | y :: rest => if x < y then x :: y :: rest else if x = y then y :: rest else y :: insert x rest

/-- The members of a list in ascending order, each once. -/
def ofList (xs : List α) : List α := xs.foldr insert []

theorem mem_insert {x y : α} {xs : List α} : y ∈ insert x xs ↔ y = x ∨ y ∈ xs := by
  induction xs with
  | nil => simp [insert]
  | cons head rest ih =>
    rw [insert]
    split
    · simp
    · split <;> simp_all
      grind

@[simp] theorem mem_ofList {x : α} {xs : List α} : x ∈ ofList xs ↔ x ∈ xs := by
  induction xs with
  | nil => simp [ofList]
  | cons head rest ih => simpa [ofList, mem_insert] using or_congr_right ih

end DirectoryReconcile.Ascending
