import DirectoryReconcile.Difference
import Mathlib.Data.List.Sort

/-!
# Ascending lists as sets

A strictly ascending list is determined by its members. Scalars are strictly and totally ordered,
so the values that a difference selects depend only on which values there are, not on their order
or on how often they occur.
-/

namespace DirectoryReconcile

namespace Ascending

variable {α : Type} [LT α] [DecidableLT α] [DecidableEq α]
  [IsTrans α (· < ·)] [Std.Trichotomous (α := α) (· < ·)]

theorem pairwise_insert (x : α) {xs : List α} (h : xs.Pairwise (· < ·)) :
    (insert x xs).Pairwise (· < ·) := by
  induction xs with
  | nil => simp [insert]
  | cons head rest ih =>
    obtain ⟨hhead, hrest⟩ := List.pairwise_cons.1 h
    unfold insert
    split
    next hlt =>
      refine List.pairwise_cons.2 ⟨fun y hy ↦ ?_, h⟩
      rcases List.mem_cons.1 hy with rfl | hy
      · exact hlt
      · exact IsTrans.trans _ _ _ hlt (hhead y hy)
    next hlt =>
      split
      next => exact h
      next hne =>
        refine List.pairwise_cons.2 ⟨fun y hy ↦ ?_, ih hrest⟩
        rcases mem_insert.1 hy with rfl | hy
        · by_contra hgt
          exact hne (Std.Trichotomous.trichotomous y head hlt hgt)
        · exact hhead y hy

theorem pairwise_ofList (xs : List α) : (ofList xs).Pairwise (· < ·) := by
  induction xs with
  | nil => exact .nil
  | cons head rest ih => exact pairwise_insert head ih

theorem ofList_eq_ofList_iff [Std.Irrefl (α := α) (· < ·)] {xs ys : List α} :
    ofList xs = ofList ys ↔ ∀ x, x ∈ xs ↔ x ∈ ys := by
  constructor
  · intro h x
    exact mem_ofList.symm.trans (h ▸ mem_ofList)
  · intro h
    exact List.Pairwise.eq_of_mem_iff (pairwise_ofList xs) (pairwise_ofList ys)
      fun x ↦ by rw [mem_ofList, mem_ofList, h]

theorem nodup_ofList [Std.Irrefl (α := α) (· < ·)] (xs : List α) : (ofList xs).Nodup :=
  (pairwise_ofList xs).imp fun {x y} (hlt : x < y) (heq : x = y) ↦
    Std.Irrefl.irrefl y (by rwa [heq] at hlt)

end Ascending

/-! ## The order of scalars -/

namespace Scalar

theorem precedes_trans {a b c : Scalar} (hab : a.precedes b = true) (hbc : b.precedes c = true) :
    a.precedes c = true := by
  cases a <;> cases b <;> cases c <;>
    simp only [precedes, Bool.false_eq_true, Bool.and_eq_true, Bool.not_eq_true',
      decide_eq_true_eq] at hab hbc ⊢
  case bool.bool.bool => exact ⟨hab.1, hbc.2⟩
  case int.int.int => exact Int64.lt_trans hab hbc
  case str.str.str => exact String.lt_trans hab hbc

theorem precedes_irrefl (a : Scalar) : a.precedes a = false := by
  cases a <;> simp [precedes]

theorem eq_of_not_precedes {a b : Scalar} (hab : ¬a.precedes b = true)
    (hba : ¬b.precedes a = true) : a = b := by
  cases a <;> cases b <;> simp only [precedes, not_true_eq_false, decide_eq_true_eq] at hab hba ⊢
  case bool.bool a b => cases a <;> cases b <;> simp_all
  case int.int a b =>
    exact congrArg Scalar.int (Int64.le_antisymm (Int64.not_lt.1 hba) (Int64.not_lt.1 hab))
  case str.str a b => exact congrArg Scalar.str (String.le_antisymm hba hab)

instance : IsTrans Scalar (· < ·) := ⟨fun _ _ _ ↦ precedes_trans⟩

instance : Std.Irrefl (α := Scalar) (· < ·) :=
  ⟨fun a h ↦ Bool.false_ne_true ((precedes_irrefl a).symm.trans h)⟩

instance : Std.Trichotomous (α := Scalar) (· < ·) := ⟨fun _ _ ↦ eq_of_not_precedes⟩

end Scalar

namespace Difference

theorem selected_eq_none_iff {keep : Scalar → Bool} {values : List Scalar} :
    selected keep values = none ↔ ∀ v ∈ values, keep v = false := by
  have hmem (v : Scalar) : v ∈ Ascending.ofList (values.filter keep) ↔ v ∈ values ∧ keep v := by
    rw [Ascending.mem_ofList, List.mem_filter]
  unfold selected
  split
  next heq => simpa [heq] using hmem
  next _ heq =>
    obtain ⟨head, rest, hcons⟩ := List.exists_cons_of_ne_nil heq
    have hhead := (hmem head).1 (by rw [hcons]; exact List.mem_cons_self)
    simp only [reduceCtorEq, false_iff, not_forall]
    exact ⟨head, hhead.1, by simp [hhead.2]⟩

theorem selected_eq_some_iff {keep : Scalar → Bool} {values kept : List Scalar} :
    selected keep values = some kept ↔
      kept ≠ [] ∧ Ascending.ofList (values.filter keep) = kept := by
  unfold selected
  split
  next heq => simp [heq, eq_comm]
  next _ heq =>
    rw [Option.some.injEq]
    exact ⟨fun h ↦ ⟨h ▸ heq, h⟩, fun h ↦ h.2⟩

theorem mem_of_selected {keep : Scalar → Bool} {values kept : List Scalar}
    (h : selected keep values = some kept) (v : Scalar) :
    v ∈ kept ↔ v ∈ values ∧ keep v = true := by
  rw [← (selected_eq_some_iff.1 h).2, Ascending.mem_ofList, List.mem_filter]

/-- Only the set of values that pass counts. -/
theorem selected_congr {keep keep' : Scalar → Bool} {values values' : List Scalar}
    (h : ∀ v, v ∈ values ∧ keep v = true ↔ v ∈ values' ∧ keep' v = true) :
    selected keep values = selected keep' values' := by
  have heq : Ascending.ofList (values.filter keep) = Ascending.ofList (values'.filter keep') :=
    Ascending.ofList_eq_ofList_iff.2 fun v ↦ by rw [List.mem_filter, List.mem_filter, h]
  rw [selected, selected, heq]

end Difference

end DirectoryReconcile
