import Mathlib.Data.List.Pairwise
import Mathlib.Data.List.Sort
import Retag.StableSort

/-! The stable sort is insertion by the order that the comparison decides, so the library's facts
about insertion sort hold of it. -/
namespace Retag.StableSort

theorem insert_eq (le : α → α → Bool) (a : α) (items : List α) :
    insert le a items = items.orderedInsert (fun x y => le x y = true) a := by
  induction items with
  | nil => rfl
  | cons b bs ih => simp [insert, ih]

theorem sort_eq (le : α → α → Bool) (items : List α) :
    sort le items = items.insertionSort fun x y => le x y = true := by
  induction items with
  | nil => rfl
  | cons a as ih => simp [sort, ih, insert_eq]

theorem sort_perm (le : α → α → Bool) (items : List α) : (sort le items).Perm items :=
  sort_eq le items ▸ List.perm_insertionSort _ items

@[simp] theorem mem_sort {le : α → α → Bool} {items : List α} {a : α} :
    a ∈ sort le items ↔ a ∈ items :=
  (sort_perm le items).mem_iff

theorem sort_pairwise {le : α → α → Bool} (total : ∀ a b, le a b = true ∨ le b a = true)
    (trans : ∀ a b c, le a b = true → le b c = true → le a c = true) (items : List α) :
    (sort le items).Pairwise fun a b => le a b = true := by
  have total : Std.Total fun a b => le a b = true := ⟨total⟩
  have trans : IsTrans α fun a b => le a b = true := ⟨trans⟩
  rw [sort_eq]
  exact List.pairwise_insertionSort _ items

/-- Sorting by a number puts the items in the order of their numbers. -/
theorem sort_ordered (rank : α → Nat) (items : List α) :
    (sort (fun a b => rank a ≤ rank b) items).Pairwise fun a b => rank a ≤ rank b := by
  have sorted : (sort (fun a b => rank a ≤ rank b) items).Pairwise fun a b =>
      decide (rank a ≤ rank b) = true := by
    apply sort_pairwise
    · intro a b
      simpa using Nat.le_total (rank a) (rank b)
    · intro a b c
      simpa using Nat.le_trans
  simpa using sorted

/-- Sorting what items are turned into is the same as turning what was sorted. -/
theorem sort_map (le : β → β → Bool) (turn : α → β) (items : List α) :
    sort le (items.map turn) = (sort (fun a b => le (turn a) (turn b)) items).map turn := by
  rw [sort_eq, sort_eq]
  exact (List.map_insertionSort _ _ turn items fun _ _ _ _ => Iff.rfl).symm

/-- Items of different rank have one order, so sorting any arrangement of them gives it. -/
theorem sort_eq_of_perm (rank : α → Nat) {items ordered : List α} (perm : items.Perm ordered)
    (increasing : ordered.Pairwise fun a b => rank a < rank b) :
    sort (fun a b => rank a ≤ rank b) items = ordered := by
  have same := (sort_perm (fun a b => rank a ≤ rank b) items).trans perm
  have distinct : ordered.Pairwise fun a b => rank a ≠ rank b := increasing.imp Nat.ne_of_lt
  have symmetric : Std.Symm fun a b : α => rank a ≠ rank b := ⟨fun _ _ => Ne.symm⟩
  apply same.eq_of_pairwise _ (sort_ordered rank items) (increasing.imp Nat.le_of_lt)
  intro a b first second before after
  by_contra differ
  exact distinct.forall (same.mem_iff.1 first) second differ (Nat.le_antisymm before after)

end Retag.StableSort
