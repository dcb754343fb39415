import Mathlib.Data.List.Basic
import Mathlib.Order.Lattice

/-! Items counted in order, and grouped by a key that never falls. The numbers of a group are
consecutive, so between its first and its last there is one step less than it has items. -/
namespace NfvConsensus.Foundation.Groups
variable {κ : Type*} [LinearOrder κ]

/-- The numbers of the items with key `k`, the first item having number `first`. -/
def numbers (keys : List κ) (first : Nat) (k : κ) : List Nat :=
  ((keys.zipIdx first).filter fun item => item.1 = k).map Prod.snd

theorem numbers_cons (key : κ) (keys : List κ) (first : Nat) (k : κ) :
    numbers (key :: keys) first k = if key = k then first :: numbers keys (first + 1) k else numbers keys (first + 1) k := by
  simp only [numbers,List.zipIdx_cons,List.filter_cons,decide_eq_true_eq]
  split
  · rfl
  · rfl

/-- Where no key is below `k`, its group comes first. -/
theorem numbers_first (keys : List κ) (first : Nat) (k : κ) (ordered : keys.Pairwise (· ≤ ·)) (least : ∀ key ∈ keys, k ≤ key) :
    numbers keys first k = List.range' first (keys.count k) := by
  induction keys generalizing first with
  | nil => rfl
  | cons key keys ih =>
    obtain ⟨after,ordered⟩ := List.pairwise_cons.mp ordered
    have rest := ih (first + 1) ordered fun other member => least other (by simp [member])
    rw [numbers_cons,rest]
    split
    · rename_i same
      rw [same,List.count_cons_self]
      rfl
    · rename_i other
      have absent : k ∉ keys := by
        intro member
        exact other (le_antisymm (after k member) (least key (by simp)))
      rw [List.count_cons_of_ne other,List.count_eq_zero.mpr absent]
      rfl

theorem numbers_consecutive (keys : List κ) (first : Nat) (k : κ) (ordered : keys.Pairwise (· ≤ ·)) :
    ∃ start, numbers keys first k = List.range' start (keys.count k) := by
  induction keys generalizing first with
  | nil => exact ⟨first,rfl⟩
  | cons key keys ih =>
    by_cases below : key < k
    · obtain ⟨start,same⟩ := ih (first + 1) (List.pairwise_cons.mp ordered).2
      refine ⟨start,?_⟩
      rw [numbers_cons,if_neg (ne_of_lt below),List.count_cons_of_ne (ne_of_lt below),same]
    · refine ⟨first,numbers_first _ first k ordered fun other member => ?_⟩
      have bound : k ≤ key := not_lt.mp below
      rcases List.mem_cons.mp member with rfl | later
      · exact bound
      · exact le_trans bound ((List.pairwise_cons.mp ordered).1 other later)

end NfvConsensus.Foundation.Groups
