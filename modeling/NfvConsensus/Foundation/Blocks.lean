import Mathlib.Data.List.Range
import Mathlib.Order.Monotone.Basic

/-! Dealing `n` consecutive items to `m` parts in contiguous blocks, the first
`n % m` blocks one longer than the others. The blocks tile the items in order. -/
namespace NfvConsensus.Foundation.Blocks

def start (n m i : Nat) : Nat := i * (n / m) + min i (n % m)

def block (n m i : Nat) : List Nat := List.range' (start n m i) (start n m (i + 1) - start n m i)

theorem start_zero (n m : Nat) : start n m 0 = 0 := by simp [start]

theorem start_parts (n m : Nat) (positive : 0 < m) : start n m m = n := by
  have rest := Nat.mod_lt n positive
  rw [start,Nat.min_eq_right (Nat.le_of_lt rest)]
  exact Nat.div_add_mod n m

theorem start_succ (n m i : Nat) :
    start n m (i + 1) = start n m i + (n / m + if i < n % m then 1 else 0) := by
  simp only [start,Nat.succ_mul]
  split <;> omega

theorem start_mono (n m : Nat) : Monotone (start n m) :=
  monotone_nat_of_le_succ fun i => by rw [start_succ]; exact Nat.le_add_right _ _

theorem start_le (n m i : Nat) (inside : i ≤ m) (positive : 0 < m) : start n m i ≤ n := by
  have bound := start_mono n m inside
  rwa [start_parts n m positive] at bound

theorem block_length (n m i : Nat) : (block n m i).length = n / m + if i < n % m then 1 else 0 := by
  rw [block,List.length_range',start_succ,Nat.add_sub_cancel_left]

theorem block_balanced (n m i j : Nat) : (block n m i).length ≤ (block n m j).length + 1 := by
  rw [block_length,block_length]
  split <;> omega

theorem mem_block (n m i x : Nat) : x ∈ block n m i ↔ start n m i ≤ x ∧ x < start n m (i + 1) := by
  have ordered := start_mono n m (Nat.le_succ i)
  rw [block,List.mem_range'_1]
  omega

theorem blocks_before (n m k : Nat) : (List.range k).flatMap (block n m) = List.range (start n m k) := by
  induction k with
  | zero => simp [start_zero]
  | succ k ih =>
    have ordered := start_mono n m (Nat.le_succ k)
    have joined : List.range' 0 (start n m k) ++ block n m k = List.range' 0 (start n m (k + 1)) := by
      have glued := @List.range'_append_1 0 (start n m k) (start n m (k + 1) - start n m k)
      rw [Nat.zero_add,Nat.add_sub_cancel' ordered] at glued
      exact glued
    rw [List.range_succ,List.flatMap_append,ih,List.flatMap_singleton,List.range_eq_range',joined,
      List.range_eq_range']

theorem blocks_tile (n m : Nat) (positive : 0 < m) : (List.range m).flatMap (block n m) = List.range n := by
  rw [blocks_before,start_parts n m positive]

theorem block_exists (n m x : Nat) (positive : 0 < m) (inside : x < n) : ∃ i < m, x ∈ block n m i := by
  have member : x ∈ (List.range m).flatMap (block n m) := by
    rw [blocks_tile n m positive]
    exact List.mem_range.mpr inside
  obtain ⟨i,bound,present⟩ := List.mem_flatMap.mp member
  exact ⟨i,List.mem_range.mp bound,present⟩

theorem block_unique (n m i j x : Nat) (first : x ∈ block n m i) (second : x ∈ block n m j) : i = j := by
  rw [mem_block] at first second
  by_contra different
  rcases Nat.lt_or_gt_of_ne different with before | before
  · have ordered := start_mono n m before
    simp only [Nat.succ_eq_add_one] at ordered
    omega
  · have ordered := start_mono n m before
    simp only [Nat.succ_eq_add_one] at ordered
    omega

theorem block_nonempty (n m i : Nat) (part : i < m) : block n m i ≠ [] ↔ i < n := by
  have length := block_length n m i
  rw [← List.length_pos_iff,length]
  rcases Nat.lt_or_ge n m with few | many
  · rw [Nat.div_eq_of_lt few,Nat.mod_eq_of_lt few]
    split <;> omega
  · have share : 0 < n / m := Nat.div_pos many (by omega)
    constructor
    · intro _
      omega
    · intro _
      omega

theorem extract_map_range {α : Type*} (f : Nat → α) (n low high : Nat) (inside : high ≤ n) :
    ((List.range n).map f).extract low high = (List.range' low (high - low)).map f := by
  apply List.ext_getElem
  · simp
    omega
  · intro i left right
    simp

end NfvConsensus.Foundation.Blocks
