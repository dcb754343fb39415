import Mathlib.Algebra.Order.Ring.Int
import Mathlib.Data.List.Induction

/-! The extremes of a sequence of integers, kept in two accumulators that start at 0. For
the greatest 0 is a bound from below; for the least it is the mark of an accumulator that
has not been set, which a value of 0 sets again. -/
namespace NfvConsensus.Foundation.Extremes

def greatest (values : List Int) : Int :=
  values.foldl (fun seen value => if value > seen then value else seen) 0

def least (values : List Int) : Int :=
  values.foldl (fun seen value => if seen = 0 ∨ value < seen then value else seen) 0

theorem greatest_append (values : List Int) (value : Int) :
    greatest (values ++ [value]) = if value > greatest values then value else greatest values := by
  rw [greatest,List.foldl_append]
  rfl

theorem least_append (values : List Int) (value : Int) :
    least (values ++ [value]) = if least values = 0 ∨ value < least values then value else least values := by
  rw [least,List.foldl_append]
  rfl

theorem greatest_nonneg (values : List Int) : 0 ≤ greatest values := by
  induction values using List.reverseRecOn with
  | nil => exact Int.le_refl 0
  | append_singleton values value ih =>
    rw [greatest_append]
    split
    · omega
    · exact ih

theorem greatest_bound (values : List Int) : ∀ value ∈ values, value ≤ greatest values := by
  induction values using List.reverseRecOn with
  | nil => simp
  | append_singleton values last ih =>
    intro value member
    rw [greatest_append]
    rcases List.mem_append.mp member with old | new
    · have bound := ih value old
      split <;> omega
    · rw [List.mem_singleton.mp new]
      split <;> omega

theorem greatest_attained (values : List Int) (present : values ≠ []) :
    ∃ value ∈ values, max 0 value = greatest values := by
  induction values using List.reverseRecOn with
  | nil => contradiction
  | append_singleton values last ih =>
    have floor := greatest_nonneg values
    rw [greatest_append]
    split
    · rename_i above
      exact ⟨last,by simp,max_eq_right (by omega)⟩
    · rename_i below
      by_cases first : values = []
      · subst first
        exact ⟨last,by simp,max_eq_left (Int.not_lt.mp below)⟩
      · obtain ⟨value,member,same⟩ := ih first
        exact ⟨value,by simp [member],same⟩

/-- Of values with the negative ones raised to 0, the accumulator has the greatest. -/
theorem greatest_clamped (values : List Int) (present : values ≠ []) :
    (values.map (max 0)).max? = some (greatest values) := by
  rw [List.max?_eq_some_iff]
  constructor
  · obtain ⟨value,member,same⟩ := greatest_attained values present
    exact List.mem_map.mpr ⟨value,member,same⟩
  · intro clamped member
    obtain ⟨value,inside,rfl⟩ := List.mem_map.mp member
    exact max_le (greatest_nonneg values) (greatest_bound values value inside)

theorem least_negative (values : List Int) (value : Int) (member : value ∈ values) (negative : value < 0) :
    least values < 0 := by
  induction values using List.reverseRecOn with
  | nil => simp at member
  | append_singleton values last ih =>
    rw [least_append]
    rcases List.mem_append.mp member with old | new
    · have seen := ih old
      split <;> omega
    · rw [← List.mem_singleton.mp new]
      split <;> omega

theorem least_nonneg (values : List Int) (nonneg : ∀ value ∈ values, 0 ≤ value) : 0 ≤ least values := by
  induction values using List.reverseRecOn with
  | nil => exact Int.le_refl 0
  | append_singleton values last ih =>
    have seen := ih fun value member => nonneg value (by simp [member])
    have bound := nonneg last (by simp)
    rw [least_append]
    split <;> omega

/-- A value of 0 is remembered only by the last one. -/
theorem least_zero (values : List Int) (last : Int) (nonneg : ∀ value ∈ values ++ [last], 0 ≤ value) :
    least (values ++ [last]) = 0 ↔ last = 0 := by
  have seen := least_nonneg values fun value member => nonneg value (by simp [member])
  have bound := nonneg last (by simp)
  rw [least_append]
  split <;> omega

theorem least_positive (values : List Int) (present : values ≠ []) (positive : ∀ value ∈ values, 0 < value) :
    least values ∈ values ∧ ∀ value ∈ values, least values ≤ value := by
  induction values using List.reverseRecOn with
  | nil => contradiction
  | append_singleton values last ih =>
    rw [least_append]
    by_cases first : values = []
    · subst first
      simp [least]
    · obtain ⟨member,bound⟩ := ih first fun value member => positive value (by simp [member])
      have set := positive (least values) (by simp [member])
      split
      · refine ⟨by simp,fun value inside => ?_⟩
        rcases List.mem_append.mp inside with old | new
        · have above := bound value old
          omega
        · rw [List.mem_singleton.mp new]
      · refine ⟨by simp [member],fun value inside => ?_⟩
        rcases List.mem_append.mp inside with old | new
        · exact bound value old
        · rw [List.mem_singleton.mp new]
          omega

theorem map_clamped (values : List Int) (nonneg : ∀ value ∈ values, 0 ≤ value) : values.map (max 0) = values := by
  rw [List.map_congr_left (g := id),List.map_id]
  intro value inside
  exact max_eq_right (nonneg value inside)

/-- A negative value makes the accumulator negative, which no value raised to 0 is. -/
theorem clamped_nonneg (values : List Int) (minimum : (values.map (max 0)).min? = some (least values)) :
    ∀ value ∈ values, 0 ≤ value := by
  intro value inside
  by_contra negative
  have below := least_negative values value inside (Int.not_le.mp negative)
  obtain ⟨attained,_,same⟩ := List.mem_map.mp (List.min?_eq_some_iff.mp minimum).1
  have floor : 0 ≤ least values := by
    rw [← same]
    exact le_max_left 0 attained
  omega

/-- Of values with the negative ones raised to 0, the accumulator has the least exactly when
no value reads as unset, or the last one does and none is negative. -/
theorem least_clamped (values : List Int) (present : values ≠ []) :
    (values.map (max 0)).min? = some (least values) ↔
      (∀ value ∈ values, 0 < value) ∨ ((∀ value ∈ values, 0 ≤ value) ∧ values.getLast? = some 0) := by
  obtain ⟨front,last,rfl⟩ : ∃ front last, values = front ++ [last] :=
    ⟨_,_,(List.dropLast_concat_getLast present).symm⟩
  rw [List.getLast?_concat,Option.some.injEq]
  constructor
  · intro minimum
    have nonneg := clamped_nonneg _ minimum
    rw [map_clamped _ nonneg,List.min?_eq_some_iff] at minimum
    by_cases unset : last = 0
    · exact .inr ⟨nonneg,unset⟩
    · left
      intro value inside
      have below := minimum.2 value inside
      have floor := least_nonneg _ nonneg
      have set := mt (least_zero front last nonneg).mp unset
      omega
  · rintro (positive | ⟨nonneg,unset⟩)
    · rw [map_clamped _ fun value inside => Int.le_of_lt (positive value inside),List.min?_eq_some_iff]
      exact least_positive _ present positive
    · have zero := (least_zero front last nonneg).mpr unset
      rw [map_clamped _ nonneg,List.min?_eq_some_iff,zero]
      exact ⟨by simp [unset],nonneg⟩

end NfvConsensus.Foundation.Extremes
