import Mathlib.Algebra.Order.Group.Abs
import Mathlib.Algebra.Order.Ring.Int
import Mathlib.Data.List.Induction

/-! Running means and extremes over integers. The mean is corrected by a truncated
quotient at each value, so it is off by less than one value's worth of rounding for
each step; it never leaves the range of the values. -/
namespace NfvConsensus.Foundation.RunningMean

/-- One correction of the mean, for the value that brings the count to `count`. -/
def correct (mean : Int) (count : Nat) (value : Int) : Int := mean + (value - mean).tdiv count

def mean (values : List Int) : Nat × Int :=
  values.foldl (fun (before : Nat × Int) value => (before.1 + 1,correct before.2 (before.1 + 1) value)) (0,0)

theorem mean_append (values : List Int) (value : Int) :
    mean (values ++ [value]) = ((mean values).1 + 1,correct (mean values).2 ((mean values).1 + 1) value) := by
  rw [mean,List.foldl_append]
  rfl

theorem mean_count (values : List Int) : (mean values).1 = values.length := by
  induction values using List.reverseRecOn with
  | nil => rfl
  | append_singleton values value ih => rw [mean_append,ih,List.length_append,List.length_singleton]

theorem tdiv_le (deviation : Int) (count : Nat) (upward : 0 ≤ deviation) :
    0 ≤ deviation.tdiv count ∧ deviation.tdiv count ≤ deviation :=
  ⟨Int.tdiv_nonneg upward (Int.natCast_nonneg count),Int.tdiv_le_self _ upward⟩

theorem correct_between (low high mean value : Int) (count : Nat) (inside : low ≤ mean ∧ mean ≤ high)
    (bounded : low ≤ value ∧ value ≤ high) :
    low ≤ correct mean count value ∧ correct mean count value ≤ high := by
  unfold correct
  rcases Int.le_total mean value with upward | downward
  · have ⟨least,most⟩ := tdiv_le (value - mean) count (by omega)
    omega
  · have ⟨least,most⟩ := tdiv_le (mean - value) count (by omega)
    have turned : (value - mean).tdiv count = -((mean - value).tdiv count) := by
      rw [← Int.neg_tdiv,Int.neg_sub]
    omega

theorem correct_first (value : Int) : correct 0 1 value = value := by
  rw [correct,Int.sub_zero,Int.zero_add]
  exact Int.tdiv_one value

theorem mean_between (low high : Int) (values : List Int) (present : values ≠ [])
    (bounded : ∀ value ∈ values, low ≤ value ∧ value ≤ high) : low ≤ (mean values).2 ∧ (mean values).2 ≤ high := by
  induction values using List.reverseRecOn with
  | nil => contradiction
  | append_singleton values value ih =>
    have last := bounded value (by simp)
    rw [mean_append,mean_count]
    by_cases first : values = []
    · subst first
      change low ≤ correct 0 1 value ∧ correct 0 1 value ≤ high
      rw [correct_first]
      exact last
    · exact correct_between low high _ value _ (ih first fun other member => bounded other (by simp [member])) last

/-- A correction takes over the error of the mean and adds less than `count` to it. -/
theorem correct_error (mean total value : Int) (before : Nat) :
    |((before + 1 : Nat) : Int) * correct mean (before + 1) value - (total + value)| ≤ |(before : Int) * mean - total| + before := by
  have divided := Int.mul_tdiv_add_tmod (value - mean) ((before + 1 : Nat) : Int)
  have above := Int.tmod_lt_of_pos (value - mean) (b := ((before + 1 : Nat) : Int)) (by omega)
  have below := Int.lt_tmod_of_pos (value - mean) (b := ((before + 1 : Nat) : Int)) (by omega)
  have moved : ((before + 1 : Nat) : Int) * correct mean (before + 1) value - (total + value) =
      ((before : Int) * mean - total) + -((value - mean).tmod ((before + 1 : Nat) : Int)) := by
    have weighted : ((before + 1 : Nat) : Int) * mean = (before : Int) * mean + mean := by
      rw [Int.natCast_add,Int.add_mul,Int.natCast_one,Int.one_mul]
    rw [correct,Int.mul_add,weighted]
    omega
  have small : |-((value - mean).tmod ((before + 1 : Nat) : Int))| ≤ (before : Int) := abs_le.mpr ⟨by omega,by omega⟩
  calc |((before + 1 : Nat) : Int) * correct mean (before + 1) value - (total + value)|
    _ = |((before : Int) * mean - total) + -((value - mean).tmod ((before + 1 : Nat) : Int))| := by rw [moved]
    _ ≤ |(before : Int) * mean - total| + |-((value - mean).tmod ((before + 1 : Nat) : Int))| := abs_add_le _ _
    _ ≤ |(before : Int) * mean - total| + before := Int.add_le_add_left small _

theorem triangle (n : Nat) : n * (n - 1) / 2 + n = (n + 1) * (n + 1 - 1) / 2 := by
  have even : (n + 1) * n = n * (n - 1) + n * 2 := by
    cases n with
    | zero => rfl
    | succ n =>
      rw [Nat.add_sub_cancel,← Nat.mul_add,Nat.mul_comm]
  rw [Nat.add_sub_cancel,even,Nat.add_mul_div_right _ _ (by decide)]

theorem mean_error (values : List Int) :
    |(values.length : Int) * (mean values).2 - values.sum| ≤ ((values.length * (values.length - 1) / 2 : Nat) : Int) := by
  induction values using List.reverseRecOn with
  | nil => simp [mean]
  | append_singleton values value ih =>
    have step := correct_error (mean values).2 values.sum value values.length
    have bound := congrArg (fun n : Nat => (n : Int)) (triangle values.length)
    simp only [Int.natCast_add] at bound
    rw [mean_append,mean_count,List.length_append,List.length_singleton,List.sum_append,List.sum_singleton]
    calc |((values.length + 1 : Nat) : Int) * correct (mean values).2 (values.length + 1) value - (values.sum + value)|
      _ ≤ |(values.length : Int) * (mean values).2 - values.sum| + values.length := step
      _ ≤ ((values.length * (values.length - 1) / 2 : Nat) : Int) + values.length := Int.add_le_add_right ih _
      _ = (((values.length + 1) * (values.length + 1 - 1) / 2 : Nat) : Int) := bound

end NfvConsensus.Foundation.RunningMean
