import NfvConsensus.ClientStats
import NfvConsensus.Foundation.Extremes
import NfvConsensus.Foundation.RunningMean

/-! What the client's statistics say of the deliveries since the timer last cleared them. The
average is close to the mean; the least latency is exact only where no latency of 0 is
taken for one that has not been set, and none is negative. -/
namespace NfvConsensus.ClientPaxos
open Foundation.Transition Foundation.Extremes

structure Delivery where
  submitted : Timeval
  delivered : Timeval

namespace Delivery

def latency (delivery : Delivery) : Int := timevalDiff delivery.submitted delivery.delivered

/-- The time between the two, in microseconds. -/
def elapsed (delivery : Delivery) : Int :=
  (delivery.delivered.sec * 10^6 + delivery.delivered.usec) - (delivery.submitted.sec * 10^6 + delivery.submitted.usec)

end Delivery

/-- The deliveries since the timer was last handled. -/
def window (events : List StatsEvent) : List Delivery :=
  events.foldl (fun since event => match event with
    | .onDeliver v tv => since ++ [⟨v.t,tv⟩]
    | .onStats => []) []

theorem window_deliver (events : List StatsEvent) (v : ClientValue) (tv : Timeval) :
    window (events ++ [.onDeliver v tv]) = window events ++ [⟨v.t,tv⟩] := by
  rw [window,List.foldl_append]
  rfl

theorem window_stats (events : List StatsEvent) : window (events ++ [.onStats]) = [] := by
  rw [window,List.foldl_append]
  rfl

def summary (latencies : List Int) : Stats where
  delivered := latencies.length
  minLatency := least latencies
  maxLatency := greatest latencies
  avgLatency := (Foundation.RunningMean.mean latencies).2

theorem updateStats_summary (deliveries : List Delivery) (v : ClientValue) (tv : Timeval) :
    updateStats (summary (deliveries.map Delivery.latency)) v tv =
      some (summary ((deliveries ++ [Delivery.mk v.t tv]).map Delivery.latency)) := by
  have counted : (deliveries.length : Int) + 1 ≠ 0 := by omega
  rw [List.map_append,List.map_singleton,updateStats]
  simp only [summary,List.length_map,List.length_append,List.length_singleton,counted,if_false,least_append,
    greatest_append,Foundation.RunningMean.mean_append,Foundation.RunningMean.mean_count,
    Foundation.RunningMean.correct,Delivery.latency,Int.natCast_add,Int.natCast_one]
  split <;> split <;> rfl

/-- Whatever the deliveries and the timer, the client has the summary of its window; in
particular it never divides by 0. -/
theorem statistics_run (events : List StatsEvent) :
    statistics.run .zero events = some (summary ((window events).map Delivery.latency)) := by
  induction events using List.reverseRecOn with
  | nil => rfl
  | append_singleton events event ih =>
    rw [Machine.run_append,ih,Option.bind_some]
    cases event with
    | onDeliver v tv =>
      rw [window_deliver,← updateStats_summary]
      simp [Machine.run,statistics,stepStats]
    | onStats =>
      rw [window_stats]
      rfl

/-- The average is in the range of the latencies, and off their mean by less than one for
every two deliveries. -/
theorem average_close (events : List StatsEvent) :
    ∃ stats, statistics.run .zero events = some stats ∧
      (∀ low high, ((window events).map Delivery.latency).min? = some low →
        ((window events).map Delivery.latency).max? = some high → low ≤ stats.avgLatency ∧ stats.avgLatency ≤ high) ∧
      |((window events).length : Int) * stats.avgLatency - ((window events).map Delivery.latency).sum| ≤
        (((window events).length * ((window events).length - 1) / 2 : Nat) : Int) := by
  refine ⟨_,statistics_run events,?_,?_⟩
  · intro low high lowest highest
    have ⟨member,below⟩ := List.min?_eq_some_iff.mp lowest
    have above := (List.max?_eq_some_iff.mp highest).2
    exact Foundation.RunningMean.mean_between low high _ (List.ne_nil_of_mem member) fun value inside =>
      ⟨below value inside,above value inside⟩
  · have error := Foundation.RunningMean.mean_error ((window events).map Delivery.latency)
    rw [List.length_map] at error
    exact error

def Delivery.Normalised (delivery : Delivery) : Prop :=
  (0 ≤ delivery.submitted.usec ∧ delivery.submitted.usec < 10^6) ∧
    0 ≤ delivery.delivered.usec ∧ delivery.delivered.usec < 10^6

/-- The delivery reads the clock in the second of the submission, but at an earlier microsecond. -/
def Delivery.Backwards (delivery : Delivery) : Prop :=
  delivery.delivered.sec = delivery.submitted.sec ∧ delivery.delivered.usec < delivery.submitted.usec

structure Exact (stats : Stats) (deliveries : List Delivery) : Prop where
  delivered : stats.delivered = deliveries.length
  minLatency : deliveries ≠ [] → (deliveries.map fun delivery => max 0 delivery.elapsed).min? = some stats.minLatency
  maxLatency : deliveries ≠ [] → (deliveries.map fun delivery => max 0 delivery.elapsed).max? = some stats.maxLatency

theorem latency_elapsed (delivery : Delivery) (normal : delivery.Normalised) :
    max 0 delivery.latency = max 0 delivery.elapsed := by
  obtain ⟨⟨_,_⟩,_,_⟩ := normal
  simp only [Delivery.latency,timevalDiff,Delivery.elapsed]
  split <;> omega

theorem latency_pos (delivery : Delivery) (normal : delivery.Normalised) :
    0 < delivery.latency ↔ 0 < delivery.elapsed := by
  obtain ⟨⟨_,_⟩,_,_⟩ := normal
  simp only [Delivery.latency,timevalDiff,Delivery.elapsed]
  split <;> omega

theorem latency_nonneg (delivery : Delivery) (normal : delivery.Normalised) :
    0 ≤ delivery.latency ↔ ¬delivery.Backwards := by
  obtain ⟨⟨_,_⟩,_,_⟩ := normal
  simp only [Delivery.latency,timevalDiff,Delivery.Backwards]
  split <;> omega

theorem latencies_elapsed (deliveries : List Delivery) (normal : ∀ delivery ∈ deliveries, delivery.Normalised) :
    (deliveries.map fun delivery => max 0 delivery.elapsed) = (deliveries.map Delivery.latency).map (max 0) := by
  rw [List.map_map,List.map_inj_left]
  intro delivery member
  exact (latency_elapsed delivery (normal delivery member)).symm

theorem last_latency (deliveries : List Delivery) (normal : ∀ delivery ∈ deliveries, delivery.Normalised)
    (forwards : ∀ delivery ∈ deliveries, ¬delivery.Backwards) :
    (deliveries.map Delivery.latency).getLast? = some 0 ↔
      ∃ last, deliveries.getLast? = some last ∧ last.elapsed ≤ 0 := by
  rw [List.getLast?_map,Option.map_eq_some_iff]
  apply exists_congr
  intro last
  apply and_congr_right
  intro is_last
  have member := List.mem_of_getLast? is_last
  have positive := latency_pos last (normal last member)
  have nonneg := (latency_nonneg last (normal last member)).mpr (forwards last member)
  omega

theorem summary_exact (deliveries : List Delivery) (normal : ∀ delivery ∈ deliveries, delivery.Normalised) :
    Exact (summary (deliveries.map Delivery.latency)) deliveries ↔ (∀ delivery ∈ deliveries, 0 < delivery.elapsed) ∨
      ((∀ delivery ∈ deliveries, ¬delivery.Backwards) ∧
        ∃ last, deliveries.getLast? = some last ∧ last.elapsed ≤ 0) := by
  by_cases empty : deliveries = []
  · subst empty
    exact ⟨fun _ => .inl (by simp),fun _ => ⟨rfl,fun absent => absurd rfl absent,fun absent => absurd rfl absent⟩⟩
  have present : deliveries.map Delivery.latency ≠ [] := mt List.map_eq_nil_iff.mp empty
  have clamped := latencies_elapsed deliveries normal
  have positive : (∀ lat ∈ deliveries.map Delivery.latency, 0 < lat) ↔ ∀ delivery ∈ deliveries, 0 < delivery.elapsed := by
    rw [List.forall_mem_map]
    exact forall₂_congr fun delivery member => latency_pos delivery (normal delivery member)
  have nonneg : (∀ lat ∈ deliveries.map Delivery.latency, 0 ≤ lat) ↔ ∀ delivery ∈ deliveries, ¬delivery.Backwards := by
    rw [List.forall_mem_map]
    exact forall₂_congr fun delivery member => latency_nonneg delivery (normal delivery member)
  have smallest := least_clamped (deliveries.map Delivery.latency) present
  rw [positive,nonneg,and_congr_right (last_latency deliveries normal)] at smallest
  rw [← smallest,← clamped]
  constructor
  · intro exact_summary
    exact exact_summary.minLatency empty
  · intro minimum
    refine ⟨by rw [summary,List.length_map],fun _ => minimum,fun _ => ?_⟩
    rw [clamped]
    exact greatest_clamped _ present

/-- The extremes the client has are exact under that condition on its window, and only then. -/
theorem extremes_exact_iff (events : List StatsEvent) (normal : ∀ delivery ∈ window events, delivery.Normalised) :
    ∃ stats, statistics.run .zero events = some stats ∧
      (Exact stats (window events) ↔ (∀ delivery ∈ window events, 0 < delivery.elapsed) ∨
        ((∀ delivery ∈ window events, ¬delivery.Backwards) ∧
          ∃ last, (window events).getLast? = some last ∧ last.elapsed ≤ 0)) :=
  ⟨_,statistics_run events,summary_exact (window events) normal⟩

-- Two deliveries, the first within the microsecond of its submission.
def sampleEvents (after : Int) : List StatsEvent :=
  [.onDeliver ⟨⟨1,0⟩,0,[]⟩ ⟨1,after⟩,.onDeliver ⟨⟨1,0⟩,0,[]⟩ ⟨1,5⟩]

theorem sample_normalised (after : Int) (bounds : 0 ≤ after ∧ after < 10^6) :
    ∀ delivery ∈ window (sampleEvents after), delivery.Normalised := by
  intro delivery member
  rcases List.mem_pair.mp member with rfl | rfl
  · exact ⟨(by decide : (0 : Int) ≤ 0 ∧ (0 : Int) < 10^6),bounds⟩
  · exact ⟨by decide,by decide⟩

theorem extremes_exact_sample : ∃ stats, statistics.run .zero (sampleEvents 3) = some stats ∧
    (Exact stats (window (sampleEvents 3)) ↔ (∀ delivery ∈ window (sampleEvents 3), 0 < delivery.elapsed) ∨
      ((∀ delivery ∈ window (sampleEvents 3), ¬delivery.Backwards) ∧
        ∃ last, (window (sampleEvents 3)).getLast? = some last ∧ last.elapsed ≤ 0)) :=
  extremes_exact_iff _ (sample_normalised 3 (by decide))

/-- A first latency of 0 is taken for no latency, and the least is reported as 5. -/
theorem least_forgotten : ∃ stats, statistics.run .zero (sampleEvents 0) = some stats ∧ stats.minLatency = 5 ∧
    ¬Exact stats (window (sampleEvents 0)) := by
  refine ⟨_,statistics_run _,by decide,fun exact_stats => ?_⟩
  have minimum := exact_stats.minLatency (by decide)
  revert minimum
  decide

end NfvConsensus.ClientPaxos
