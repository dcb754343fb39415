import NfvConsensus.LearnerStream
import Mathlib.Algebra.Field.Rat
import Mathlib.Tactic.Ring

/-! What a manager has measured after a run of its main loop in which `handle_request` does
not raise: the time since the connection was accepted, spread over the messages, and one
line of the log for each of them. -/
namespace NfvConsensus.Manager
open Python

def Handles (domain : List Int) (reads : List (Str × Tick)) : Prop :=
  ∀ read ∈ reads, ∃ post, handleRequest domain read.1 = .ok post

theorem iterate_perf (domain : List Int) (loop : Loop) (message : Str) (tick : Tick)
    (handles : ∃ post, handleRequest domain message = .ok post) :
    (iterate domain loop message tick).perf = {
        oldNow := tick.now
        numCons := loop.perf.numCons + 1
        totalTime := loop.perf.totalTime + (tick.now - loop.perf.oldNow)
        avg := (loop.perf.totalTime + (tick.now - loop.perf.oldNow)) / ((loop.perf.numCons + 1 : Nat) : Rat)
        log := loop.perf.log ++ [(tick.stamp,loop.perf.numCons + 1)] } ∧
      (iterate domain loop message tick).stopped = loop.stopped := by
  obtain ⟨post,returned⟩ := handles
  simp [iterate,returned,Performance.updateStats,Performance.updateAvg]

def lastTime (now : Rat) (reads : List (Str × Tick)) : Rat := (reads.map fun read => read.2.now).getLastD now

structure Timed (opened : Rat) (perf : Performance) : Prop where
  total : perf.totalTime = perf.oldNow - opened
  average : perf.numCons ≠ 0 → perf.avg = (perf.oldNow - opened) / (perf.numCons : Rat)

theorem iterate_timed (opened : Rat) (domain : List Int) (loop : Loop) (message : Str) (tick : Tick)
    (timed : Timed opened loop.perf) (handles : ∃ post, handleRequest domain message = .ok post) :
    Timed opened (iterate domain loop message tick).perf := by
  have elapsed : loop.perf.totalTime + (tick.now - loop.perf.oldNow) = tick.now - opened := by
    rw [timed.total]
    ring
  rw [(iterate_perf domain loop message tick handles).1,elapsed]
  exact ⟨rfl,fun _ => rfl⟩

theorem mainloop_timed (opened : Rat) (domain : List Int) (loop : Loop) (reads : List (Str × Tick))
    (running : loop.stopped = false) (timed : Timed opened loop.perf) (handles : Handles domain reads) :
    (mainloop domain loop reads).stopped = false ∧ Timed opened (mainloop domain loop reads).perf ∧
      (mainloop domain loop reads).perf.numCons = loop.perf.numCons + reads.length ∧
      (mainloop domain loop reads).perf.oldNow = lastTime loop.perf.oldNow reads := by
  induction reads generalizing loop with
  | nil => exact ⟨running,timed,rfl,rfl⟩
  | cons read reads ih =>
    obtain ⟨message,tick⟩ := read
    have first := handles (message,tick) (by simp)
    obtain ⟨perf,stopped⟩ := iterate_perf domain loop message tick first
    obtain ⟨still,later,count,clock⟩ := ih (iterate domain loop message tick) (stopped.trans running)
      (iterate_timed opened domain loop message tick timed first) fun other member => handles other (by simp [member])
    rw [perf] at count clock
    simp only [mainloop,running,Bool.false_eq_true,if_false]
    refine ⟨still,later,?_,?_⟩
    · rw [count,List.length_cons,Nat.add_right_comm]
      rfl
    · rw [clock,lastTime,lastTime,List.map_cons,List.getLastD_cons]

/-- After any number of messages the manager has counted them all, its total is the time from
the accepted connection to the last message, and its average is the mean time between
deliveries. No division is by 0, since none ends the loop. -/
theorem average_delivery (now : Rat) (domain : List Int) (reads : List (Str × Tick))
    (handles : Handles domain reads) :
    (mainloop domain (.start now) reads).stopped = false ∧
      (mainloop domain (.start now) reads).perf.numCons = reads.length ∧
      (mainloop domain (.start now) reads).perf.totalTime = lastTime now reads - now ∧
      (reads ≠ [] → (mainloop domain (.start now) reads).perf.avg =
        (lastTime now reads - now) / (reads.length : Rat)) := by
  have timed : Timed now (Loop.start now).perf := ⟨(sub_self now).symm,fun counted => absurd rfl counted⟩
  obtain ⟨running,still,count,clock⟩ := mainloop_timed now domain (.start now) reads rfl timed handles
  have count : (mainloop domain (.start now) reads).perf.numCons = reads.length := count.trans (Nat.zero_add _)
  have clock : (mainloop domain (.start now) reads).perf.oldNow = lastTime now reads := clock
  refine ⟨running,count,by rw [still.total,clock],fun present => ?_⟩
  have counted : (mainloop domain (.start now) reads).perf.numCons ≠ 0 := by
    rw [count]
    exact mt List.eq_nil_of_length_eq_zero present
  rw [still.average counted,clock,count]

/-- The log has one line for each message that `handle_request` returned on, numbered from 1. -/
theorem mainloop_log (domain : List Int) (loop : Loop) (reads : List (Str × Tick)) (running : loop.stopped = false) :
    ∃ k, (mainloop domain loop reads).perf.log =
      loop.perf.log ++ ((reads.take k).map fun read => read.2.stamp).zipIdx (loop.perf.numCons + 1) := by
  induction reads generalizing loop with
  | nil => exact ⟨0,by simp [mainloop]⟩
  | cons read reads ih =>
    obtain ⟨message,tick⟩ := read
    simp only [mainloop,running,Bool.false_eq_true,if_false]
    cases handles : handleRequest domain message with
    | ok post =>
      obtain ⟨perf,stopped⟩ := iterate_perf domain loop message tick ⟨post,handles⟩
      obtain ⟨k,log⟩ := ih (iterate domain loop message tick) (stopped.trans running)
      refine ⟨k + 1,?_⟩
      rw [log,perf,List.take_succ_cons,List.map_cons,List.zipIdx_cons,List.append_assoc,List.singleton_append]
    | error error =>
      rw [iterate_raises domain loop message tick error handles,mainloop_stopped _ _ _ rfl]
      exact ⟨0,by simp⟩

-- Two messages, one and four seconds after the connection was accepted.
def sampleReads : List (Str × Tick) := [(['r','#','3'],⟨2,[]⟩),(['r','#','3'],⟨5,[]⟩)]

theorem sample_handles : Handles [2] sampleReads := by
  intro read member
  refine ⟨none,?_⟩
  rcases List.mem_pair.mp member with rfl | rfl
  · rfl
  · rfl

theorem average_delivery_two : (mainloop [2] (.start 1) sampleReads).stopped = false ∧
    (mainloop [2] (.start 1) sampleReads).perf.numCons = 2 ∧
      (mainloop [2] (.start 1) sampleReads).perf.totalTime = 5 - 1 ∧
      (sampleReads ≠ [] → (mainloop [2] (.start 1) sampleReads).perf.avg = (5 - 1) / ((2 : Nat) : Rat)) :=
  average_delivery 1 [2] sampleReads sample_handles

end NfvConsensus.Manager
