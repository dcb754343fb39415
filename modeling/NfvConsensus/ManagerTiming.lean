import NfvConsensus.ManagerPerformance
import Mathlib.Algebra.Order.Archimedean.Basic
import Mathlib.Order.Monotone.Basic
import Mathlib.Tactic.Linarith

/-! `vnf-manager.py`: the main loop with its clock. `_install_rule` waits after each post, and
every ten seconds the loop prints its statistics. The readings of the clock are a list, in the
order in which the program asks for them; where they run out, the program is still running. -/
namespace NfvConsensus.Manager
open Python

/-- The loop of `_install_rule`: the readings that it leaves. -/
def waitSince (startTime : Rat) : List Rat → Option (List Rat)
  | [] => none
  | now :: readings => if 1 / 20 ≤ now - startTime then some readings else waitSince startTime readings

def installRule : List Rat → Option (List Rat)
  | [] => none
  | startTime :: readings => waitSince startTime readings

structure Report where
  time : Rat
  consTime : Rat
  avg : Rat
  numCons : Nat

structure Clocked where
  loop : Loop
  startTime : Rat
  printed : List Report

def measure (domain : List Int) (state : Clocked) (message stamp : Str) : List Rat → Option (Clocked × List Rat)
  | now :: late :: readings =>
    let loop := iterate domain state.loop message ⟨now,stamp⟩
    if 10 ≤ late - state.startTime then
      match readings with
      | [] => none
      | startTime :: readings =>
        let report := ⟨late,now - state.loop.perf.oldNow,loop.perf.avg,loop.perf.numCons⟩
        some (⟨loop,startTime,state.printed ++ [report]⟩,readings)
    else some (⟨loop,state.startTime,state.printed⟩,readings)
  | _ => none

def turn (domain : List Int) (state : Clocked) (message stamp : Str) (readings : List Rat) : Option (Clocked × List Rat) :=
  match handleRequest domain message with
  | .error _ =>
    let loop := { state.loop with handled := state.loop.handled ++ [message],stopped := true }
    some (⟨loop,state.startTime,state.printed⟩,readings)
  | .ok none => measure domain state message stamp readings
  | .ok (some _) => (installRule readings).bind (measure domain state message stamp)

def turns (domain : List Int) (state : Clocked) : List (Str × Str) → List Rat → Option (Clocked × List Rat)
  | [],readings => some (state,readings)
  | (message,stamp) :: rest,readings =>
    if state.loop.stopped then some (state,readings)
    else (turn domain state message stamp readings).bind fun next => turns domain next.1 rest next.2

/-- `mainloop` on what successive calls of `recv` return, each with the time of day logged for it. -/
def timedLoop (domain : List Int) (messages : List (Str × Str)) : List Rat → Option (Clocked × List Rat)
  | oldNow :: startTime :: readings => turns domain ⟨.start oldNow,startTime,[]⟩ messages readings
  | _ => none

inductive Measures (domain : List Int) (state : Clocked) (message stamp : Str) : List Rat → Clocked → List Rat → Prop
  | quiet (now late : Rat) (readings : List Rat) (early : ¬10 ≤ late - state.startTime) :
      Measures domain state message stamp (now :: late :: readings)
        ⟨iterate domain state.loop message ⟨now,stamp⟩,state.startTime,state.printed⟩ readings
  | report (now late startTime : Rat) (readings : List Rat) (report : Report) (elapsed : 10 ≤ late - state.startTime)
      (printed : report.time = late) : Measures domain state message stamp (now :: late :: startTime :: readings)
        ⟨iterate domain state.loop message ⟨now,stamp⟩,startTime,state.printed ++ [report]⟩ readings

theorem measure_cases (domain : List Int) (state after : Clocked) (message stamp : Str) (readings left : List Rat)
    (measured : measure domain state message stamp readings = some (after,left)) :
    Measures domain state message stamp readings after left := by
  unfold measure at measured
  split at measured
  · dsimp only at measured
    split at measured
    · rename_i elapsed
      split at measured
      · contradiction
      · obtain ⟨rfl,rfl⟩ := Prod.mk.inj (Option.some.inj measured)
        exact .report _ _ _ _ _ elapsed rfl
    · rename_i early
      obtain ⟨rfl,rfl⟩ := Prod.mk.inj (Option.some.inj measured)
      exact .quiet _ _ _ early
  · contradiction

theorem Measures.loop {domain : List Int} {state after : Clocked} {message stamp : Str} {readings left : List Rat}
    (measures : Measures domain state message stamp readings after left) :
    ∃ tick : Tick, after.loop = iterate domain state.loop message tick := by
  cases measures with
  | quiet now late readings early => exact ⟨_,rfl⟩
  | report now late startTime readings report elapsed printed => exact ⟨_,rfl⟩

theorem turn_loop (domain : List Int) (state after : Clocked) (message stamp : Str) (readings left : List Rat)
    (turned : turn domain state message stamp readings = some (after,left)) :
    ∃ tick : Tick, after.loop = iterate domain state.loop message tick := by
  unfold turn at turned
  split at turned
  · rename_i error raises
    refine ⟨⟨0,stamp⟩,?_⟩
    rw [iterate_raises domain state.loop message _ error raises]
    exact congrArg Clocked.loop (congrArg Prod.fst (Option.some.inj turned)).symm
  · exact (measure_cases domain state after message stamp readings left turned).loop
  · obtain ⟨waited,_,measured⟩ := Option.bind_eq_some_iff.mp turned
    exact (measure_cases domain state after message stamp waited left measured).loop

theorem turns_loop (domain : List Int) (state after : Clocked) (messages : List (Str × Str)) (readings left : List Rat)
    (ran : turns domain state messages readings = some (after,left)) : ∃ ticks : List Tick,
      ticks.length = messages.length ∧ after.loop = mainloop domain state.loop ((messages.map Prod.fst).zip ticks) := by
  induction messages generalizing state readings with
  | nil =>
    obtain ⟨rfl,_⟩ := Prod.mk.inj (Option.some.inj ran)
    exact ⟨[],rfl,rfl⟩
  | cons read messages ih =>
    rw [turns] at ran
    split at ran
    · rename_i stopped
      obtain ⟨rfl,_⟩ := Prod.mk.inj (Option.some.inj ran)
      exact ⟨(read :: messages).map fun _ => ⟨0,[]⟩,List.length_map _,(mainloop_stopped _ _ _ stopped).symm⟩
    · rename_i running
      obtain ⟨⟨next,rest⟩,turned,later⟩ := Option.bind_eq_some_iff.mp ran
      obtain ⟨tick,is⟩ := turn_loop domain state next _ _ readings rest turned
      obtain ⟨ticks,count,same⟩ := ih next rest later
      refine ⟨tick :: ticks,congrArg Nat.succ count,?_⟩
      rw [same,is,List.map_cons,List.zip_cons_cons,mainloop,if_neg running]

def Clocked.posts (state : Clocked) : Nat := state.loop.posted.countP Option.isSome

/-- No reading that is left is before one that has been used, each post has taken its time, and
there are ten seconds between two reports. -/
structure Paced (opened : Rat) (state : Clocked) (readings : List Rat) : Prop where
  steady : readings.Pairwise (· ≤ ·)
  onward : ∀ time ∈ readings, state.loop.perf.oldNow ≤ time ∧ state.startTime ≤ time
  timed : Timed opened state.loop.perf
  throttled : (state.posts : Rat) / 20 ≤ state.loop.perf.oldNow - opened
  spaced : (state.printed.map Report.time).Pairwise fun earlier later => earlier + 10 ≤ later
  last : ∀ report ∈ state.printed, report.time ≤ state.startTime

theorem waitSince_left (startTime : Rat) (readings left : List Rat) (steady : readings.Pairwise (· ≤ ·))
    (waited : waitSince startTime readings = some left) :
    left.Pairwise (· ≤ ·) ∧ (∀ time ∈ left, time ∈ readings ∧ startTime + 1 / 20 ≤ time) := by
  induction readings with
  | nil => contradiction
  | cons now readings ih =>
    obtain ⟨first,later⟩ := List.pairwise_cons.mp steady
    rw [waitSince] at waited
    split at waited
    · rename_i elapsed
      obtain rfl := Option.some.inj waited
      refine ⟨later,fun time member => ⟨List.mem_cons_of_mem _ member,?_⟩⟩
      have := first time member
      linarith
    · obtain ⟨still,bounds⟩ := ih later waited
      exact ⟨still,fun time member => ⟨List.mem_cons_of_mem _ (bounds time member).1,(bounds time member).2⟩⟩

theorem installRule_left (lowest : Rat) (readings left : List Rat) (steady : readings.Pairwise (· ≤ ·))
    (onward : ∀ time ∈ readings, lowest ≤ time) (waited : installRule readings = some left) :
    left.Pairwise (· ≤ ·) ∧ (∀ time ∈ left, time ∈ readings ∧ lowest + 1 / 20 ≤ time) := by
  cases readings with
  | nil => contradiction
  | cons startTime readings =>
    have first := onward startTime (by simp)
    obtain ⟨still,bounds⟩ := waitSince_left startTime readings left (List.pairwise_cons.mp steady).2 waited
    refine ⟨still,fun time member => ⟨List.mem_cons_of_mem _ (bounds time member).1,?_⟩⟩
    have := (bounds time member).2
    linarith

/-- How long `_install_rule` takes at least, if it is called. -/
def pause (post : Option Post) : Rat := if post.isSome then 1 / 20 else 0

theorem posts_grown (loop : Loop) (posted : List (Option Post)) (post : Option Post) (grown : loop.posted = posted ++ [post]) :
    ((loop.posted.countP Option.isSome : Nat) : Rat) / 20 = (posted.countP Option.isSome : Rat) / 20 + pause post := by
  rw [grown,List.countP_append,List.countP_singleton,pause]
  split
  · push_cast
    ring
  · push_cast
    ring

theorem iterate_throttled (opened : Rat) (domain : List Int) (loop : Loop) (message : Str) (tick : Tick) (post : Option Post)
    (handles : handleRequest domain message = .ok post)
    (throttled : (loop.posted.countP Option.isSome : Rat) / 20 ≤ loop.perf.oldNow - opened)
    (late : loop.perf.oldNow + pause post ≤ tick.now) :
    ((iterate domain loop message tick).posted.countP Option.isSome : Rat) / 20 ≤
      (iterate domain loop message tick).perf.oldNow - opened := by
  rw [posts_grown _ _ post (iterate_ok domain loop message tick post handles).2.1,
    (iterate_perf domain loop message tick ⟨post,handles⟩).1]
  dsimp only
  linarith

theorem Measures.paced {opened : Rat} {domain : List Int} {state after : Clocked} {message stamp : Str}
    {before readings left : List Rat} (measures : Measures domain state message stamp readings after left)
    (post : Option Post) (handles : handleRequest domain message = .ok post) (paced : Paced opened state before)
    (steady : readings.Pairwise (· ≤ ·))
    (onward : ∀ time ∈ readings, time ∈ before ∧ state.loop.perf.oldNow + pause post ≤ time) : Paced opened after left := by
  have clock (tick : Tick) : (iterate domain state.loop message tick).perf.oldNow = tick.now :=
    congrArg Performance.oldNow (iterate_perf domain state.loop message tick ⟨post,handles⟩).1
  have timed (tick : Tick) := iterate_timed opened domain state.loop message tick paced.timed ⟨post,handles⟩
  have throttled (tick : Tick) (late : state.loop.perf.oldNow + pause post ≤ tick.now) :=
    iterate_throttled opened domain state.loop message tick post handles paced.throttled late
  cases measures with
  | quiet now late readings early =>
    have first := (List.pairwise_cons.mp steady).1
    constructor
    · exact (List.pairwise_cons.mp (List.pairwise_cons.mp steady).2).2
    · intro time member
      dsimp only
      rw [clock]
      exact ⟨first time (by simp [member]),(paced.onward time (onward time (by simp [member])).1).2⟩
    · exact timed _
    · exact throttled ⟨now,stamp⟩ (onward now (by simp)).2
    · exact paced.spaced
    · exact paced.last
  | report now late startTime readings report elapsed printed =>
    obtain ⟨first,steady⟩ := List.pairwise_cons.mp steady
    obtain ⟨second,steady⟩ := List.pairwise_cons.mp steady
    obtain ⟨third,steady⟩ := List.pairwise_cons.mp steady
    have restarted : late ≤ startTime := second startTime (by simp)
    constructor
    · exact steady
    · intro time member
      dsimp only
      rw [clock]
      exact ⟨first time (by simp [member]),third time member⟩
    · exact timed _
    · exact throttled ⟨now,stamp⟩ (onward now (by simp)).2
    · rw [List.map_append,List.pairwise_append]
      refine ⟨paced.spaced,List.pairwise_singleton _ _,fun time member next is => ?_⟩
      obtain ⟨earlier,already,rfl⟩ := List.mem_map.mp member
      have before_start := paced.last earlier already
      rw [List.mem_singleton.mp is,printed]
      linarith
    · intro other member
      dsimp only
      rcases List.mem_append.mp member with old | new
      · have before_start := paced.last other old
        linarith
      · rw [List.mem_singleton.mp new,printed]
        exact restarted

theorem turn_paced (opened : Rat) (domain : List Int) (state after : Clocked) (message stamp : Str) (readings left : List Rat)
    (paced : Paced opened state readings) (turned : turn domain state message stamp readings = some (after,left)) :
    Paced opened after left := by
  unfold turn at turned
  split at turned
  · obtain ⟨rfl,rfl⟩ := Prod.mk.inj (Option.some.inj turned)
    exact ⟨paced.steady,paced.onward,paced.timed,paced.throttled,paced.spaced,paced.last⟩
  · rename_i handles
    have measures := measure_cases domain state after message stamp readings left turned
    refine measures.paced none handles paced paced.steady fun time member => ⟨member,?_⟩
    have unpaused : pause none = 0 := rfl
    rw [unpaused,add_zero]
    exact (paced.onward time member).1
  · rename_i post handles
    obtain ⟨waited,waits,measured⟩ := Option.bind_eq_some_iff.mp turned
    obtain ⟨steady,bounds⟩ := installRule_left state.loop.perf.oldNow readings waited paced.steady
      (fun time member => (paced.onward time member).1) waits
    have measures := measure_cases domain state after message stamp waited left measured
    exact measures.paced (some post) handles paced steady bounds

theorem turns_paced (opened : Rat) (domain : List Int) (state after : Clocked) (messages : List (Str × Str))
    (readings left : List Rat) (paced : Paced opened state readings)
    (ran : turns domain state messages readings = some (after,left)) : Paced opened after left := by
  induction messages generalizing state readings with
  | nil =>
    obtain ⟨rfl,rfl⟩ := Prod.mk.inj (Option.some.inj ran)
    exact paced
  | cons read messages ih =>
    rw [turns] at ran
    split at ran
    · obtain ⟨rfl,rfl⟩ := Prod.mk.inj (Option.some.inj ran)
      exact paced
    · obtain ⟨⟨next,rest⟩,turned,later⟩ := Option.bind_eq_some_iff.mp ran
      exact ih next rest (turn_paced opened domain state next _ _ readings rest paced turned) later

theorem waitSince_append (startTime : Rat) (readings left more : List Rat) (waited : waitSince startTime readings = some left) :
    waitSince startTime (readings ++ more) = some (left ++ more) := by
  induction readings with
  | nil => contradiction
  | cons now readings ih =>
    rw [List.cons_append,waitSince]
    rw [waitSince] at waited
    split at waited
    · rename_i elapsed
      rw [if_pos elapsed,Option.some.inj waited]
    · rename_i early
      rw [if_neg early]
      exact ih waited

theorem measure_append (domain : List Int) (state after : Clocked) (message stamp : Str) (readings left more : List Rat)
    (measured : measure domain state message stamp readings = some (after,left)) :
    measure domain state message stamp (readings ++ more) = some (after,left ++ more) := by
  unfold measure at measured
  split at measured
  · rename_i now late readings
    dsimp only at measured
    split at measured
    · rename_i elapsed
      split at measured
      · contradiction
      · obtain ⟨rfl,rfl⟩ := Prod.mk.inj (Option.some.inj measured)
        simp only [List.cons_append,measure,elapsed,if_true]
    · rename_i early
      obtain ⟨rfl,rfl⟩ := Prod.mk.inj (Option.some.inj measured)
      simp only [List.cons_append,measure,early,if_false]
  · contradiction

theorem turn_append (domain : List Int) (state after : Clocked) (message stamp : Str) (readings left more : List Rat)
    (turned : turn domain state message stamp readings = some (after,left)) :
    turn domain state message stamp (readings ++ more) = some (after,left ++ more) := by
  unfold turn at turned ⊢
  split at turned
  · obtain ⟨rfl,rfl⟩ := Prod.mk.inj (Option.some.inj turned)
    rfl
  · exact measure_append domain state after message stamp readings left more turned
  · obtain ⟨waited,waits,measured⟩ := Option.bind_eq_some_iff.mp turned
    have extended : installRule (readings ++ more) = some (waited ++ more) := by
      cases readings with
      | nil => contradiction
      | cons startTime readings => exact waitSince_append startTime readings waited more waits
    rw [extended,Option.bind_some]
    exact measure_append domain state after message stamp waited left more measured

section Clock
variable (clock : Nat → Rat)

def readingsFrom (offset count : Nat) : List Rat := (List.range' offset count).map clock

theorem readingsFrom_succ (offset count : Nat) :
    readingsFrom clock offset (count + 1) = clock offset :: readingsFrom clock (offset + 1) count := by
  rw [readingsFrom,List.range'_succ,List.map_cons]
  rfl

theorem readingsFrom_add (offset count more : Nat) : readingsFrom clock offset (count + more) =
    readingsFrom clock offset count ++ readingsFrom clock (offset + count) more := by
  rw [readingsFrom,readingsFrom,readingsFrom,← List.map_append,List.range'_append_1]

theorem readingsFrom_steady (steady : Monotone clock) (offset count : Nat) :
    (readingsFrom clock offset count).Pairwise (· ≤ ·) := by
  rw [readingsFrom,List.pairwise_map]
  exact (List.pairwise_le_range' 1).imp fun earlier => steady earlier

theorem measure_returns (domain : List Int) (state : Clocked) (message stamp : Str) (offset : Nat) :
    ∃ count after, measure domain state message stamp (readingsFrom clock offset count) = some (after,[]) := by
  by_cases elapsed : 10 ≤ clock (offset + 1) - state.startTime
  · refine ⟨3,?_⟩
    simp only [readingsFrom_succ,measure,elapsed,if_true]
    exact ⟨_,rfl⟩
  · refine ⟨2,?_⟩
    simp only [readingsFrom_succ,measure,elapsed,if_false]
    exact ⟨_,rfl⟩

variable {clock}

theorem waitSince_returns (steady : Monotone clock) (unbounded : ∀ bound, ∃ n, bound ≤ clock n) (startTime : Rat) (offset : Nat) :
    ∃ count, waitSince startTime (readingsFrom clock offset count) = some [] := by
  obtain ⟨n,late⟩ := unbounded (startTime + 1 / 20)
  generalize distance : n - offset = k
  induction k generalizing offset with
  | zero =>
    have reached := steady (Nat.sub_eq_zero_iff_le.mp distance)
    have elapsed : 1 / 20 ≤ clock offset - startTime := by linarith
    refine ⟨1,?_⟩
    rw [readingsFrom_succ,waitSince,if_pos elapsed]
    rfl
  | succ k ih =>
    by_cases elapsed : 1 / 20 ≤ clock offset - startTime
    · refine ⟨1,?_⟩
      rw [readingsFrom_succ,waitSince,if_pos elapsed]
      rfl
    · obtain ⟨count,waited⟩ := ih (offset + 1) (by omega)
      refine ⟨count + 1,?_⟩
      rw [readingsFrom_succ,waitSince,if_neg elapsed]
      exact waited

theorem turn_returns (steady : Monotone clock) (unbounded : ∀ bound, ∃ n, bound ≤ clock n) (domain : List Int)
    (state : Clocked) (message stamp : Str) (offset : Nat) :
    ∃ count after, turn domain state message stamp (readingsFrom clock offset count) = some (after,[]) := by
  unfold turn
  split
  · exact ⟨0,_,rfl⟩
  · exact measure_returns clock domain state message stamp offset
  · obtain ⟨waits,waited⟩ := waitSince_returns steady unbounded (clock offset) (offset + 1)
    have installed : installRule (readingsFrom clock offset (waits + 1)) = some [] := by
      rw [readingsFrom_succ]
      exact waited
    obtain ⟨count,after,measured⟩ := measure_returns clock domain state message stamp (offset + (waits + 1))
    refine ⟨waits + 1 + count,after,?_⟩
    have extended : installRule (readingsFrom clock offset (waits + 1 + count)) =
        some (readingsFrom clock (offset + (waits + 1)) count) := by
      rw [readingsFrom_add,readingsFrom_succ]
      exact waitSince_append (clock offset) _ [] _ waited
    rw [extended,Option.bind_some]
    exact measured

theorem turns_return (steady : Monotone clock) (unbounded : ∀ bound, ∃ n, bound ≤ clock n) (domain : List Int)
    (state : Clocked) (messages : List (Str × Str)) (offset : Nat) :
    ∃ count after, turns domain state messages (readingsFrom clock offset count) = some (after,[]) := by
  induction messages generalizing state offset with
  | nil => exact ⟨0,state,rfl⟩
  | cons read messages ih =>
    by_cases stopped : state.loop.stopped = true
    · exact ⟨0,state,by rw [turns,if_pos stopped]; rfl⟩
    · obtain ⟨first,next,turned⟩ := turn_returns steady unbounded domain state read.1 read.2 offset
      obtain ⟨others,after,ran⟩ := ih next (offset + first)
      refine ⟨first + others,after,?_⟩
      rw [turns,if_neg stopped,readingsFrom_add,turn_append domain state next read.1 read.2 _ [] _ turned,Option.bind_some]
      exact ran

end Clock

/-- Under a clock that never goes back and never halts, `mainloop` gets through any messages, does
what it would do without a clock, makes at most 20 posts a second and leaves ten seconds
between two reports. -/
theorem manager_paced (domain : List Int) (messages : List (Str × Str)) (clock : Nat → Rat)
    (steady : Monotone clock) (unbounded : ∀ bound, ∃ n, bound ≤ clock n) : ∃ count state,
      timedLoop domain messages (readingsFrom clock 0 count) = some (state,[]) ∧
      (∃ ticks : List Tick, ticks.length = messages.length ∧
        state.loop = mainloop domain (.start (clock 0)) ((messages.map Prod.fst).zip ticks)) ∧
      (state.posts : Rat) / 20 ≤ state.loop.perf.totalTime ∧
      (state.printed.map Report.time).Pairwise fun earlier later => earlier + 10 ≤ later := by
  obtain ⟨count,state,ran⟩ := turns_return steady unbounded domain ⟨.start (clock 0),clock 1,[]⟩ messages 2
  have started : Paced (clock 0) ⟨.start (clock 0),clock 1,[]⟩ (readingsFrom clock 2 count) := by
    constructor
    · exact readingsFrom_steady clock steady 2 count
    · intro time member
      obtain ⟨place,inside,rfl⟩ := List.mem_map.mp member
      have late := (List.mem_range'_1.mp inside).1
      exact ⟨steady (Nat.zero_le place),steady (by omega)⟩
    · exact ⟨(sub_self (clock 0)).symm,fun counted => absurd rfl counted⟩
    · simp [Clocked.posts,Loop.start]
    · exact List.Pairwise.nil
    · exact List.forall_mem_nil _
  have paced := turns_paced (clock 0) domain _ state messages _ [] started ran
  refine ⟨count + 2,state,?_,turns_loop domain _ state messages _ [] ran,?_,paced.spaced⟩
  · rw [readingsFrom_succ,readingsFrom_succ]
    exact ran
  · rw [paced.timed.total]
    exact paced.throttled

theorem manager_paced_post : ∃ count state,
    timedLoop [2] [(['r','#','2'],[]),(['r','#','2'],[])] (readingsFrom (fun n => (n : Rat)) 0 count) = some (state,[]) ∧
      (state.posts : Rat) / 20 ≤ state.loop.perf.totalTime := by
  obtain ⟨count,state,ran,_,throttled,_⟩ := manager_paced [2] [(['r','#','2'],[]),(['r','#','2'],[])] (fun n => (n : Rat))
    Nat.mono_cast fun bound => exists_nat_ge bound
  exact ⟨count,state,ran,throttled⟩

end NfvConsensus.Manager
