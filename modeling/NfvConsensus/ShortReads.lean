import NfvConsensus.Stopping

/-! `recv(179)` may return less than it asks for, and nothing at all at the end of a connection. A
part of a message ends before the host of the message does, so `handle_request` raises on it: the
manager stops, and nothing is posted that would not have been posted anyway. -/
namespace NfvConsensus.System
open Python ClientPaxos Foundation.Framing Foundation.Transition

inductive Reading
  | other (event : Event)
  | short (vnf count : Nat) (tick : Manager.Tick)

def Reading.full : Reading → Option Event
  | .other event => some event
  | .short .. => none

/-- In a short read `recv` returns what there is of a message, down to nothing. -/
def read (net : Network) (state : State) : Reading → Option State
  | .other event => step net state event
  | .short vnf count tick =>
    if Up net vnf ∧ (state.loops vnf).stopped = false ∧ count < 179 ∧ count ≤ (state.unread vnf).length then
      some { state with
        unread := Function.update state.unread vnf ((state.unread vnf).drop count)
        loops := Function.update state.loops vnf
          (Manager.iterate (net.hosts vnf) (state.loops vnf) ((state.unread vnf).take count) tick) }
    else none

def readings (net : Network) (now : Nat → Rat) : Machine State Reading where
  initial := start now
  step := read net

def Cut (readings : List Reading) (vnf : Nat) : Prop := ∃ count tick, .short vnf count tick ∈ readings

theorem cut_other (readings : List Reading) (event : Event) : Cut (readings ++ [.other event]) = Cut readings := by
  funext vnf
  simp only [Cut,List.mem_append,List.mem_singleton,reduceCtorEq,or_false]

theorem cut_short (readings : List Reading) (vnf count : Nat) (tick : Manager.Tick) (other : Nat) :
    Cut (readings ++ [.short vnf count tick]) other ↔ Cut readings other ∨ other = vnf := by
  simp only [Cut,List.mem_append,List.mem_singleton,Reading.short.injEq,exists_or,exists_and_left,
    exists_eq,and_true]

/-- `loop` is `whole`, stopped by a part of the message that it would have read next. -/
structure Halted (loop whole : Manager.Loop) (unread : Str) : Prop where
  running : whole.stopped = false
  stopped : ∃ part, part.length < 179 ∧ part <+: unread ∧
    loop = { whole with handled := whole.handled ++ [part],stopped := true }

/-- The states differ only in the managers that a short read has stopped. -/
structure Follows (cut : Nat → Prop) (state whole : State) : Prop where
  shared : state = { whole with unread := state.unread,loops := state.loops }
  uncut : ∀ vnf, ¬cut vnf → state.unread vnf = whole.unread vnf ∧ state.loops vnf = whole.loops vnf
  halted : ∀ vnf, cut vnf → Halted (state.loops vnf) (whole.loops vnf) (whole.unread vnf)

section Follows
variable {net : Network} {good : Nat → Request → Prop} {cut : Nat → Prop} {state whole : State}

theorem Follows.running (follows : Follows cut state whole) (vnf : Nat) (running : (state.loops vnf).stopped = false) :
    ¬cut vnf := by
  intro short
  obtain ⟨_,_,_,is⟩ := (follows.halted vnf short).stopped
  rw [is] at running
  contradiction

theorem Follows.posted (follows : Follows cut state whole) (vnf : Nat) :
    (state.loops vnf).posted = (whole.loops vnf).posted := by
  by_cases short : cut vnf
  · obtain ⟨_,_,_,is⟩ := (follows.halted vnf short).stopped
    rw [is]
  · rw [(follows.uncut vnf short).2]

/-- No part of what a manager is to read next gets as far as a digit of the host. -/
theorem Sound.short_raises (sound : Sound net good state) (few : net.numCtls ≤ 253) (vnf count : Nat) (short : count < 179)
    (domain : List Int) : Manager.Raises domain ((state.unread vnf).take count) := by
  obtain ⟨rest,handled,unread⟩ := sound.written vnf
  cases rest with
  | nil =>
    rw [unread,List.flatten_nil,List.take_nil]
    exact ⟨.valueError,rfl⟩
  | cons window rest =>
    have next : state.windows[(state.loops vnf).handled.length]? = some window := by
      have found : (state.windows.take (state.delivered vnf))[(state.loops vnf).handled.length]? = some window := by
        rw [← handled,List.getElem?_append_right (Nat.le_refl _),Nat.sub_self]
        rfl
      rw [List.getElem?_take] at found
      exact (Option.ite_none_right_eq_some.mp found).2
    obtain ⟨ctl,_,request,_,_,is,_⟩ := sound.window few _ window next
    have long := message_long request ctl
    have rule := request.rule_length
    have inLow := (Request.port_digits request.inPort).1
    have outLow := (Request.port_digits request.outPort).1
    rw [controllerHost_str] at long
    rw [unread,List.flatten_cons,is,List.take_append_of_le_length (by rw [List.length_take]; omega),List.take_take,
      Nat.min_eq_left (Nat.le_of_lt short)]
    exact ⟨.valueError,Manager.handleRequest_cut request _ count (by omega) domain⟩

/-- A step that is no short read is a step there too. -/
theorem Follows.event (follows : Follows cut state whole) (event : Event) (after : State)
    (taken : step net state event = some after) : ∃ next, step net whole event = some next ∧ Follows cut after next := by
  obtain ⟨unread,loops,rfl⟩ : ∃ unread loops, state = { whole with unread := unread,loops := loops } :=
    ⟨_,_,follows.shared⟩
  cases (step_iff net _ after event).mp taken with
  | packetIn ctl msg inside =>
    exact ⟨_,(step_iff net whole _ _).mpr (.packetIn ctl msg inside),⟨rfl,follows.uncut,follows.halted⟩⟩
  | arrive ctl count v ambient positive present =>
    exact ⟨_,(step_iff net whole _ _).mpr (.arrive ctl count v ambient positive present),⟨rfl,follows.uncut,follows.halted⟩⟩
  | decide i submitted fresh =>
    exact ⟨_,(step_iff net whole _ _).mpr (.decide i submitted fresh),⟨rfl,follows.uncut,follows.halted⟩⟩
  | deliver vnf behind ctl value next up =>
    refine ⟨_,(step_iff net whole _ _).mpr (.deliver vnf behind ctl value next up),⟨rfl,?_,?_⟩⟩
    · intro other full
      obtain ⟨text,loop⟩ := follows.uncut other full
      simp only at text
      refine ⟨?_,loop⟩
      by_cases same : other = vnf
      · subst same
        simp only [Function.update_self,text]
      · simp only [Function.update_of_ne same,text]
    · intro other short
      obtain ⟨running,part,small,front,is⟩ := follows.halted other short
      refine ⟨running,part,small,front.trans ?_,is⟩
      by_cases same : other = vnf
      · subst same
        simp only [Function.update_self]
        exact List.prefix_append _ _
      · simp only [Function.update_of_ne same]
        exact List.prefix_rfl
  | recv vnf tick up running available =>
    have full := follows.running vnf running
    obtain ⟨text,loop⟩ := follows.uncut vnf full
    simp only at text loop running available
    rw [loop] at running
    rw [text] at available
    refine ⟨_,(step_iff net whole _ _).mpr (.recv vnf tick up running available),⟨rfl,?_,?_⟩⟩
    · intro other uncut
      by_cases same : other = vnf
      · subst same
        simp only [Function.update_self,text,loop,and_self]
      · simp only [Function.update_of_ne same]
        exact follows.uncut other uncut
    · intro other short
      have same : other ≠ vnf := fun equal => full (equal ▸ short)
      simp only [Function.update_of_ne same]
      exact follows.halted other short

theorem Follows.short (follows : Follows cut state whole) (sound : Sound net good whole) (few : net.numCtls ≤ 253)
    (vnf count : Nat) (tick : Manager.Tick) (after : State) (taken : read net state (.short vnf count tick) = some after) :
    Follows (fun other => cut other ∨ other = vnf) after whole := by
  obtain ⟨unread,loops,rfl⟩ : ∃ unread loops, state = { whole with unread := unread,loops := loops } :=
    ⟨_,_,follows.shared⟩
  obtain ⟨⟨_,running,small,present⟩,is⟩ := Option.ite_none_right_eq_some.mp taken
  obtain ⟨text,loop⟩ := follows.uncut vnf (follows.running vnf running)
  simp only at text loop running present
  rw [loop] at running
  obtain ⟨error,raises⟩ := sound.short_raises few vnf count small (net.hosts vnf)
  have stops := Manager.iterate_raises (net.hosts vnf) (whole.loops vnf) _ tick error raises
  obtain rfl := Option.some.inj is
  refine ⟨rfl,?_,?_⟩
  · intro other uncut
    obtain ⟨full,apart⟩ := not_or.mp uncut
    simp only [Function.update_of_ne apart]
    exact follows.uncut other full
  · intro other short
    by_cases same : other = vnf
    · subst same
      simp only [Function.update_self,text,loop,stops]
      exact ⟨running,_,(List.length_take_le _ _).trans_lt small,List.take_prefix _ _,rfl⟩
    · simp only [Function.update_of_ne same]
      exact follows.halted other (short.resolve_right same)

theorem start_follows (now : Nat → Rat) : Follows (Cut []) (start now) (start now) := by
  refine ⟨rfl,fun _ _ => ⟨rfl,rfl⟩,fun vnf short => ?_⟩
  obtain ⟨_,_,member⟩ := short
  contradiction

end Follows

/-- A run with short reads has the same posts as the run without them, and all the same states but
for the managers that read short: each of these has stopped there, at its first short read. -/
theorem short_reads_stop (net : Network) (few : net.numCtls ≤ 253) (now : Nat → Rat) (events : List Reading) (state : State)
    (ran : (readings net now).run (start now) events = some state) :
    ∃ whole, (system net now).run (start now) (events.filterMap Reading.full) = some whole ∧
      Follows (Cut events) state whole ∧ ∀ vnf k post, state.Posts vnf k post ↔ whole.Posts vnf k post := by
  have answered (events : List Reading) (before other after : State) (event : Reading)
      (follows : Follows (Cut events) before other) (reached : (system net now).Reachable other)
      (taken : read net before event = some after) :
      ∃ next, (system net now).run other event.full.toList = some next ∧ Follows (Cut (events ++ [event])) after next := by
    cases event with
    | other event =>
      obtain ⟨next,answers,still⟩ := follows.event event after taken
      refine ⟨next,?_,?_⟩
      · change (step net other event).bind some = some next
        rw [answers,Option.bind_some]
      · rwa [cut_other]
    | short vnf count tick =>
      have still := follows.short (reachable_sound few now reached) few vnf count tick after taken
      have cuts : Cut (events ++ [.short vnf count tick]) = fun other => Cut events other ∨ other = vnf :=
        funext fun other => propext (cut_short events vnf count tick other)
      rw [cuts]
      exact ⟨other,rfl,still⟩
  obtain ⟨whole,ran_whole,follows⟩ : ∃ whole, (system net now).run (start now) (events.filterMap Reading.full) =
      some whole ∧ Follows (Cut events) state whole :=
    Machine.image_run Reading.full (fun events => Follows (Cut events)) (start_follows now) answered events state ran
  refine ⟨whole,ran_whole,follows,fun vnf k post => ?_⟩
  rw [State.Posts,State.Posts,follows.posted vnf]

def cutReadings : List Reading :=
  ((sampleEvents 0 182 ConsensusSwitch.asking).take 5).map Reading.other ++ [.short 0 100 ⟨1,[]⟩]

theorem cut_stopped : ((readings ⟨1,1⟩ fun _ => 0).run (start fun _ => 0) cutReadings).map
    (fun state => (state.loops 0).stopped) = some true := by
  decide +kernel

/-- Of the sample message only 100 bytes are read. -/
theorem short_reads_stop_sample : ∃ state whole : State, (state.loops 0).stopped = true ∧
    (whole.loops 0).stopped = false ∧ ∀ k post, state.Posts 0 k post ↔ whole.Posts 0 k post := by
  obtain ⟨state,ran,stopped⟩ := Option.map_eq_some_iff.mp cut_stopped
  obtain ⟨whole,_,follows,posts⟩ := short_reads_stop ⟨1,1⟩ (by decide) (fun _ => 0) cutReadings state ran
  have short : Cut cutReadings 0 := ⟨100,⟨1,[]⟩,List.mem_append_right _ List.mem_cons_self⟩
  exact ⟨state,whole,stopped,(follows.halted 0 short).running,posts 0⟩

end NfvConsensus.System
