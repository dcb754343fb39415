import NfvConsensus.RuleDelivery
import NfvConsensus.Foundation.ReplicatedLog

/-! The managers as replicas of one log. Its entries are the requests, each by its controller
and its place among the requests of that controller; a manager has applied an entry when
`handle_request` has been called for it. -/
namespace NfvConsensus.System
open Python ClientPaxos Foundation.Framing Foundation.Transition Foundation.ReplicatedLog

inductive Steps (net : Network) (state : State) : Event → State → Prop
  | packetIn (ctl : Nat) (msg : PacketIn) (inside : ctl < net.numCtls) :
      Steps net state (.packetIn ctl msg) { state with
        tables := Function.update state.tables ctl
          (ConsensusSwitch.packetInHandler (controllerHost ctl) (state.tables ctl) msg).1
        wire := Function.update state.wire ctl
          (state.wire ctl ++ sentBytes (ConsensusSwitch.packetInHandler (controllerHost ctl) (state.tables ctl) msg).2)
        emitted := state.emitted ++
          (ConsensusSwitch.requested (state.tables ctl) msg).toList.map fun request => (ctl,request) }
  | arrive (ctl count : Nat) (v : Str) (ambient : Nat → Ambient) (positive : 1 ≤ count)
      (present : count ≤ (state.wire ctl).length) :
      Steps net state (.arrive ctl count v ambient) { state with
        wire := Function.update state.wire ctl ((state.wire ctl).drop count)
        client := onRecvValue state.client ⟨ctl,(state.wire ctl).take count,v,ambient⟩ }
  | decide (i : Nat) (submitted : i < state.client.submitted.length) (fresh : i ∉ state.decided) :
      Steps net state (.decide i) { state with decided := state.decided ++ [i] }
  | deliver (vnf : Nat) (behind : Str) (ctl : Nat) (value : ClientValue)
      (next : state.value (state.delivered vnf) = some (ctl,value)) (up : Up net vnf) :
      Steps net state (.deliver vnf behind) { state with
        delivered := Function.update state.delivered vnf (state.delivered vnf + 1)
        unread := Function.update state.unread vnf (state.unread vnf ++ LearnerPaxos.deliver value behind) }
  | recv (vnf : Nat) (tick : Manager.Tick) (up : Up net vnf) (running : (state.loops vnf).stopped = false)
      (available : 179 ≤ (state.unread vnf).length) :
      Steps net state (.recv vnf tick) { state with
        unread := Function.update state.unread vnf ((state.unread vnf).drop 179)
        loops := Function.update state.loops vnf
          (Manager.iterate (net.hosts vnf) (state.loops vnf) ((state.unread vnf).take 179) tick) }

theorem step_iff (net : Network) (before after : State) (event : Event) :
    step net before event = some after ↔ Steps net before event after := by
  constructor
  · intro taken
    cases event with
    | packetIn ctl msg =>
      obtain ⟨inside,is⟩ := Option.ite_none_right_eq_some.mp taken
      rw [← Option.some.inj is]
      exact .packetIn ctl msg inside
    | arrive ctl count v ambient =>
      obtain ⟨⟨positive,present⟩,is⟩ := Option.ite_none_right_eq_some.mp taken
      rw [← Option.some.inj is]
      exact .arrive ctl count v ambient positive present
    | decide i =>
      obtain ⟨⟨submitted,fresh⟩,is⟩ := Option.ite_none_right_eq_some.mp taken
      rw [← Option.some.inj is]
      exact .decide i submitted fresh
    | deliver vnf behind =>
      cases next : before.value (before.delivered vnf) with
      | none => simp [step,next] at taken
      | some entry =>
        simp only [step,next] at taken
        obtain ⟨up,is⟩ := Option.ite_none_right_eq_some.mp taken
        rw [← Option.some.inj is]
        exact .deliver vnf behind entry.1 entry.2 next up
    | recv vnf tick =>
      obtain ⟨⟨up,running,available⟩,is⟩ := Option.ite_none_right_eq_some.mp taken
      rw [← Option.some.inj is]
      exact .recv vnf tick up running available
  · intro steps
    cases steps with
    | packetIn ctl msg inside => exact if_pos inside
    | arrive ctl count v ambient positive present => exact if_pos ⟨positive,present⟩
    | decide i submitted fresh => exact if_pos ⟨submitted,fresh⟩
    | deliver vnf behind ctl value next up => simp only [step,next,up,if_true]
    | recv vnf tick up running available => exact if_pos ⟨up,running,available⟩

def Any (_ctl : Nat) (_request : Request) : Prop := True

/-- The request behind a submitted value. -/
def State.place (state : State) (i : Nat) : Option (Nat × Nat) :=
  state.client.submitted[i]?.map fun value => (value.1,(channel value.1 (state.client.submitted.take i)).length)

def State.log (state : State) : Log (Nat × Nat) Nat where
  asked := {entry | entry.2 < (channel entry.1 state.emitted).length}
  decided := state.decided.filterMap state.place
  applied vnf := (state.loops vnf).handled.length

/-- What a learner writes for the request of an entry. -/
def State.Window (state : State) (entry : Nat × Nat) (message : Str) : Prop :=
  ∃ request, (channel entry.1 state.emitted)[entry.2]? = some request ∧
    message = (request.message (controllerHost entry.1)).take 179

section Log
variable {net : Network} {good : Nat → Request → Prop}

theorem any_preserved (few : net.numCtls ≤ 253) (now : Nat → Rat) (before after : State) (event : Event)
    (sound : Sound net Any before) (taken : (system net now).step before event = some after) : Sound net Any after :=
  step_sound few before after event sound (fun _ _ _ _ _ => trivial) taken

theorem reached_any {allowed : State → Event → Prop} (few : net.numCtls ≤ 253) (now : Nat → Rat) {state : State}
    (reached : (system net now).Reached allowed state) : Sound net Any state :=
  reached.invariant (start_sound now) fun before after event sound _ taken =>
    any_preserved few now before after event sound taken

theorem reachable_sound (few : net.numCtls ≤ 253) (now : Nat → Rat) {state : State}
    (reached : (system net now).Reachable state) : Sound net Any state :=
  reached_any few now reached

theorem Sound.channel_outside {state : State} (sound : Sound net good state) (ctl : Nat) (outside : net.numCtls ≤ ctl) :
    channel ctl state.emitted = [] := by
  rw [List.eq_nil_iff_forall_not_mem]
  intro request member
  have inside := (sound.requests _ ((mem_channel _ _ _).mp member)).1
  omega

theorem Sound.place_asked {state : State} (sound : Sound net good state) (few : net.numCtls ≤ 253) (i : Nat)
    (bound : i < state.client.submitted.length) : ∃ entry, state.place i = some entry ∧ entry ∈ state.log.asked := by
  obtain ⟨⟨ctl,value⟩,found⟩ : ∃ value, state.client.submitted[i]? = some value := ⟨_,List.getElem?_eq_getElem bound⟩
  obtain ⟨request,placed,_⟩ := sound.submitted few i ctl value found
  refine ⟨(ctl,(channel ctl (state.client.submitted.take i)).length),?_,?_⟩
  · rw [State.place,found,Option.map_some]
  · exact (List.getElem?_eq_some_iff.mp placed).1

theorem place_injective (state : State) (i j : Nat) (entry : Nat × Nat) (first : state.place i = some entry)
    (second : state.place j = some entry) : i = j := by
  obtain ⟨⟨ctl,value⟩,found,is⟩ := Option.map_eq_some_iff.mp first
  obtain ⟨⟨other,value'⟩,found',is'⟩ := Option.map_eq_some_iff.mp second
  obtain ⟨rfl,places⟩ := Prod.mk.inj (is.trans is'.symm)
  exact channel_place _ i j _ _ _ found found' places

theorem place_grown (before after : State) (more : List (Nat × ClientValue))
    (grown : after.client.submitted = before.client.submitted ++ more) (i : Nat)
    (bound : i < before.client.submitted.length) : after.place i = before.place i := by
  rw [State.place,State.place,grown,List.getElem?_append_left bound,List.take_append_of_le_length (Nat.le_of_lt bound)]

theorem Sound.decided_origin {state : State} (sound : Sound net good state) (k : Nat) :
    state.log.decided[k]? = state.origin k := by
  have whole (i : Nat) (member : i ∈ state.decided) : state.place i = some ((state.place i).getD (0,0)) := by
    rw [State.place,List.getElem?_eq_getElem (sound.known i member)]
    rfl
  have mapped : state.log.decided = state.decided.map fun i => (state.place i).getD (0,0) := by
    rw [State.log,List.filterMap_congr whole]
    exact congrFun List.filterMap_eq_map _
  rw [mapped,List.getElem?_map,State.origin]
  cases decided : state.decided[k]? with
  | none => rfl
  | some i =>
    rw [Option.map_some,Option.bind_some]
    exact (whole i (List.mem_of_getElem? decided)).symm

theorem Sound.decided_length {state : State} (sound : Sound net good state) :
    state.log.decided.length = state.decided.length := by
  have all : ∀ i ∈ state.decided, (state.place i).isSome = true := by
    intro i member
    rw [State.place,List.getElem?_eq_getElem (sound.known i member)]
    rfl
  exact List.filterMap_length_eq_length.mpr all

theorem Sound.applied_behind {state : State} (sound : Sound net good state) (vnf : Nat) :
    (state.loops vnf).handled.length ≤ state.delivered vnf := by
  obtain ⟨rest,handled,_⟩ := sound.written vnf
  have counted := congrArg List.length handled
  rw [List.length_append,List.length_take] at counted
  omega

/-- A manager with a message to read has handled less than has been decided. -/
theorem Sound.unread_behind {state : State} (sound : Sound net good state) (vnf : Nat)
    (available : 179 ≤ (state.unread vnf).length) : (state.loops vnf).handled.length < state.decided.length := by
  obtain ⟨rest,handled,unread⟩ := sound.written vnf
  have counted := congrArg List.length handled
  rw [List.length_append,List.length_take,State.windows,List.length_map] at counted
  have left : rest ≠ [] := by
    rintro rfl
    rw [unread] at available
    contradiction
  have positive := List.length_pos_iff.mpr left
  omega

theorem emitted_asked (emitted : List (Nat × Request)) (ctl : Nat) (request : Request) :
    {entry : Nat × Nat | entry.2 < (channel entry.1 (emitted ++ [(ctl,request)])).length} =
      insert (ctl,(channel ctl emitted).length) {entry : Nat × Nat | entry.2 < (channel entry.1 emitted).length} := by
  ext ⟨other,j⟩
  simp only [Set.mem_ofPred_eq,Set.mem_insert_iff,Prod.mk.injEq,channel_append,channel_singleton,List.length_append]
  split
  · rename_i same
    subst same
    simp only [List.length_singleton,true_and]
    omega
  · rename_i different
    simp only [List.length_nil,Ne.symm different,false_and,false_or]
    omega

theorem step_simulates (few : net.numCtls ≤ 253) (now : Nat → Rat) :
    (system net now).Simulates (Sound net Any) State.log Log.Step := by
  intro before after event sound taken
  cases (step_iff net before after event).mp taken with
  | packetIn ctl msg inside =>
    cases asked : ConsensusSwitch.requested (before.tables ctl) msg with
    | none =>
      left
      simp only [State.log,Option.toList_none,List.map_nil,List.append_nil]
      rfl
    | some request =>
      right
      have asks := Log.Step.ask before.log (ctl,(channel ctl before.emitted).length)
      rw [State.log,← emitted_asked before.emitted ctl request] at asks
      exact asks
  | arrive ctl count v ambient positive present =>
    left
    rw [State.log,State.log,Log.mk.injEq]
    refine ⟨rfl,?_,rfl⟩
    apply List.filterMap_congr
    intro i member
    exact place_grown before _ _ rfl i (sound.known i member)
  | decide i submitted fresh =>
    right
    obtain ⟨entry,placed,asked⟩ := sound.place_asked few i submitted
    have undecided : entry ∉ before.log.decided := by
      intro member
      obtain ⟨other,decided,same⟩ := List.mem_filterMap.mp member
      exact fresh (place_injective before i other entry placed same ▸ decided)
    have decides := Log.Step.decide before.log entry asked undecided
    have appended : (before.decided ++ [i]).filterMap before.place = before.log.decided ++ [entry] := by
      rw [List.filterMap_append,List.filterMap_cons_some placed]
      rfl
    rw [← appended] at decides
    exact decides
  | deliver vnf behind ctl value next up => exact .inl rfl
  | recv vnf tick up running available =>
    right
    have behind := sound.unread_behind vnf available
    rw [← sound.decided_length] at behind
    have applies := Log.Step.apply before.log vnf behind
    have counts : (fun other => (Function.update before.loops vnf (Manager.iterate (net.hosts vnf) (before.loops vnf)
        ((before.unread vnf).take 179) tick) other).handled.length) =
        Function.update before.log.applied vnf (before.log.applied vnf + 1) := by
      funext other
      by_cases same : other = vnf
      · subst same
        rw [Function.update_self,Function.update_self,Manager.Loop.iterate_handled,List.length_append]
        rfl
      · rw [Function.update_of_ne same,Function.update_of_ne same]
        rfl
    rw [← counts] at applies
    exact applies

theorem start_log (now : Nat → Rat) : (start now).log = Log.empty := by
  have unasked : {entry : Nat × Nat | entry.2 < (channel entry.1 ([] : List (Nat × Request))).length} = ∅ :=
    Set.eq_empty_of_forall_notMem fun entry member => Nat.not_lt_zero _ member
  rw [State.log,Log.empty,Log.mk.injEq]
  exact ⟨unasked,rfl,rfl⟩

theorem run_simulates (few : net.numCtls ≤ 253) (now : Nat → Rat) (first later : State) (events : List Event)
    (sound : Sound net Any first) (ran : (system net now).run first events = some later) :
    Relation.ReflTransGen Log.Step first.log later.log :=
  Machine.simulated_run (step_simulates few now) (any_preserved few now) first later events sound ran

theorem Sound.handled_history {state : State} (sound : Sound net good state) (few : net.numCtls ≤ 253) (vnf : Nat) :
    List.Forall₂ state.Window (state.log.history vnf) (state.loops vnf).handled := by
  have ahead := Nat.le_trans (sound.applied_behind vnf) (sound.behind vnf)
  have counted : (state.log.history vnf).length = (state.loops vnf).handled.length := by
    rw [Log.history,List.length_take_of_le]
    · rfl
    · rw [sound.decided_length]
      exact ahead
  rw [List.forall₂_iff_get]
  refine ⟨counted,fun k applied handled => ?_⟩
  have message := List.getElem?_eq_getElem handled
  obtain ⟨ctl,j,request,origin,placed,window,_⟩ := sound.window few k _ (sound.handled_window vnf k _ message)
  have entry : (state.log.history vnf)[k]? = some (ctl,j) := by
    rw [Log.history,List.getElem?_take]
    exact (if_pos handled).trans ((sound.decided_origin k).trans origin)
  have is := (List.getElem?_eq_some_iff.mp entry).2
  rw [List.get_eq_getElem,List.get_eq_getElem,is]
  refine ⟨request,placed,?_⟩
  rw [window,controllerHost_str]

theorem step_emitted (before after : State) (event : Event) (taken : step net before event = some after) :
    before.emitted <+: after.emitted := by
  cases (step_iff net before after event).mp taken with
  | packetIn ctl msg inside => exact List.prefix_append _ _
  | arrive ctl count v ambient positive present => exact List.prefix_rfl
  | decide i submitted fresh => exact List.prefix_rfl
  | deliver vnf behind ctl value next up => exact List.prefix_rfl
  | recv vnf tick up running available => exact List.prefix_rfl

theorem run_emitted (now : Nat → Rat) (first later : State) (events : List Event)
    (ran : (system net now).run first events = some later) : first.emitted <+: later.emitted := by
  induction events generalizing first with
  | nil =>
    cases Option.some.inj ran
    exact List.prefix_rfl
  | cons event events ih =>
    obtain ⟨middle,taken,ran⟩ := Option.bind_eq_some_iff.mp ran
    exact (step_emitted first middle event taken).trans (ih middle ran)

theorem window_later (first later : State) (grown : first.emitted <+: later.emitted) (entry : Nat × Nat) (message : Str)
    (window : first.Window entry message) : later.Window entry message := by
  obtain ⟨request,placed,is⟩ := window
  obtain ⟨more,whole⟩ := grown
  refine ⟨request,?_,is⟩
  rw [← whole,channel_append,List.getElem?_append_left (List.getElem?_eq_some_iff.mp placed).1,placed]

theorem window_unique (state : State) : Relator.RightUnique state.Window := by
  rintro entry message other ⟨request,placed,rfl⟩ ⟨repeated,again,rfl⟩
  obtain rfl : request = repeated := Option.some.inj (placed.symm.trans again)
  rfl

theorem windows_begin (state : State) (shorter longer : List (Nat × Nat)) (first second : List Str)
    (begins : shorter <+: longer) (left : List.Forall₂ state.Window shorter first)
    (right : List.Forall₂ state.Window longer second) : first <+: second := by
  obtain ⟨more,rfl⟩ := begins
  have front := List.forall₂_take shorter.length right
  rw [List.take_left' rfl] at front
  rw [(window_unique state).forall₂ left front]
  exact List.take_prefix _ _

theorem reachable_log (few : net.numCtls ≤ 253) (now : Nat → Rat) {state : State}
    (reached : (system net now).Reachable state) : state.log.Reachable := by
  obtain ⟨labels,from_start⟩ := (Machine.reachable_iff_run state).mp reached
  have log_run := run_simulates few now _ state labels (start_sound now) from_start
  rwa [start_log] at log_run

theorem handled_agree (few : net.numCtls ≤ 253) (now : Nat → Rat) (first later : State) (events : List Event)
    (reached : (system net now).Reachable first) (ran : (system net now).run first events = some later) (vnf other : Nat) :
    (first.loops vnf).handled <+: (later.loops other).handled ∨
      (later.loops other).handled <+: (first.loops vnf).handled := by
  have sound := reachable_sound few now reached
  have after := reachable_sound few now (Machine.reachable_run first later events reached ran)
  have before : List.Forall₂ later.Window (first.log.history vnf) (first.loops vnf).handled :=
    (sound.handled_history few vnf).imp (window_later first later (run_emitted now first later events ran))
  have there := after.handled_history few other
  rcases Log.histories_agree (run_simulates few now first later events sound ran) vnf other with ahead | behind
  · exact .inl (windows_begin later _ _ _ _ ahead before there)
  · exact .inr (windows_begin later _ _ _ _ behind there before)

end Log

/-- Every run of the system is a run of the log, and what a manager has handled are the windows
of the entries it has applied. -/
theorem runs_refine (net : Network) (few : net.numCtls ≤ 253) (now : Nat → Rat) (first later : State)
    (events : List Event) (reached : (system net now).Reachable first)
    (ran : (system net now).run first events = some later) :
    first.log.Reachable ∧ Relation.ReflTransGen Log.Step first.log later.log ∧
      ∀ vnf, List.Forall₂ later.Window (later.log.history vnf) (later.loops vnf).handled := by
  have sound := reachable_sound few now reached
  have after := reachable_sound few now (Machine.reachable_run first later events reached ran)
  exact ⟨reachable_log few now reached,run_simulates few now first later events sound ran,
    fun vnf => after.handled_history few vnf⟩

-- One request at two managers, of which the second reads it later.
def following : List Event := [.deliver 1 [],.recv 1 ⟨2,[]⟩]

def followingRun (count : Nat) (asking : PacketIn) : Option (State × State) :=
  (sampleRun ⟨2,2⟩ 0 count asking).bind fun first =>
    ((system ⟨2,2⟩ fun _ => 0).run first following).map fun later => (first,later)

theorem following_runs {β : Type} (count : Nat) (asking : PacketIn) (observe : State → State → β) (facts : β)
    (found : (followingRun count asking).map (fun states => observe states.1 states.2) = some facts) :
    ∃ first later, (system ⟨2,2⟩ fun _ => 0).Reachable first ∧
      (system ⟨2,2⟩ fun _ => 0).run first following = some later ∧ observe first later = facts := by
  obtain ⟨⟨first,later⟩,both,observed⟩ := Option.map_eq_some_iff.mp found
  obtain ⟨_,started,second⟩ := Option.bind_eq_some_iff.mp both
  obtain ⟨_,ran,is⟩ := Option.map_eq_some_iff.mp second
  obtain ⟨rfl,rfl⟩ := Prod.mk.inj is
  exact ⟨_,_,Machine.reachable_run _ _ _ .initial started,ran,observed⟩

theorem following_handled : (followingRun 182 ConsensusSwitch.asking).map (fun states =>
    ((states.1.loops 0).handled.length,(states.2.loops 1).handled.length)) = some (1,1) := by
  decide +kernel

theorem runs_refine_following : ∃ first later : State, (first.loops 0).handled.length = 1 ∧
    (later.loops 1).handled.length = 1 ∧ first.log.Reachable ∧ Relation.ReflTransGen Log.Step first.log later.log ∧
    ∀ vnf, List.Forall₂ later.Window (later.log.history vnf) (later.loops vnf).handled := by
  obtain ⟨first,later,reached,ran,counts⟩ := following_runs 182 ConsensusSwitch.asking
    (fun first later => ((first.loops 0).handled.length,(later.loops 1).handled.length)) _ following_handled
  obtain ⟨leader,follower⟩ := Prod.mk.inj counts
  exact ⟨first,later,leader,follower,runs_refine ⟨2,2⟩ (by decide) _ first later _ reached ran⟩

/-- Whatever one manager has handled and another one has handled later agree as far as both go;
and no manager handles a request twice, or one that nobody made. -/
theorem managers_agree (net : Network) (few : net.numCtls ≤ 253) (now : Nat → Rat) (first later : State)
    (events : List Event) (reached : (system net now).Reachable first)
    (ran : (system net now).run first events = some later) (vnf other : Nat) :
    ((first.loops vnf).handled <+: (later.loops other).handled ∨
      (later.loops other).handled <+: (first.loops vnf).handled) ∧
    (later.log.history other).Nodup ∧ ∀ entry ∈ later.log.history other, entry ∈ later.log.asked := by
  have legal := Log.reachable_legal (reachable_log few now (Machine.reachable_run first later events reached ran))
  exact ⟨handled_agree few now first later events reached ran vnf other,Log.history_distinct legal other,
    fun entry member => legal.known entry (List.mem_of_mem_take member)⟩

theorem managers_agree_following : ∃ first later : State, (first.loops 0).handled.length = 1 ∧
    (later.loops 1).handled = (first.loops 0).handled := by
  obtain ⟨first,later,reached,ran,counts⟩ := following_runs 182 ConsensusSwitch.asking
    (fun first later => ((first.loops 0).handled.length,(later.loops 1).handled.length)) _ following_handled
  obtain ⟨leader,follower⟩ := Prod.mk.inj counts
  obtain ⟨agree,_⟩ := managers_agree ⟨2,2⟩ (by decide) _ first later _ reached ran 0 1
  refine ⟨first,later,leader,?_⟩
  rcases agree with ahead | behind
  · exact (ahead.eq_of_length (leader.trans follower.symm)).symm
  · exact behind.eq_of_length (follower.trans leader.symm)

end NfvConsensus.System
