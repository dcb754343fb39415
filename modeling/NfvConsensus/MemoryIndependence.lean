import NfvConsensus.CopyBounds

/-! What lies in memory that no program has written. The client copies from and into arrays it
has not initialised, and the learner writes 179 bytes from wherever a value stands; none of
it ever reaches another process. -/
namespace NfvConsensus.System
open Python ClientPaxos Foundation.Framing Foundation.Transition

/-- The same step of the system, whatever is found in memory. -/
inductive SameInput : Event → Event → Prop
  | packetIn (ctl : Nat) (msg : PacketIn) : SameInput (.packetIn ctl msg) (.packetIn ctl msg)
  | arrive (ctl count : Nat) (v other : Str) (ambient found : Nat → Ambient) :
      SameInput (.arrive ctl count v ambient) (.arrive ctl count other found)
  | decide (i : Nat) : SameInput (.decide i) (.decide i)
  | deliver (vnf : Nat) (behind other : Str) : SameInput (.deliver vnf behind) (.deliver vnf other)
  | recv (vnf : Nat) (tick : Manager.Tick) : SameInput (.recv vnf tick) (.recv vnf tick)

/-- What is seen of the submitted values: their connections and their texts. -/
def State.texts (state : State) : List (Nat × Str) :=
  state.client.submitted.map fun value => (value.1,value.2.value)

structure Alike (first second : State) : Prop where
  tables : second.tables = first.tables
  wire : second.wire = first.wire
  emitted : second.emitted = first.emitted
  input : second.client.input = first.client.input
  senders : second.client.submitted.map Prod.fst = first.client.submitted.map Prod.fst
  decided : second.decided = first.decided
  delivered : second.delivered = first.delivered
  unread : second.unread = first.unread
  loops : second.loops = first.loops

section Memory
variable {net : Network} {good : Nat → Request → Prop} {first second : State}

theorem channel_senders {β γ : Type} (log : List (Nat × β)) (other : List (Nat × γ))
    (senders : other.map Prod.fst = log.map Prod.fst) (ctl i : Nat) :
    (channel ctl (other.take i)).length = (channel ctl (log.take i)).length := by
  rw [channel_count,channel_count,List.map_take,List.map_take,senders]

/-- A submitted text is the message that its place on its connection calls for. -/
theorem Alike.texts (alike : Alike first second) (few : net.numCtls ≤ 253) (sound : Sound net good first)
    (sound_second : Sound net good second) : second.texts = first.texts := by
  have counted := congrArg List.length alike.senders
  rw [List.length_map,List.length_map] at counted
  apply List.ext_getElem
  · rw [State.texts,State.texts,List.length_map,List.length_map,counted]
  · intro i left right
    rw [State.texts,List.length_map] at left right
    have sender : (second.client.submitted.map Prod.fst)[i]? = (first.client.submitted.map Prod.fst)[i]? := by
      rw [alike.senders]
    rw [List.getElem?_map,List.getElem?_map,List.getElem?_eq_getElem left,List.getElem?_eq_getElem right,
      Option.map_some,Option.map_some] at sender
    have same := Option.some.inj sender
    obtain ⟨request,placed,text,_⟩ := sound.submitted few i first.client.submitted[i].1
      first.client.submitted[i].2 (List.getElem?_eq_getElem right)
    obtain ⟨other,placed_second,text_second,_⟩ := sound_second.submitted few i
      second.client.submitted[i].1 second.client.submitted[i].2 (List.getElem?_eq_getElem left)
    rw [alike.emitted,same,channel_senders _ _ alike.senders] at placed_second
    obtain rfl : request = other := Option.some.inj (placed.symm.trans placed_second)
    simp only [State.texts,List.getElem_map]
    rw [text,text_second,same]

theorem windows_texts (state : State) : state.windows = state.decided.map fun i =>
    ((state.texts[i]?).map fun text => text.2.take 179).getD [] := by
  rw [State.windows,List.map_inj_left]
  intro i _
  rw [State.texts,List.getElem?_map,Option.map_map]
  rfl

theorem onRecvValue_senders (client : Client Nat) (arrival : Arrival Nat) :
    (onRecvValue client arrival).submitted.map Prod.fst = client.submitted.map Prod.fst ++
      List.replicate (requestFormat.decode (client.input arrival.conn ++ arrival.bytes)).1.length arrival.conn := by
  have calls := (extractData_decode arrival.v (client.input arrival.conn ++ arrival.bytes)).1.length_eq
  rw [onRecvValue,List.map_append,List.map_map,← calls]
  congr 1
  rw [List.eq_replicate_iff]
  constructor
  · simp only [List.length_map,submitCalls,List.length_zipIdx]
  · intro sender member
    obtain ⟨_,_,rfl⟩ := List.mem_map.mp member
    rfl

theorem onRecvValue_input (client : Client Nat) (arrival : Arrival Nat) :
    (onRecvValue client arrival).input = Function.update client.input arrival.conn
      (requestFormat.decode (client.input arrival.conn ++ arrival.bytes)).2 := by
  rw [onRecvValue,(extractData_decode arrival.v (client.input arrival.conn ++ arrival.bytes)).2]

theorem step_alike (few : net.numCtls ≤ 253) (after : State) (event other : Event) (sound : Sound net Any first)
    (sound_second : Sound net Any second) (alike : Alike first second) (same : SameInput event other)
    (taken : step net first event = some after) : ∃ answer, step net second other = some answer ∧ Alike after answer := by
  have texts := alike.texts few sound sound_second
  cases same with
  | packetIn ctl msg =>
    cases (step_iff net first after _).mp taken with
    | packetIn _ _ inside =>
      refine ⟨_,(step_iff net second _ _).mpr (.packetIn ctl msg inside),?_⟩
      exact { alike with
        tables := by simp only [alike.tables]
        wire := by simp only [alike.wire,alike.tables]
        emitted := by simp only [alike.emitted,alike.tables] }
  | arrive ctl count v v' ambient found =>
    cases (step_iff net first after _).mp taken with
    | arrive _ _ _ _ positive present =>
      rw [← alike.wire] at present
      refine ⟨_,(step_iff net second _ _).mpr (.arrive ctl count v' found positive present),?_⟩
      exact { alike with
        wire := by simp only [alike.wire]
        input := by simp only [onRecvValue_input,alike.input,alike.wire]
        senders := by simp only [onRecvValue_senders,alike.senders,alike.input,alike.wire] }
  | decide i =>
    cases (step_iff net first after _).mp taken with
    | decide _ submitted fresh =>
      have counted := congrArg List.length alike.senders
      rw [List.length_map,List.length_map] at counted
      rw [← counted] at submitted
      rw [← alike.decided] at fresh
      refine ⟨_,(step_iff net second _ _).mpr (.decide i submitted fresh),?_⟩
      exact { alike with decided := by simp only [alike.decided] }
  | deliver vnf behind behind' =>
    cases (step_iff net first after _).mp taken with
    | deliver _ _ ctl value next up =>
      obtain ⟨within,window⟩ := sound.next few vnf behind ctl value next
      rw [← alike.delivered,← alike.decided] at within
      have known := sound_second.known _ (List.getElem_mem within)
      obtain ⟨entry,next_second⟩ : ∃ entry, second.value (second.delivered vnf) = some entry := by
        rw [State.value,List.getElem?_eq_getElem within,Option.bind_some,List.getElem?_eq_getElem known]
        exact ⟨_,rfl⟩
      obtain ⟨_,window_second⟩ := sound_second.next few vnf behind' entry.1 entry.2 next_second
      -- both learners write the window of the same text
      have windows : second.windows = first.windows := by
        rw [windows_texts,windows_texts,texts,alike.decided]
      rw [windows,alike.delivered,window] at window_second
      have written := Option.some.inj window_second
      refine ⟨_,(step_iff net second _ _).mpr (.deliver vnf behind' entry.1 entry.2 next_second up),?_⟩
      exact { alike with
        delivered := by simp only [alike.delivered]
        unread := by simp only [alike.unread,written] }
  | recv vnf tick =>
    cases (step_iff net first after _).mp taken with
    | recv _ _ up running available =>
      rw [← alike.loops] at running
      rw [← alike.unread] at available
      refine ⟨_,(step_iff net second _ _).mpr (.recv vnf tick up running available),?_⟩
      exact { alike with
        unread := by simp only [alike.unread]
        loops := by simp only [alike.unread,alike.loops] }

/-- The array that an arrival finds holds a terminator behind the payload of each call. -/
def Terminated (state : State) (event : Event) : Prop :=
  ∀ ctl count v ambient, event = .arrive ctl count v ambient → v.length = MAX_VALUE_SIZE ∧
    ∀ call ∈ state.calling ctl count v, '\x00' ∈ v.drop call.payload.length

def Confined (state : State) : Prop := ∀ made ∈ state.client.calls, made.2.Bounded

theorem step_confined (few : net.numCtls ≤ 253) (after : State) (event : Event) (sound : Sound net Any first)
    (confined : Confined first) (terminated : Terminated first event) (taken : step net first event = some after) :
    Confined after := by
  have steps := (step_iff net first after event).mp taken
  cases steps with
  | arrive ctl count v ambient positive present =>
    obtain ⟨array,behind⟩ := terminated ctl count v ambient rfl
    have bounded := (sound.calling_bounded few _ ctl count v ambient taken array).mpr behind
    intro made member
    rcases List.mem_append.mp member with old | new
    · exact confined made old
    · obtain ⟨call,calling,rfl⟩ := List.mem_map.mp new
      exact bounded call calling
  | packetIn ctl msg inside => exact confined
  | decide i submitted fresh => exact confined
  | deliver vnf behind ctl value next up => exact confined
  | recv vnf tick up running available => exact confined

theorem run_confined (few : net.numCtls ≤ 253) (now : Nat → Rat) (events : List Event) (state : State)
    (ran : (system net now).run (start now) events = some state)
    (terminated : (system net now).Admitted Terminated (start now) events) : Confined state := by
  have reached := Machine.reached_run (start now) state events .initial ran terminated
  have both : Sound net Any state ∧ Confined state := by
    apply reached.invariant
    · exact ⟨start_sound now,fun _ member => absurd member List.not_mem_nil⟩
    · rintro before after event ⟨sound,confined⟩ terminated taken
      exact ⟨any_preserved few now before after event sound taken,
        step_confined few after event sound confined terminated taken⟩
  exact both.2

end Memory

/-- Where the arrays happen to hold a terminator behind each payload, no copy leaves its array.
Whatever else the programs find in memory they have not written, the system can take the same
steps, and then what the switches know, what is sent, submitted, decided and delivered, and
what the managers handle and post are the same. -/
theorem memory_unseen (net : Network) (few : net.numCtls ≤ 253) (now : Nat → Rat) (events others : List Event)
    (same : List.Forall₂ SameInput events others) (state : State)
    (ran : (system net now).run (start now) events = some state)
    (terminated : (system net now).Admitted Terminated (start now) events)
    (terminated_other : (system net now).Admitted Terminated (start now) others) :
    ∃ other, (system net now).run (start now) others = some other ∧ (Confined state ∧ Confined other) ∧
      Alike state other ∧ other.texts = state.texts := by
  have begin_alike : Alike (start now) (start now) := ⟨rfl,rfl,rfl,rfl,rfl,rfl,rfl,rfl,rfl⟩
  obtain ⟨other,ran_other,alike⟩ := Machine.matched_run (any_preserved few now)
    (fun first second after event other sound sound_second alike pair taken =>
      step_alike few after event other sound sound_second alike pair taken)
    (start now) (start now) state events others (start_sound now) (start_sound now) begin_alike same ran
  have sound := reachable_sound few now (Machine.reachable_run _ state events .initial ran)
  have sound_other := reachable_sound few now (Machine.reachable_run _ other others .initial ran_other)
  exact ⟨other,ran_other,⟨run_confined few now events state ran terminated,
    run_confined few now others other ran_other terminated_other⟩,alike,alike.texts few sound sound_other⟩

-- One request, with zeros in all arrays, and with other characters up to the end of the array.
def memoryEvents (v : Str) (ambient : Nat → Ambient) (behind : Str) : List Event := [
  .packetIn 0 ConsensusSwitch.teaching,.packetIn 0 ConsensusSwitch.asking] ++ [
  .arrive 0 182 v ambient,.decide 0,.deliver 0 behind,.recv 0 ⟨1,[]⟩]

def stray : Str := List.replicate 8191 '7' ++ ['\x00']

theorem stray_length : stray.length = MAX_VALUE_SIZE := by
  rw [stray,List.length_append,List.length_replicate]
  rfl

theorem stray_terminated : '\x00' ∈ stray.drop 179 := by
  rw [stray,List.drop_append_of_le_length (by rw [List.length_replicate]; decide)]
  exact List.mem_append_right _ (List.mem_singleton_self _)

def zeroEvents : List Event := memoryEvents (filled '\x00') (fun _ => ⟨⟨0,0⟩,filled '\x00',[]⟩) []

def strayEvents : List Event := memoryEvents stray (fun _ => ⟨⟨1,5⟩,filled '#',['9','\x00']⟩) ['#','9']

theorem memory_calling : askedRun.map (fun state => ((state.calling 0 182 (filled '\x00')).map (fun call =>
    call.payload.length),(state.calling 0 182 stray).map fun call => call.payload.length)) = some ([179],[179]) := by
  decide +kernel

theorem zero_posted : ((system ⟨1,1⟩ fun _ => 0).run (start fun _ => 0) zeroEvents).map (fun state => (state.loops 0).posted) =
    some [some ⟨Manager.url 2,Request.sample.rule⟩] := by
  decide +kernel

theorem memory_terminated (v : Str) (ambient : Nat → Ambient) (behind : Str) (array : v.length = MAX_VALUE_SIZE)
    (terminator : '\x00' ∈ v.drop 179) (state : State) (ran : askedRun = some state)
    (calling : (state.calling 0 182 v).map (fun call => call.payload.length) = [179]) :
    (system ⟨1,1⟩ fun _ => 0).Admitted Terminated (start fun _ => 0) (memoryEvents v ambient behind) := by
  apply Machine.Admitted.append _ state _ _ _ ran
  · refine ⟨?_,fun next _ => Machine.Admitted.always next _ fun state event member => ?_⟩
    · intro ctl count w found is
      obtain ⟨rfl,rfl,rfl,rfl⟩ := Event.arrive.inj is
      refine ⟨array,fun call member => ?_⟩
      have size : call.payload.length ∈ [179] := calling ▸ List.mem_map_of_mem member
      rw [List.mem_singleton.mp size]
      exact terminator
    · intro ctl count w found is
      subst is
      simp at member
  · apply Machine.Admitted.always
    intro state event member ctl count w found is
    subst is
    simp at member

theorem memory_unseen_stray : ∃ state other, (system ⟨1,1⟩ fun _ => 0).run (start fun _ => 0) zeroEvents = some state ∧
    (system ⟨1,1⟩ fun _ => 0).run (start fun _ => 0) strayEvents = some other ∧ Confined other ∧
    (other.loops 0).posted = [some ⟨Manager.url 2,Request.sample.rule⟩] := by
  obtain ⟨state,ran,posted⟩ := Option.map_eq_some_iff.mp zero_posted
  obtain ⟨asked,ran_asked,facts⟩ := Option.map_eq_some_iff.mp memory_calling
  obtain ⟨zeros,others⟩ := Prod.mk.inj facts
  have same : List.Forall₂ SameInput zeroEvents strayEvents :=
    .cons (.packetIn _ _) (.cons (.packetIn _ _) (.cons (.arrive _ _ _ _ _ _) (.cons (.decide _)
      (.cons (.deliver _ _ _) (.cons (.recv _ _) .nil)))))
  have terminated := memory_terminated (filled '\x00') (fun _ => ⟨⟨0,0⟩,filled '\x00',[]⟩) [] (filled_length _)
    filled_terminated asked ran_asked zeros
  have terminated_other := memory_terminated stray (fun _ => ⟨⟨1,5⟩,filled '#',['9','\x00']⟩) ['#','9'] stray_length
    stray_terminated asked ran_asked others
  obtain ⟨other,ran_other,confined,alike,_⟩ := memory_unseen ⟨1,1⟩ (by decide) _ _ strayEvents same state ran terminated
    terminated_other
  refine ⟨state,other,ran,ran_other,confined.2,?_⟩
  rw [alike.loops,posted]

end NfvConsensus.System
