import NfvConsensus.System
import NfvConsensus.RequestFraming
import NfvConsensus.LearnerStream

/-! What holds in every run of the system. The values submitted are the messages sent, the
managers read one window of 179 characters for each decided value, in the decided order,
and a manager's posts are what `handle_request` makes of the windows. -/
namespace NfvConsensus
open Python ClientPaxos Foundation.Framing Foundation.Transition Foundation.Windows

namespace Manager.Loop

/-- Each message handled has its result among those posted, but for a last one that raised. -/
structure Consistent (domain : List Int) (loop : Loop) : Prop where
  running : loop.stopped = false →
    List.Forall₂ (fun message post => handleRequest domain message = .ok post) loop.handled loop.posted
  ended : loop.stopped = true → ∃ front last error, loop.handled = front ++ [last] ∧
    List.Forall₂ (fun message post => handleRequest domain message = .ok post) front loop.posted ∧
    handleRequest domain last = .error error

theorem start_consistent (domain : List Int) (now : Rat) : Consistent domain (start now) where
  running _ := .nil
  ended stopped := by contradiction

theorem iterate_handled (domain : List Int) (loop : Loop) (message : Str) (tick : Tick) :
    (iterate domain loop message tick).handled = loop.handled ++ [message] := by
  cases handles : handleRequest domain message with
  | ok post => exact (iterate_ok domain loop message tick post handles).1
  | error error => rw [iterate_raises domain loop message tick error handles]

theorem iterate_consistent (domain : List Int) (loop : Loop) (message : Str) (tick : Tick)
    (consistent : loop.Consistent domain) (running : loop.stopped = false) :
    (iterate domain loop message tick).Consistent domain := by
  have results := consistent.running running
  cases handles : handleRequest domain message with
  | ok post =>
    obtain ⟨handled,posted,stopped⟩ := iterate_ok domain loop message tick post handles
    refine ⟨fun _ => ?_,fun ended => ?_⟩
    · rw [handled,posted]
      exact List.rel_append results (.cons handles .nil)
    · rw [stopped,running] at ended
      contradiction
  | error error =>
    rw [iterate_raises domain loop message tick error handles]
    refine ⟨fun still => by contradiction,fun _ => ?_⟩
    exact ⟨loop.handled,message,error,rfl,results,handles⟩

theorem Consistent.result {domain : List Int} {loop : Loop} (consistent : loop.Consistent domain) (k : Nat)
    (post : Option Post) (posted : loop.posted[k]? = some post) :
    ∃ message, loop.handled[k]? = some message ∧ handleRequest domain message = .ok post := by
  have aligned (messages : List Str) (results : List.Forall₂ (fun message post =>
      handleRequest domain message = .ok post) messages loop.posted) :
      ∃ message, messages[k]? = some message ∧ handleRequest domain message = .ok post := by
    obtain ⟨bound,is⟩ := List.getElem?_eq_some_iff.mp posted
    have inside : k < messages.length := by rw [results.length_eq]; exact bound
    have agree := List.forall₂_iff_get.mp results
    refine ⟨messages[k],List.getElem?_eq_getElem inside,?_⟩
    rw [← is]
    exact agree.2 k inside bound
  cases stopped : loop.stopped with
  | false => exact aligned _ (consistent.running stopped)
  | true =>
    obtain ⟨front,last,_,whole,results,_⟩ := consistent.ended stopped
    obtain ⟨message,found,handles⟩ := aligned front results
    refine ⟨message,?_,handles⟩
    rw [whole,List.getElem?_append_left (List.getElem?_eq_some_iff.mp found).1,found]

end Manager.Loop

namespace System

/-- What the learners write for the decided values. -/
def State.windows (state : State) : List Str :=
  state.decided.map fun i => ((state.client.submitted[i]?).map fun value => value.2.value.take 179).getD []

structure Sound (net : Network) (good : Nat → Request → Prop) (state : State) : Prop where
  requests : ∀ entry ∈ state.emitted, entry.1 < net.numCtls ∧ good entry.1 entry.2
  stream : ∃ arrivals, state.client = serve arrivals ∧ ∀ ctl, arrived arrivals ctl ++ state.wire ctl =
    (channel ctl state.emitted).flatMap fun request =>
      str (request.message (controllerHost ctl)).length ++ request.message (controllerHost ctl)
  distinct : state.decided.Nodup
  known : ∀ i ∈ state.decided, i < state.client.submitted.length
  behind : ∀ vnf, state.delivered vnf ≤ state.decided.length
  written : ∀ vnf, ∃ rest, (state.loops vnf).handled ++ rest = state.windows.take (state.delivered vnf) ∧
    state.unread vnf = rest.flatten
  consistent : ∀ vnf, (state.loops vnf).Consistent (net.hosts vnf)

section Messages
variable {net : Network} {good : Nat → Request → Prop}

theorem controllerHost_str (ctl : Nat) : controllerHost ctl = str (Network.ctlHostBase + ctl) :=
  Network.hostOf_address _

/-- The values of a connection are first messages of its controller. -/
theorem values_requested (arrivals : List (Arrival Nat)) (requests : List Request) (ctl : Nat) (rest : Str)
    (octet : Network.ctlHostBase + ctl < 256)
    (stream : arrived arrivals ctl ++ rest = requests.flatMap fun request =>
      str (request.message (controllerHost ctl)).length ++ request.message (controllerHost ctl)) :
    (channel ctl (serve arrivals).submitted).map ClientValue.value <+:
      requests.map fun request => request.message (controllerHost ctl) := by
  let sent (request : Request) : Sent := ⟨request,⟨Network.ctlHostBase + ctl,octet⟩⟩
  have text (request : Request) : (sent request).text = request.message (controllerHost ctl) := by
    rw [controllerHost_str]
    rfl
  have front : arrived arrivals ctl <+: (requests.map sent).flatMap Sent.bytes := by
    refine ⟨rest,stream.trans ?_⟩
    rw [List.flatMap_map]
    apply List.flatMap_congr
    intro request _
    rw [← text]
    rfl
  have values := submitted_texts _ arrivals ctl front
  rw [List.map_map] at values
  simpa only [Function.comp_def,text] using values

theorem Sound.texts {state : State} (sound : Sound net good state) (few : net.numCtls ≤ 253) (ctl : Nat) :
    (channel ctl state.client.submitted).map ClientValue.value <+:
      (channel ctl state.emitted).map fun request => request.message (controllerHost ctl) := by
  obtain ⟨arrivals,served,stream⟩ := sound.stream
  have own := stream ctl
  rw [served]
  by_cases inside : ctl < net.numCtls
  · have octet : Network.ctlHostBase + ctl < 256 := by
      simp only [Network.ctlHostBase]
      omega
    exact values_requested arrivals _ ctl _ octet own
  · -- a connection without requests has no values
    have none : channel ctl state.emitted = [] := by
      rw [List.eq_nil_iff_forall_not_mem]
      intro request member
      exact inside (sound.requests _ ((mem_channel _ _ _).mp member)).1
    rw [none,List.flatMap_nil,List.append_eq_nil_iff] at own
    rw [none]
    exact submitted_texts [] arrivals ctl (by rw [own.1]; exact List.nil_prefix)

/-- A value of a controller is the message of the request at its place. -/
theorem submitted_request (submitted : List (Nat × ClientValue)) (emitted : List (Nat × Request)) (i ctl : Nat)
    (value : ClientValue) (texts : (channel ctl submitted).map ClientValue.value <+:
      (channel ctl emitted).map fun request => request.message (controllerHost ctl))
    (entry : submitted[i]? = some (ctl,value)) :
    ∃ request, (channel ctl emitted)[(channel ctl (submitted.take i)).length]? = some request ∧
      value.value = request.message (controllerHost ctl) := by
  have placed := channel_index _ _ _ _ entry
  have value_at : ((channel ctl submitted).map ClientValue.value)[(channel ctl (submitted.take i)).length]? =
      some value.value := by
    rw [List.getElem?_map,placed,Option.map_some]
  obtain ⟨missing,whole⟩ := texts
  have bound := (List.getElem?_eq_some_iff.mp value_at).1
  have text_at : ((channel ctl emitted).map fun request => request.message (controllerHost ctl))[
      (channel ctl (submitted.take i)).length]? = some value.value := by
    rw [← whole,List.getElem?_append_left bound,value_at]
  rw [List.getElem?_map,Option.map_eq_some_iff] at text_at
  obtain ⟨request,found,is⟩ := text_at
  exact ⟨request,found,is.symm⟩

theorem Sound.submitted {state : State} (sound : Sound net good state) (few : net.numCtls ≤ 253) (i ctl : Nat)
    (value : ClientValue) (entry : state.client.submitted[i]? = some (ctl,value)) :
    ∃ request, (channel ctl state.emitted)[(channel ctl (state.client.submitted.take i)).length]? = some request ∧
      value.value = request.message (controllerHost ctl) ∧ ctl < net.numCtls ∧ good ctl request := by
  obtain ⟨request,found,text⟩ := submitted_request _ _ i ctl value (sound.texts few ctl) entry
  have member := (mem_channel _ _ _).mp (List.mem_of_getElem? found)
  exact ⟨request,found,text,sound.requests _ member⟩

theorem message_long (request : Request) (ctl : Nat) : 179 ≤ (request.message (controllerHost ctl)).length := by
  have ⟨inLow,_⟩ := Request.port_digits request.inPort
  have ⟨outLow,_⟩ := Request.port_digits request.outPort
  have host := Foundation.Text.decimal_length_pos (Network.ctlHostBase + ctl)
  rw [Request.message_length,controllerHost_str]
  simp only [str] at *
  omega

theorem Sound.window_sized {state : State} (sound : Sound net good state) (few : net.numCtls ≤ 253) :
    Uniform 179 state.windows := by
  intro window member
  obtain ⟨i,decided,rfl⟩ := List.mem_map.mp member
  obtain ⟨⟨ctl,value⟩,entry⟩ : ∃ entry, state.client.submitted[i]? = some entry :=
    ⟨_,List.getElem?_eq_getElem (sound.known i decided)⟩
  obtain ⟨request,_,text,_⟩ := sound.submitted few i ctl value entry
  have long := message_long request ctl
  rw [entry,Option.map_some,Option.getD_some,text,List.length_take_of_le long]

end Messages

section Steps
variable {net : Network} {good : Nat → Request → Prop}

theorem windows_front (before after : State) (decided : before.decided <+: after.decided)
    (kept : ∀ i ∈ before.decided, after.client.submitted[i]? = before.client.submitted[i]?) :
    before.windows <+: after.windows := by
  obtain ⟨more,whole⟩ := decided
  have same : before.windows = before.decided.map fun i =>
      ((after.client.submitted[i]?).map fun value => value.2.value.take 179).getD [] := by
    rw [State.windows,List.map_inj_left]
    intro i member
    rw [kept i member]
  rw [same,State.windows,← whole,List.map_append]
  exact List.prefix_append _ _

theorem written_kept (before after : State) (sound : Sound net good before) (decided : before.decided <+: after.decided)
    (kept : ∀ i ∈ before.decided, after.client.submitted[i]? = before.client.submitted[i]?)
    (delivered : after.delivered = before.delivered) (unread : after.unread = before.unread)
    (loops : after.loops = before.loops) :
    ∀ vnf, ∃ rest, (after.loops vnf).handled ++ rest = after.windows.take (after.delivered vnf) ∧
      after.unread vnf = rest.flatten := by
  intro vnf
  obtain ⟨rest,handled,left⟩ := sound.written vnf
  obtain ⟨more,whole⟩ := windows_front before after decided kept
  have bound : before.delivered vnf ≤ before.windows.length := by
    rw [State.windows,List.length_map]
    exact sound.behind vnf
  refine ⟨rest,?_,by rw [unread,left]⟩
  rw [loops,delivered,← whole,List.take_append_of_le_length bound]
  exact handled

/-- A step of one manager leaves what the others have to read as it was. -/
theorem written_at (before after : State) (sound : Sound net good before) (vnf : Nat) (windows : after.windows = before.windows)
    (elsewhere : ∀ other, other ≠ vnf → after.loops other = before.loops other ∧
      after.delivered other = before.delivered other ∧ after.unread other = before.unread other)
    (here : ∃ rest, (after.loops vnf).handled ++ rest = before.windows.take (after.delivered vnf) ∧
      after.unread vnf = rest.flatten) :
    ∀ other, ∃ rest, (after.loops other).handled ++ rest = after.windows.take (after.delivered other) ∧
      after.unread other = rest.flatten := by
  intro other
  rw [windows]
  by_cases same : other = vnf
  · subst same
    exact here
  · obtain ⟨loops,delivered,unread⟩ := elsewhere other same
    rw [loops,delivered,unread]
    exact sound.written other

theorem start_sound (now : Nat → Rat) : Sound net good (start now) where
  requests _ member := absurd member (List.not_mem_nil)
  stream := ⟨[],rfl,fun _ => rfl⟩
  distinct := List.nodup_nil
  known _ member := absurd member (List.not_mem_nil)
  behind _ := Nat.le_refl _
  written _ := ⟨[],rfl,rfl⟩
  consistent _ := Manager.Loop.start_consistent _ _

theorem sent_requests (host : Str) (macToPort : MacTable) (msg : PacketIn) :
    sentBytes (ConsensusSwitch.packetInHandler host macToPort msg).2 =
      (ConsensusSwitch.requested macToPort msg).toList.flatMap fun request =>
        str (request.message host).length ++ request.message host := by
  rw [ConsensusSwitch.packetInHandler_effects]
  cases ConsensusSwitch.requested macToPort msg with
  | none => rfl
  | some request => simp [sentBytes,ConsensusSwitch.writes]

theorem sent_wire (wire : Nat → Str) (macToPort : MacTable) (msg : PacketIn) (ctl other : Nat) :
    Function.update wire ctl (wire ctl ++ sentBytes (ConsensusSwitch.packetInHandler (controllerHost ctl) macToPort msg).2) other =
      wire other ++ (channel other ((ConsensusSwitch.requested macToPort msg).toList.map fun request => (ctl,request))).flatMap
        fun request => str (request.message (controllerHost other)).length ++ request.message (controllerHost other) := by
  by_cases same : other = ctl
  · subst same
    rw [Function.update_self,channel_same,sent_requests]
  · rw [Function.update_of_ne same,channel_other other ctl (Ne.symm same),List.flatMap_nil,List.append_nil]

/-- Bytes that arrive are no longer on the wire. -/
theorem arrived_wire (arrivals : List (Arrival Nat)) (wire : Nat → Str) (ctl count : Nat) (v : Str) (ambient : Nat → Ambient)
    (other : Nat) : arrived (arrivals ++ [⟨ctl,(wire ctl).take count,v,ambient⟩]) other ++
      Function.update wire ctl ((wire ctl).drop count) other = arrived arrivals other ++ wire other := by
  rw [arrived_append]
  by_cases same : ctl = other
  · subst same
    rw [if_pos rfl,Function.update_self,List.append_assoc,List.take_append_drop]
  · rw [if_neg same,Function.update_of_ne (Ne.symm same),List.append_nil]

theorem packetIn_sound (before after : State) (ctl : Nat) (msg : PacketIn) (sound : Sound net good before)
    (asks : Requests good before (.packetIn ctl msg)) (taken : step net before (.packetIn ctl msg) = some after) :
    Sound net good after := by
  simp only [step] at taken
  split at taken
  · rename_i inside
    obtain rfl := Option.some.inj taken
    refine { sound with requests := ?_,stream := ?_ }
    · intro entry member
      rcases List.mem_append.mp member with old | new
      · exact sound.requests entry old
      · obtain ⟨request,asked,rfl⟩ := List.mem_map.mp new
        exact ⟨inside,asks ctl msg request rfl (Option.mem_toList.mp asked)⟩
    · obtain ⟨arrivals,served,stream⟩ := sound.stream
      refine ⟨arrivals,served,fun other => ?_⟩
      dsimp only
      rw [sent_wire,← List.append_assoc,stream,channel_append,List.flatMap_append]
  · contradiction

theorem arrive_sound (before after : State) (ctl count : Nat) (v : Str) (ambient : Nat → Ambient)
    (sound : Sound net good before) (taken : step net before (.arrive ctl count v ambient) = some after) :
    Sound net good after := by
  simp only [step] at taken
  split at taken
  · obtain rfl := Option.some.inj taken
    have grown : ∀ i ∈ before.decided,
        (onRecvValue before.client ⟨ctl,(before.wire ctl).take count,v,ambient⟩).submitted[i]? =
          before.client.submitted[i]? := fun i member => List.getElem?_append_left (sound.known i member)
    refine { sound with stream := ?_,known := ?_,written := ?_ }
    · obtain ⟨arrivals,served,stream⟩ := sound.stream
      refine ⟨arrivals ++ [⟨ctl,(before.wire ctl).take count,v,ambient⟩],by rw [served,serve_append],fun other => ?_⟩
      exact (arrived_wire arrivals before.wire ctl count v ambient other).trans (stream other)
    · intro i member
      rw [onRecvValue,List.length_append]
      exact Nat.lt_of_lt_of_le (sound.known i member) (Nat.le_add_right _ _)
    · exact written_kept before _ sound List.prefix_rfl grown rfl rfl rfl
  · contradiction

theorem decide_sound (before after : State) (i : Nat) (sound : Sound net good before)
    (taken : step net before (.decide i) = some after) : Sound net good after := by
  simp only [step] at taken
  split at taken
  · rename_i enabled
    obtain ⟨submitted,fresh⟩ := enabled
    obtain rfl := Option.some.inj taken
    refine { sound with distinct := ?_,known := ?_,behind := ?_,written := ?_ }
    · exact List.nodup_append_comm.mp (List.nodup_cons.mpr ⟨fresh,sound.distinct⟩)
    · intro k member
      rcases List.mem_append.mp member with old | new
      · exact sound.known k old
      · rw [List.mem_singleton.mp new]
        exact submitted
    · intro vnf
      rw [List.length_append]
      exact Nat.le_trans (sound.behind vnf) (Nat.le_add_right _ _)
    · exact written_kept before _ sound (List.prefix_append _ _) (fun _ _ => rfl) rfl rfl rfl
  · contradiction

/-- What a learner writes next is the window of the next value. -/
theorem Sound.next {state : State} (sound : Sound net good state) (few : net.numCtls ≤ 253) (vnf : Nat) (behind : Str)
    (ctl : Nat) (value : ClientValue) (found : state.value (state.delivered vnf) = some (ctl,value)) :
    state.delivered vnf < state.decided.length ∧
      state.windows[state.delivered vnf]? = some (LearnerPaxos.deliver value behind) := by
  obtain ⟨i,decided,entry⟩ := Option.bind_eq_some_iff.mp found
  obtain ⟨request,_,text,_⟩ := sound.submitted few i ctl value entry
  have long := message_long request ctl
  have window : LearnerPaxos.deliver value behind = value.value.take 179 := by
    rw [LearnerPaxos.deliver,LearnerPaxos.submitManager,text,List.take_append_of_le_length long]
  refine ⟨(List.getElem?_eq_some_iff.mp decided).1,?_⟩
  rw [window,State.windows,List.getElem?_map,decided,Option.map_some,entry,Option.map_some,Option.getD_some]

theorem deliver_sound (before after : State) (few : net.numCtls ≤ 253) (vnf : Nat) (behind : Str)
    (sound : Sound net good before) (taken : step net before (.deliver vnf behind) = some after) :
    Sound net good after := by
  simp only [step] at taken
  split at taken
  · rename_i ctl value found
    split at taken
    · obtain rfl := Option.some.inj taken
      obtain ⟨within,next⟩ := sound.next few vnf behind ctl value found
      refine { sound with behind := ?_,written := ?_ }
      · exact (Function.forall_update_iff before.delivered fun _ count => count ≤ before.decided.length).mpr
          ⟨within,fun other _ => sound.behind other⟩
      · obtain ⟨rest,handled,unread⟩ := sound.written vnf
        apply written_at before _ sound vnf
        · rfl
        · intro other different
          exact ⟨rfl,Function.update_of_ne different _ _,Function.update_of_ne different _ _⟩
        · dsimp only
          refine ⟨rest ++ [LearnerPaxos.deliver value behind],?_,?_⟩
          · rw [← List.append_assoc,handled,Function.update_self,List.take_add_one,next,Option.toList_some]
          · rw [Function.update_self,unread,List.flatten_append,List.flatten_singleton]
    · contradiction
  · contradiction

theorem Sound.unread_sized {state : State} (sound : Sound net good state) (few : net.numCtls ≤ 253) (vnf : Nat)
    (rest : List Str) (handled : (state.loops vnf).handled ++ rest = state.windows.take (state.delivered vnf)) :
    Uniform 179 rest := by
  intro window member
  apply sound.window_sized few
  apply List.mem_of_mem_take (i := state.delivered vnf)
  rw [← handled]
  exact List.mem_append_right _ member

theorem recv_sound (before after : State) (few : net.numCtls ≤ 253) (vnf : Nat) (tick : Manager.Tick)
    (sound : Sound net good before) (taken : step net before (.recv vnf tick) = some after) :
    Sound net good after := by
  simp only [step] at taken
  split at taken
  · rename_i enabled
    obtain ⟨_,running,available⟩ := enabled
    obtain rfl := Option.some.inj taken
    refine { sound with written := ?_,consistent := ?_ }
    · obtain ⟨rest,handled,unread⟩ := sound.written vnf
      have sized := sound.unread_sized few vnf rest handled
      apply written_at before _ sound vnf
      · rfl
      · intro other different
        exact ⟨Function.update_of_ne different _ _,rfl,Function.update_of_ne different _ _⟩
      · dsimp only
        rw [Function.update_self,Function.update_self,Manager.Loop.iterate_handled]
        cases rest with
        | nil =>
          rw [unread] at available
          contradiction
        | cons window rest =>
          have size := sized window (by simp)
          rw [unread,List.flatten_cons,List.take_left' size,List.drop_left' size]
          exact ⟨rest,(List.append_assoc ..).trans handled,rfl⟩
    · exact (Function.forall_update_iff before.loops fun other loop => loop.Consistent (net.hosts other)).mpr
        ⟨Manager.Loop.iterate_consistent _ _ _ _ (sound.consistent vnf) running,fun other _ => sound.consistent other⟩
  · contradiction

theorem step_sound (few : net.numCtls ≤ 253) (before after : State) (event : Event) (sound : Sound net good before)
    (asks : Requests good before event) (taken : step net before event = some after) : Sound net good after := by
  cases event with
  | packetIn ctl msg => exact packetIn_sound before after ctl msg sound asks taken
  | arrive ctl count v ambient => exact arrive_sound before after ctl count v ambient sound taken
  | decide i => exact decide_sound before after i sound taken
  | deliver vnf behind => exact deliver_sound before after few vnf behind sound taken
  | recv vnf tick => exact recv_sound before after few vnf tick sound taken

theorem reached_sound (few : net.numCtls ≤ 253) (now : Nat → Rat) {state : State}
    (reached : (system net now).Reached (Requests good) state) : Sound net good state :=
  reached.invariant (start_sound now) fun before after event sound asks taken =>
    step_sound few before after event sound asks taken

end Steps
end System
end NfvConsensus
