import NfvConsensus.Stopping
import Mathlib.Algebra.Order.BigOperators.Group.Finset

/-! What becomes of the requests once no more packets come in. Every run of the other steps is
bounded by what is still on its way, and where none of them is enabled every request has been
decided once and every manager has stopped or handled all of them. -/
namespace NfvConsensus

namespace ClientPaxos
open Python Foundation.Framing

theorem arrived_all {κ : Type} [DecidableEq κ] (arrivals : List (Arrival κ)) (k : κ) (requests : List Request) (host : Fin 256)
    (whole : arrived arrivals k = requests.flatMap fun request =>
      str (request.message (str host)).length ++ request.message (str host)) :
    (channel k (serve arrivals).submitted).length = requests.length := by
  have bytes : arrived arrivals k = (requests.map fun request => (⟨request,host⟩ : Sent)).flatMap Sent.bytes := by
    rw [List.flatMap_map]
    exact whole
  obtain ⟨n,calls,complete⟩ := taken_prefix _ arrivals k ⟨[],(List.append_nil _).trans bytes⟩
  have counted := calls.length_eq
  rw [(complete bytes).1,List.length_map,List.length_map] at counted
  rw [(channel_related (serve_refines arrivals).submitted k).length_eq,counted]

end ClientPaxos

namespace System
open Python ClientPaxos Foundation.Framing Foundation.Transition Foundation.ReplicatedLog

def Onward (_state : State) (event : Event) : Prop := ∀ ctl msg, event ≠ .packetIn ctl msg

def Settled (net : Network) (state : State) : Prop := ∀ event, Onward state event → step net state event = none

/-- What is on its way: bytes to the client, requests to a decision, and decisions to the
learners and the managers. -/
def State.pending (net : Network) (state : State) : Nat :=
  ∑ ctl ∈ Finset.range net.numCtls,(state.wire ctl).length +
    (state.emitted.length - state.decided.length) +
    ∑ vnf ∈ Finset.range net.numVnfs,
      ((state.emitted.length - state.delivered vnf) + (state.emitted.length - (state.loops vnf).handled.length))

section Counts
variable {net : Network} {good : Nat → Request → Prop} {state : State}

theorem Sound.wire_inside (sound : Sound net good state) (ctl : Nat) (outside : net.numCtls ≤ ctl) : state.wire ctl = [] := by
  obtain ⟨arrivals,_,stream⟩ := sound.stream
  have own := stream ctl
  rw [sound.channel_outside ctl outside,List.flatMap_nil,List.append_eq_nil_iff] at own
  exact own.2

theorem Sound.channel_behind (sound : Sound net good state) (few : net.numCtls ≤ 253) (ctl : Nat) :
    (channel ctl state.client.submitted).length ≤ (channel ctl state.emitted).length := by
  have shorter := (sound.texts few ctl).length_le
  rwa [List.length_map,List.length_map] at shorter

theorem Sound.submitted_behind (sound : Sound net good state) (few : net.numCtls ≤ 253) :
    state.client.submitted.length ≤ state.emitted.length :=
  channels_length _ _ fun ctl => sound.channel_behind few ctl

theorem Sound.decided_behind (sound : Sound net good state) : state.decided.length ≤ state.client.submitted.length := by
  have sub : state.decided.Subperm (List.range state.client.submitted.length) :=
    sound.distinct.subperm fun i member => List.mem_range.mpr (sound.known i member)
  have shorter := sub.length_le
  rwa [List.length_range] at shorter

theorem Sound.fresh_behind (sound : Sound net good state) (i : Nat) (submitted : i < state.client.submitted.length)
    (fresh : i ∉ state.decided) : state.decided.length < state.client.submitted.length := by
  have distinct : (i :: state.decided).Nodup := List.nodup_cons.mpr ⟨fresh,sound.distinct⟩
  have sub : (i :: state.decided).Subperm (List.range state.client.submitted.length) := by
    apply distinct.subperm
    intro k member
    rcases List.mem_cons.mp member with rfl | old
    · exact List.mem_range.mpr submitted
    · exact List.mem_range.mpr (sound.known k old)
  have shorter := sub.length_le
  rwa [List.length_range,List.length_cons] at shorter

/-- All requests of a controller have been submitted once nothing is left on its connection. -/
theorem Sound.channel_submitted (sound : Sound net good state) (few : net.numCtls ≤ 253) (ctl : Nat)
    (quiet : state.wire ctl = []) :
    (channel ctl state.client.submitted).length = (channel ctl state.emitted).length := by
  rcases Nat.lt_or_ge ctl net.numCtls with inside | outside
  · obtain ⟨arrivals,served,stream⟩ := sound.stream
    have own := stream ctl
    have octet : Network.ctlHostBase + ctl < 256 := by
      simp only [Network.ctlHostBase]
      omega
    rw [quiet,List.append_nil,controllerHost_str] at own
    rw [served]
    exact arrived_all arrivals ctl _ ⟨Network.ctlHostBase + ctl,octet⟩ own
  · have behind := sound.channel_behind few ctl
    rw [sound.channel_outside ctl outside] at behind ⊢
    exact Nat.le_zero.mp behind

end Counts

theorem sum_lowered {β : Type} (f : Nat → β) (amount : Nat → β → Nat) (count place : Nat) (value : β) (inside : place < count)
    (less : amount place value < amount place (f place)) :
    ∑ other ∈ Finset.range count,amount other (Function.update f place value other) <
      ∑ other ∈ Finset.range count,amount other (f other) := by
  apply Finset.sum_lt_sum
  · intro other _
    by_cases same : other = place
    · subst same
      rw [Function.update_self]
      exact Nat.le_of_lt less
    · rw [Function.update_of_ne same]
  · refine ⟨place,Finset.mem_range.mpr inside,?_⟩
    rwa [Function.update_self]

section Settling
variable {net : Network} {good : Nat → Request → Prop} {state : State}

theorem onward_lowers (few : net.numCtls ≤ 253) (before after : State) (event : Event) (sound : Sound net Any before)
    (onward : Onward before event) (taken : step net before event = some after) :
    after.pending net < before.pending net := by
  have submitted := sound.submitted_behind few
  have decided := sound.decided_behind
  cases (step_iff net before after event).mp taken with
  | packetIn ctl msg inside => exact absurd rfl (onward ctl msg)
  | arrive ctl count v ambient positive present =>
    have inside : ctl < net.numCtls := by
      by_contra outside
      rw [sound.wire_inside ctl (Nat.le_of_not_lt outside),List.length_nil] at present
      omega
    have fewer := sum_lowered before.wire (fun _ bytes => bytes.length) net.numCtls ctl ((before.wire ctl).drop count) inside
      (by rw [List.length_drop]; omega)
    simp only [State.pending]
    omega
  | decide i known fresh =>
    have behind := sound.fresh_behind i known fresh
    simp only [State.pending,List.length_append,List.length_singleton]
    omega
  | deliver vnf behind ctl value next up =>
    have within := (sound.next few vnf behind ctl value next).1
    have fewer := sum_lowered before.delivered (fun other delivered => (before.emitted.length - delivered) +
      (before.emitted.length - (before.loops other).handled.length)) net.numVnfs vnf (before.delivered vnf + 1) up.1
      (by omega)
    simp only [State.pending]
    omega
  | recv vnf tick up running available =>
    have behind := sound.unread_behind vnf available
    have fewer := sum_lowered before.loops (fun other loop => (before.emitted.length - before.delivered other) +
      (before.emitted.length - loop.handled.length)) net.numVnfs vnf
      (Manager.iterate (net.hosts vnf) (before.loops vnf) ((before.unread vnf).take 179) tick) up.1
      (by rw [Manager.Loop.iterate_handled,List.length_append,List.length_singleton]; omega)
    simp only [State.pending]
    omega

theorem Settled.quiet (settled : Settled net state) (ctl : Nat) : state.wire ctl = [] := by
  by_contra waiting
  have present := List.length_pos_iff.mpr waiting
  have refused := settled (.arrive ctl 1 [] sampleAmbient) fun _ _ same => by contradiction
  have taken := (step_iff net state _ _).mpr (.arrive ctl 1 [] sampleAmbient (Nat.le_refl 1) present)
  rw [refused] at taken
  contradiction

theorem Settled.decided (settled : Settled net state) (i : Nat) (submitted : i < state.client.submitted.length) :
    i ∈ state.decided := by
  by_contra fresh
  have refused := settled (.decide i) fun _ _ same => by contradiction
  have taken := (step_iff net state _ _).mpr (.decide i submitted fresh)
  rw [refused] at taken
  contradiction

theorem Settled.delivered (settled : Settled net state) (sound : Sound net good state) (vnf : Nat) (up : Up net vnf) :
    state.delivered vnf = state.decided.length := by
  by_contra short
  have behind := sound.behind vnf
  have bound : state.delivered vnf < state.decided.length := by omega
  have known := sound.known _ (List.getElem_mem bound)
  have next : state.value (state.delivered vnf) = some state.client.submitted[state.decided[state.delivered vnf]] := by
    rw [State.value,List.getElem?_eq_getElem bound,Option.bind_some,List.getElem?_eq_getElem known]
  have refused := settled (.deliver vnf []) fun _ _ same => by contradiction
  have taken := (step_iff net state _ _).mpr (.deliver vnf [] _ _ next up)
  rw [refused] at taken
  contradiction

theorem Settled.drained (settled : Settled net state) (few : net.numCtls ≤ 253) (sound : Sound net good state) (vnf : Nat)
    (up : Up net vnf) (running : (state.loops vnf).stopped = false) : state.unread vnf = [] := by
  by_contra waiting
  have available := sound.available few vnf waiting
  have refused := settled (.recv vnf ⟨0,[]⟩) fun _ _ same => by contradiction
  have taken := (step_iff net state _ _).mpr (.recv vnf ⟨0,[]⟩ up running available)
  rw [refused] at taken
  contradiction

theorem Settled.asked_decided (settled : Settled net state) (few : net.numCtls ≤ 253) (sound : Sound net good state)
    (entry : Nat × Nat) (asked : entry ∈ state.log.asked) : entry ∈ state.log.decided := by
  obtain ⟨ctl,j⟩ := entry
  have inside : j < (channel ctl state.client.submitted).length := by
    rw [sound.channel_submitted few ctl (settled.quiet ctl)]
    exact asked
  obtain ⟨i,value,found,place⟩ := channel_found _ ctl j inside
  have decided := settled.decided i (List.getElem?_eq_some_iff.mp found).1
  refine List.mem_filterMap.mpr ⟨i,decided,?_⟩
  rw [State.place,found,Option.map_some,place]

theorem Settled.applied (settled : Settled net state) (few : net.numCtls ≤ 253) (sound : Sound net good state) (vnf : Nat)
    (up : Up net vnf) (running : (state.loops vnf).stopped = false) : state.log.history vnf = state.log.decided := by
  have drained := settled.drained few sound vnf up running
  have all := sound.drained few vnf (settled.delivered sound vnf up) drained
  have counted : (state.loops vnf).handled.length = state.log.decided.length := by
    rw [all,State.windows,List.length_map,sound.decided_length]
  rw [Log.history]
  exact List.take_of_length_le (Nat.le_of_eq counted.symm)

theorem settled_later (few : net.numCtls ≤ 253) (now : Nat → Rat) (state : State) (sound : Sound net Any state) :
    ∃ events later, (system net now).run state events = some later ∧
      (system net now).Admitted Onward state events ∧ Settled net later :=
  Machine.settling_run (State.pending net) (any_preserved few now) (onward_lowers few) state sound

end Settling

/-- However the bytes arrive and the values are decided, without packet-ins the system goes on
for as many steps at most as are pending, and it can always go on to a settled state. -/
theorem runs_settle (net : Network) (few : net.numCtls ≤ 253) (now : Nat → Rat) (state : State)
    (reached : (system net now).Reachable state) :
    (∀ events later, (system net now).run state events = some later →
      (system net now).Admitted Onward state events → later.pending net + events.length ≤ state.pending net) ∧
    ∃ events later, (system net now).run state events = some later ∧
      (system net now).Admitted Onward state events ∧ Settled net later := by
  have sound := reachable_sound few now reached
  refine ⟨fun events later ran onward => ?_,settled_later few now state sound⟩
  exact Machine.run_bounded (State.pending net) (any_preserved few now) (onward_lowers few) state later events sound
    ran onward

/-- Two packet-ins, of which the second one asks for a rule. -/
def waitingRun : Option State := (system ⟨2,2⟩ fun _ => 0).run (start fun _ => 0)
  [.packetIn 0 ConsensusSwitch.teaching,.packetIn 0 ConsensusSwitch.asking]

theorem waiting_pending : waitingRun.map (fun state => (state.pending ⟨2,2⟩,state.emitted)) = some (187,[(0,Request.sample)]) := by
  decide +kernel

theorem runs_settle_waiting : ∃ state, waitingRun = some state ∧
    (∀ events later, (system ⟨2,2⟩ fun _ => 0).run state events = some later →
      (system ⟨2,2⟩ fun _ => 0).Admitted Onward state events → later.pending ⟨2,2⟩ + events.length ≤ 187) ∧
    ∃ events later, (system ⟨2,2⟩ fun _ => 0).run state events = some later ∧
      (system ⟨2,2⟩ fun _ => 0).Admitted Onward state events ∧ Settled ⟨2,2⟩ later ∧ (0,0) ∈ later.log.decided := by
  obtain ⟨state,ran,facts⟩ := Option.map_eq_some_iff.mp waiting_pending
  obtain ⟨pending,emitted⟩ := Prod.mk.inj facts
  have few : (⟨2,2⟩ : Network).numCtls ≤ 253 := by decide
  have reached := Machine.reachable_run _ state _ .initial ran
  obtain ⟨bounded,events,later,onward,admitted,settled⟩ := runs_settle ⟨2,2⟩ few _ state reached
  refine ⟨state,ran,fun events later onward admitted => ?_,events,later,onward,admitted,settled,?_⟩
  · have bound := bounded events later onward admitted
    omega
  · have made : (0,Request.sample) ∈ later.emitted :=
      (run_emitted _ state later events onward).subset (emitted ▸ List.mem_singleton_self _)
    have asked : (0,0) ∈ later.log.asked := List.length_pos_of_mem ((mem_channel 0 later.emitted Request.sample).mpr made)
    have sound := reachable_sound few _ (Machine.reachable_run state later events reached onward)
    exact settled.asked_decided few sound (0,0) asked

/-- Once the system has settled, every request made has been decided exactly once, and every
manager that is up has stopped or has applied all of them. -/
theorem settled_complete (net : Network) (few : net.numCtls ≤ 253) (now : Nat → Rat) (state : State)
    (reached : (system net now).Reachable state) (settled : Settled net state) :
    (∀ entry ∈ state.log.asked, state.log.decided.count entry = 1) ∧
    (∀ ctl, (channel ctl state.client.submitted).length = (channel ctl state.emitted).length) ∧
    ∀ vnf, Up net vnf → ((state.loops vnf).stopped = true ↔ ∃ entry ∈ state.log.decided, state.Long entry) ∧
      ((state.loops vnf).stopped = false → state.log.history vnf = state.log.decided) := by
  have sound := reachable_sound few now reached
  have legal := Log.reachable_legal (reachable_log few now reached)
  refine ⟨?_,fun ctl => sound.channel_submitted few ctl (settled.quiet ctl),fun vnf up => ?_⟩
  · intro entry asked
    exact List.count_eq_one_of_mem legal.distinct (settled.asked_decided few sound entry asked)
  · have applied := settled.applied few sound vnf up
    refine ⟨?_,applied⟩
    rw [sound.stopped_long few vnf]
    constructor
    · rintro ⟨entry,last,long⟩
      exact ⟨entry,List.mem_of_mem_take (List.mem_of_getLast? last),long⟩
    · rintro ⟨entry,decided,long⟩
      by_contra unstopped
      have running : (state.loops vnf).stopped = false := by
        rw [← Bool.not_eq_true,sound.stopped_long few vnf]
        exact unstopped
      -- a manager that has applied the whole log has applied the long entry, as its last
      rw [← applied running] at decided
      obtain ⟨k,found⟩ := List.mem_iff_getElem?.mp decided
      have length := sound.long_last few vnf k entry found long
      refine unstopped ⟨entry,?_,long⟩
      rw [List.getLast?_eq_getElem?,length,Nat.add_sub_cancel,found]

theorem settled_complete_sample : ∃ first later : State, (first.loops 0).posted.length = 1 ∧
    ∀ entry ∈ later.log.asked, later.log.decided.count entry = 1 := by
  obtain ⟨first,ran,posts⟩ := Option.map_eq_some_iff.mp sample_delivered
  have reached := Machine.reachable_run _ first _ .initial ran
  obtain ⟨events,later,onward,_,settled⟩ := settled_later (by decide) _ first (reachable_sound (by decide) _ reached)
  have posted : (first.loops 0).posted.length = 1 := congrArg List.length posts
  exact ⟨first,later,posted,(settled_complete ⟨1,1⟩ (by decide) _ later
    (Machine.reachable_run first later events reached onward) settled).1⟩

end System
end NfvConsensus
