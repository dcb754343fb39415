import NfvConsensus.Agreement
import NfvConsensus.Foundation.Related

/-! Where the managers stop. A rule that is too long for the window makes `handle_request` raise
in whichever manager reads it, so the first one decided ends the loops of all of them. -/
namespace NfvConsensus
open Python ClientPaxos Foundation.Framing Foundation.Transition Foundation.ReplicatedLog Foundation.Related

namespace Manager

def Raises (domain : List Int) (message : Str) : Prop := ∃ error, handleRequest domain message = .error error

/-- Whether `handle_request` raises on a window depends on its rule alone. -/
theorem window_raises (request : Request) (host : Nat) (octet : host < 1000) (domain : List Int) :
    Raises domain ((request.message (str host)).take 179) ↔ ¬request.Short := by
  constructor
  · rintro ⟨error,raises⟩ short
    rw [window_short request short host octet,handleRequest_message] at raises
    contradiction
  · intro long
    exact window_long request long (str host) domain

namespace Loop

theorem results_returned {domain : List Int} {messages : List Str} {posts : List (Option Post)}
    (results : List.Forall₂ (fun message post => handleRequest domain message = .ok post) messages posts) (message : Str)
    (member : message ∈ messages) : ¬Raises domain message := by
  rintro ⟨error,raises⟩
  induction results with
  | nil => contradiction
  | cons returns _ ih =>
    rcases List.mem_cons.mp member with rfl | later
    · rw [returns] at raises
      contradiction
    · exact ih later

theorem Consistent.last {domain : List Int} {loop : Loop} (consistent : loop.Consistent domain) (k : Nat) (message : Str)
    (handled : loop.handled[k]? = some message) (raises : Raises domain message) : loop.handled.length = k + 1 := by
  have bound := (List.getElem?_eq_some_iff.mp handled).1
  cases stopped : loop.stopped with
  | false =>
    have returned := results_returned (consistent.running stopped) message (List.mem_of_getElem? handled)
    exact absurd raises returned
  | true =>
    obtain ⟨front,last,_,whole,results,_⟩ := consistent.ended stopped
    rw [whole,List.length_append,List.length_singleton] at bound ⊢
    by_contra earlier
    rw [whole,List.getElem?_append_left (by omega)] at handled
    exact results_returned results message (List.mem_of_getElem? handled) raises

theorem Consistent.stopped_iff {domain : List Int} {loop : Loop} (consistent : loop.Consistent domain) :
    loop.stopped = true ↔ ∃ last, loop.handled.getLast? = some last ∧ Raises domain last := by
  constructor
  · intro stopped
    obtain ⟨front,last,error,whole,_,raises⟩ := consistent.ended stopped
    exact ⟨last,by rw [whole,List.getLast?_concat],error,raises⟩
  · rintro ⟨last,is_last,raises⟩
    cases stopped : loop.stopped with
    | true => rfl
    | false => exact absurd raises (results_returned (consistent.running stopped) last (List.mem_of_getLast? is_last))

end Loop
end Manager

namespace System

/-- The entry is a request with a rule that does not fit. -/
def State.Long (state : State) (entry : Nat × Nat) : Prop :=
  ∃ request, (channel entry.1 state.emitted)[entry.2]? = some request ∧ ¬request.Short

section Stopping
variable {net : Network} {good : Nat → Request → Prop} {state : State}

theorem Sound.window_long (sound : Sound net good state) (few : net.numCtls ≤ 253) (entry : Nat × Nat) (message : Str)
    (window : state.Window entry message) (domain : List Int) : Manager.Raises domain message ↔ state.Long entry := by
  obtain ⟨request,placed,rfl⟩ := window
  have inside := (sound.requests _ ((mem_channel _ _ _).mp (List.mem_of_getElem? placed))).1
  have octet : Network.ctlHostBase + entry.1 < 1000 := by
    simp only [Network.ctlHostBase]
    omega
  rw [controllerHost_str,Manager.window_raises request _ octet]
  constructor
  · exact fun long => ⟨request,placed,long⟩
  · rintro ⟨same,again,long⟩
    obtain rfl : request = same := Option.some.inj (placed.symm.trans again)
    exact long

/-- No two managers disagree on whether a message that one of them has handled raises. -/
theorem Sound.handled_raises (sound : Sound net good state) (few : net.numCtls ≤ 253) (vnf : Nat) (message : Str)
    (handled : message ∈ (state.loops vnf).handled) (domain other : List Int) :
    Manager.Raises domain message ↔ Manager.Raises other message := by
  obtain ⟨k,found⟩ := List.mem_iff_getElem?.mp handled
  obtain ⟨entry,_,window⟩ := related_left (sound.handled_history few vnf) k message found
  rw [sound.window_long few entry message window domain,sound.window_long few entry message window other]

theorem Sound.stopped_long (sound : Sound net good state) (few : net.numCtls ≤ 253) (vnf : Nat) :
    (state.loops vnf).stopped = true ↔ ∃ entry, (state.log.history vnf).getLast? = some entry ∧ state.Long entry := by
  have related := sound.handled_history few vnf
  rw [(sound.consistent vnf).stopped_iff,List.getLast?_eq_getElem?,List.getLast?_eq_getElem?,related.length_eq]
  constructor
  · rintro ⟨last,found,raises⟩
    obtain ⟨entry,applied,window⟩ := related_left related _ last found
    exact ⟨entry,applied,(sound.window_long few entry last window _).mp raises⟩
  · rintro ⟨entry,applied,long⟩
    obtain ⟨last,found,window⟩ := related_right related _ entry applied
    exact ⟨last,found,(sound.window_long few entry last window _).mpr long⟩

theorem Sound.long_last (sound : Sound net good state) (few : net.numCtls ≤ 253) (vnf k : Nat) (entry : Nat × Nat)
    (applied : (state.log.history vnf)[k]? = some entry) (long : state.Long entry) :
    (state.log.history vnf).length = k + 1 := by
  have related := sound.handled_history few vnf
  obtain ⟨message,found,window⟩ := related_right related k entry applied
  have raises := (sound.window_long few entry message window (net.hosts vnf)).mpr long
  rw [related.length_eq]
  exact (sound.consistent vnf).last k message found raises

end Stopping

/-- A manager has stopped exactly when the last entry it has applied is a rule too long for the
window, and no manager goes on past such an entry. -/
theorem stopped_iff_long (net : Network) (few : net.numCtls ≤ 253) (now : Nat → Rat) (state : State)
    (reached : (system net now).Reachable state) (vnf : Nat) :
    ((state.loops vnf).stopped = true ↔ ∃ entry, (state.log.history vnf).getLast? = some entry ∧ state.Long entry) ∧
      ∀ k entry, (state.log.history vnf)[k]? = some entry → state.Long entry → (state.log.history vnf).length = k + 1 := by
  have sound := reachable_sound few now reached
  exact ⟨sound.stopped_long few vnf,sound.long_last few vnf⟩

theorem following_stopped : (followingRun 183 (ConsensusSwitch.samplePacket 10 Request.sample.dst ConsensusSwitch.otherMac)).map
    (fun states => ((states.1.loops 0).stopped,(states.2.loops 1).handled.length)) = some (true,1) := by
  decide +kernel

theorem stopped_iff_long_ten : ∃ (state : State) (entry : Nat × Nat), (state.loops 0).stopped = true ∧
    (state.log.history 0).getLast? = some entry ∧ state.Long entry := by
  obtain ⟨first,_,reached,_,facts⟩ := following_runs 183 _
    (fun first later => ((first.loops 0).stopped,(later.loops 1).handled.length)) _ following_stopped
  have stopped := (Prod.mk.inj facts).1
  obtain ⟨entry,last,long⟩ := (stopped_iff_long ⟨2,2⟩ (by decide) _ first reached 0).1.mp stopped
  exact ⟨first,entry,stopped,last,long⟩

/-- Once a manager has stopped, no other one ever handles more than it has; and one that handles
as much stops too. -/
theorem managers_stop_together (net : Network) (few : net.numCtls ≤ 253) (now : Nat → Rat) (first later : State)
    (events : List Event) (reached : (system net now).Reachable first)
    (ran : (system net now).run first events = some later) (vnf other : Nat)
    (stopped : (first.loops vnf).stopped = true) :
    (later.loops other).handled <+: (first.loops vnf).handled ∧
      ((later.loops other).stopped = true ↔ (later.loops other).handled = (first.loops vnf).handled) := by
  have sound := reachable_sound few now reached
  have after := reachable_sound few now (Machine.reachable_run first later events reached ran)
  have agree := handled_agree few now first later events reached ran vnf other
  obtain ⟨last,is_last,raises⟩ := (sound.consistent vnf).stopped_iff.mp stopped
  have elsewhere := (sound.handled_raises few vnf last (List.mem_of_getLast? is_last) _ (net.hosts other)).mp raises
  have bounded : (later.loops other).handled <+: (first.loops vnf).handled := by
    rcases agree with ahead | behind
    · -- the last message of the stopped manager raises in the other one too
      rw [List.getLast?_eq_getElem?] at is_last
      have bound := (List.getElem?_eq_some_iff.mp is_last).1
      have last_there := (after.consistent other).last _ last (begun_at ahead is_last) elsewhere
      rw [ahead.eq_of_length (by omega)]
    · exact behind
  refine ⟨bounded,?_⟩
  rw [(after.consistent other).stopped_iff]
  constructor
  · rintro ⟨message,found,other_raises⟩
    have member := List.mem_of_getLast? found
    have here := (after.handled_raises few other message member _ (net.hosts vnf)).mp other_raises
    rw [List.getLast?_eq_getElem?] at found
    have bound := (List.getElem?_eq_some_iff.mp found).1
    have last_here := (sound.consistent vnf).last _ message (begun_at bounded found) here
    exact bounded.eq_of_length (by omega)
  · intro same
    rw [same]
    exact ⟨last,is_last,elsewhere⟩

theorem managers_stop_together_ten : ∃ first later : State, (first.loops 0).stopped = true ∧
    (later.loops 1).handled <+: (first.loops 0).handled := by
  obtain ⟨first,later,reached,ran,facts⟩ := following_runs 183 _
    (fun first later => ((first.loops 0).stopped,(later.loops 1).handled.length)) _ following_stopped
  have stopped := (Prod.mk.inj facts).1
  exact ⟨first,later,stopped,(managers_stop_together ⟨2,2⟩ (by decide) _ first later _ reached ran 0 1 stopped).1⟩

end System
end NfvConsensus
