import NfvConsensus.Agreement
import NfvConsensus.ExtractSafety

/-! `client_submit_value` copies with `strcpy`, and no message of a controller has a terminator.
So a copy ends where the array `v` of `extract_data`, which is not initialised, happens to hold
one; and where it holds none, the copy runs out of the array it writes. -/
namespace NfvConsensus.ClientPaxos
open Python Foundation.Text Foundation.Framing Foundation.Transition

theorem strcpy_length (dst src : Str) :
    (strcpy dst src).length = max dst.length ((src.takeWhile (· ≠ '\x00')).length + 1) := by
  simp only [strcpy,List.length_append,List.length_cons,List.length_drop]
  omega

theorem terminated_iff (string behind : Str) :
    ((string ++ behind).takeWhile (· ≠ '\x00')).length < string.length ↔ '\x00' ∈ string := by
  rw [List.takeWhile_append]
  split
  · rename_i full
    have all := List.takeWhile_eq_self_iff.mp ((List.takeWhile_prefix _).eq_of_length full)
    rw [List.length_append]
    constructor
    · intro short
      omega
    · intro terminated
      have other := all _ terminated
      contradiction
  · rename_i short
    have within : (string.takeWhile (· ≠ '\x00')).length ≤ string.length := (List.takeWhile_prefix _).length_le
    constructor
    · intro _
      by_contra absent
      refine short (congrArg List.length (List.takeWhile_eq_self_iff.mpr fun c member => ?_))
      have other : c ≠ '\x00' := fun equal => absent (equal ▸ member)
      simpa using other
    · intro _
      omega

/-- The call of `client_submit_value` writes only into the array of its own value, whatever
its memory holds. -/
def Call.Bounded (call : Call) : Prop :=
  ∀ ambient : Ambient, ambient.v.length = MAX_VALUE_SIZE →
    (clientSubmitValue ambient call.string call.len).value.length = MAX_VALUE_SIZE

theorem Call.bounded_iff (call : Call) (array : call.string.length = MAX_VALUE_SIZE) :
    call.Bounded ↔ '\x00' ∈ call.string := by
  have copied (ambient : Ambient) (size : ambient.v.length = MAX_VALUE_SIZE) :
      (clientSubmitValue ambient call.string call.len).value.length = MAX_VALUE_SIZE ↔ '\x00' ∈ call.string := by
    have length := strcpy_length ambient.v (call.string ++ ambient.behind)
    rw [← terminated_iff call.string ambient.behind]
    change (strcpy ambient.v (call.string ++ ambient.behind)).length = _ ↔ _
    omega
  constructor
  · intro bounded
    let ambient : Ambient := ⟨⟨0,0⟩,List.replicate MAX_VALUE_SIZE '\x00',[]⟩
    have size : ambient.v.length = MAX_VALUE_SIZE := List.length_replicate
    exact (copied ambient size).mp (bounded ambient size)
  · intro terminated ambient size
    exact (copied ambient size).mpr terminated

/-- Each payload is written over the array as the call before it left it. -/
inductive Overwrites : Str → List Call → Prop
  | done (v : Str) : Overwrites v []
  | next (v : Str) (call : Call) (calls : List Call) (written : call.string = overwrite v call.payload)
      (later : Overwrites call.string calls) : Overwrites v (call :: calls)

theorem extractData_overwrites (v input : Str) : Overwrites v (extractData v input input.length).1 := by
  fun_induction requestFormat.decode input generalizing v with
  | case1 input ready _ rest ih =>
    obtain ⟨wide,fits⟩ := ready
    have wide : 3 ≤ input.length := wide
    have fits : sizeT (atoi (input.take 3)) ≤ input.length - 3 := fits
    have left : (requestFormat.after input).length = input.length - 3 - sizeT (atoi (input.take 3)) := by
      simp only [Format.after,Format.head,List.length_drop]
      rfl
    have full : ((input.drop 3).take (sizeT (atoi (input.take 3)))).length = sizeT (atoi (input.take 3)) :=
      List.length_take_of_le (by simpa using fits)
    rw [extractData,extractLoop]
    simp only [wide,fits,dif_pos,if_true]
    have later := ih (List.take (sizeT (atoi (input.take 3))) (input.drop 3) ++ v.drop (sizeT (atoi (input.take 3))))
    rw [left] at later
    refine .next v _ _ ?_ later
    rw [Call.payload,List.take_left' full,overwrite,full]
  | case2 input unready =>
    have stuck := extractLoop_stuck v input input.length unready
    rw [extractData,stuck]
    exact .done v

theorem overwrite_length (v bytes : Str) (fits : bytes.length ≤ v.length) : (overwrite v bytes).length = v.length := by
  rw [overwrite,List.length_append,List.length_drop]
  omega

theorem Overwrites.lengths {v : Str} {calls : List Call} (overwrites : Overwrites v calls)
    (fits : ∀ call ∈ calls, call.payload.length ≤ v.length) : ∀ call ∈ calls, call.string.length = v.length := by
  induction overwrites with
  | done v => exact List.forall_mem_nil _
  | next v call calls written later ih =>
    obtain ⟨fit,fits⟩ := List.forall_mem_cons.mp fits
    have same : call.string.length = v.length := by rw [written,overwrite_length v _ fit]
    rw [same] at ih
    exact List.forall_mem_cons.mpr ⟨same,ih fits⟩

/-- What lies behind place `n` of an array after a text without terminators is written over it. -/
theorem overwrite_drop (v text : Str) (plain : '\x00' ∉ text) (n : Nat) :
    '\x00' ∈ (overwrite v text).drop n ↔ '\x00' ∈ v.drop (max text.length n) := by
  have absent : '\x00' ∉ text.drop n := fun member => plain (List.mem_of_mem_drop member)
  have reach : text.length + (n - text.length) = max text.length n := by omega
  rw [overwrite,List.drop_append,List.mem_append,List.drop_drop,reach]
  exact or_iff_right absent

/-- Texts without terminators leave the terminators that were behind the longest of them. -/
theorem Overwrites.terminated_iff {v : Str} {calls : List Call} (overwrites : Overwrites v calls)
    (plain : ∀ call ∈ calls, '\x00' ∉ call.payload) :
    (∀ call ∈ calls, '\x00' ∈ call.string) ↔ ∀ call ∈ calls, '\x00' ∈ v.drop call.payload.length := by
  induction overwrites with
  | done v => exact iff_of_true (List.forall_mem_nil _) (List.forall_mem_nil _)
  | next v call calls written later ih =>
    obtain ⟨unterminated,plain⟩ := List.forall_mem_cons.mp plain
    have first : '\x00' ∈ call.string ↔ '\x00' ∈ v.drop call.payload.length := by
      have whole := overwrite_drop v call.payload unterminated 0
      rwa [List.drop_zero,Nat.max_zero,← written] at whole
    rw [List.forall_mem_cons,List.forall_mem_cons,first,ih plain]
    apply and_congr_right
    intro own
    apply forall₂_congr
    intro other _
    rw [written,overwrite_drop v call.payload unterminated]
    -- of two places the farther one is one of them
    rcases Nat.le_total call.payload.length other.payload.length with less | less
    · rw [Nat.max_eq_right less]
    · rw [Nat.max_eq_left less]
      exact iff_of_true own (List.drop_subset_drop_left v less own)

end NfvConsensus.ClientPaxos

namespace NfvConsensus.System
open Python ClientPaxos Foundation.Framing Foundation.Transition

section Copies
variable {net : Network} {good : Nat → Request → Prop} {state : State}

theorem Sound.framed (sound : Sound net good state) (few : net.numCtls ≤ 253) (ctl : Nat) :
    ∃ (arrivals : List (Arrival Nat)) (sent : List Sent), state.client = serve arrivals ∧
      arrived arrivals ctl ++ state.wire ctl = sent.flatMap Sent.bytes := by
  obtain ⟨arrivals,served,stream⟩ := sound.stream
  have own := stream ctl
  by_cases inside : ctl < net.numCtls
  · have octet : Network.ctlHostBase + ctl < 256 := by
      simp only [Network.ctlHostBase]
      omega
    refine ⟨arrivals,(channel ctl state.emitted).map fun request => ⟨request,⟨_,octet⟩⟩,served,?_⟩
    rw [own,controllerHost_str,List.flatMap_map]
    rfl
  · rw [sound.channel_outside ctl (Nat.le_of_not_lt inside)] at own
    exact ⟨arrivals,[],served,own⟩

theorem Sound.payloads (sound : Sound net good state) (few : net.numCtls ≤ 253) (ctl : Nat) (call : Call)
    (made : (ctl,call) ∈ state.client.calls) : '\x00' ∉ call.payload ∧ call.payload.length ≤ MAX_VALUE_SIZE := by
  obtain ⟨arrivals,sent,served,stream⟩ := sound.framed few ctl
  obtain ⟨n,taken,_⟩ := taken_prefix sent arrivals ctl ⟨_,stream⟩
  have handed := congrArg (List.map Prod.fst) (calls_handed sent _ n taken)
  simp only [List.map_map,Function.comp_def] at handed
  rw [served] at made
  have member := List.mem_map_of_mem (f := Call.payload) ((mem_channel _ _ _).mpr made)
  rw [handed] at member
  obtain ⟨message,_,is⟩ := List.mem_map.mp member
  have inHigh := (Request.port_digits message.request.inPort).2
  have outHigh := (Request.port_digits message.request.outPort).2
  have host := octet_digits message.host message.host.isLt
  have size := message.request.message_length (str message.host)
  rw [← is]
  refine ⟨message_no_nul message.request message.host,?_⟩
  rw [Sent.text,MAX_VALUE_SIZE]
  omega

/-- The calls of `client_submit_value` that the callback for an arrival makes. -/
def State.calling (state : State) (ctl count : Nat) (v : Str) : List Call :=
  let buffered := state.client.input ctl ++ (state.wire ctl).take count
  (extractData v buffered buffered.length).1

theorem Sound.calling_bounded (few : net.numCtls ≤ 253) (after : State) (sound : Sound net Any state) (ctl count : Nat)
    (v : Str) (ambient : Nat → Ambient) (taken : step net state (.arrive ctl count v ambient) = some after)
    (array : v.length = MAX_VALUE_SIZE) : (∀ call ∈ state.calling ctl count v, call.Bounded) ↔
      ∀ call ∈ state.calling ctl count v, '\x00' ∈ v.drop call.payload.length := by
  have next : Sound net Any after := any_preserved few (fun _ => 0) state after (.arrive ctl count v ambient) sound taken
  have plain (call : Call) (member : call ∈ state.calling ctl count v) :
      '\x00' ∉ call.payload ∧ call.payload.length ≤ v.length := by
    rw [array]
    apply next.payloads few ctl call
    cases (step_iff net state after _).mp taken with
    | arrive _ _ _ _ positive present => exact List.mem_append_right _ (List.mem_map_of_mem member)
  have overwrites : Overwrites v (state.calling ctl count v) := extractData_overwrites v _
  have lengths := overwrites.lengths fun call member => (plain call member).2
  rw [← overwrites.terminated_iff fun call member => (plain call member).1]
  apply forall₂_congr
  intro call member
  exact call.bounded_iff ((lengths call member).trans array)

end Copies

/-- Of the bytes of an arrival, the copies of all calls stay within their arrays if and only if
the array `v` held a terminator behind the end of the longest payload. -/
theorem copies_bounded_iff (net : Network) (few : net.numCtls ≤ 253) (now : Nat → Rat) (state after : State)
    (reached : (system net now).Reachable state) (ctl count : Nat) (v : Str) (ambient : Nat → Ambient)
    (taken : step net state (.arrive ctl count v ambient) = some after) (array : v.length = MAX_VALUE_SIZE) :
    (∀ call ∈ state.calling ctl count v, call.Bounded) ↔
      ∀ call ∈ state.calling ctl count v, '\x00' ∈ v.drop call.payload.length :=
  (reachable_sound few now reached).calling_bounded few after ctl count v ambient taken array

def filled (c : Char) : Str := List.replicate MAX_VALUE_SIZE c

theorem filled_length (c : Char) : (filled c).length = MAX_VALUE_SIZE := List.length_replicate

theorem filled_terminated : '\x00' ∈ (filled '\x00').drop 179 := by
  rw [filled,List.drop_replicate]
  exact List.mem_replicate.mpr ⟨by decide,rfl⟩

def askedRun : Option State :=
  (system ⟨1,1⟩ fun _ => 0).run (start fun _ => 0)
    [.packetIn 0 ConsensusSwitch.teaching,.packetIn 0 ConsensusSwitch.asking]

theorem asked_calling : askedRun.map (fun state => ((state.wire 0).length,
    (state.calling 0 182 (filled '\x00')).map (fun call => call.payload.length),
    (state.calling 0 182 (filled 'x')).map fun call => call.payload.length)) = some (182,[179],[179]) := by
  decide +kernel

/-- The copy of the sample request is bounded where the array held zeros, but not where it held letters. -/
theorem copies_bounded_sample : ∃ state, (system ⟨1,1⟩ fun _ => 0).Reachable state ∧
    (∀ call ∈ state.calling 0 182 (filled '\x00'), call.Bounded) ∧
      ¬∀ call ∈ state.calling 0 182 (filled 'x'), call.Bounded := by
  obtain ⟨state,ran,facts⟩ := Option.map_eq_some_iff.mp asked_calling
  obtain ⟨wire,facts⟩ := Prod.mk.inj facts
  obtain ⟨zeros,letters⟩ := Prod.mk.inj facts
  have reached := Machine.reachable_run _ state _ .initial ran
  have exact_when (c : Char) : (∀ call ∈ state.calling 0 182 (filled c), call.Bounded) ↔
      ∀ call ∈ state.calling 0 182 (filled c), '\x00' ∈ (filled c).drop call.payload.length :=
    copies_bounded_iff ⟨1,1⟩ (by decide) _ state _ reached 0 182 (filled c) sampleAmbient
      (if_pos ⟨by decide,Nat.le_of_eq wire.symm⟩) (filled_length c)
  refine ⟨state,reached,(exact_when '\x00').mpr ?_,fun bounded => ?_⟩
  · intro call member
    have size : call.payload.length ∈ [179] := zeros ▸ List.mem_map_of_mem member
    rw [List.mem_singleton.mp size]
    exact filled_terminated
  · have size : 179 ∈ (state.calling 0 182 (filled 'x')).map fun call => call.payload.length := by
      rw [letters]
      exact List.mem_singleton_self 179
    obtain ⟨call,member,is⟩ := List.mem_map.mp size
    have terminated := (exact_when 'x').mp bounded call member
    rw [is,filled,List.drop_replicate] at terminated
    exact absurd (List.mem_replicate.mp terminated).2 (by decide)

end NfvConsensus.System
