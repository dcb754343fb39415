import NfvConsensus.RuleText
import NfvConsensus.SimpleSwitch
import NfvConsensus.Foundation.EventLoop
import Mathlib.Data.List.Forall2

/-! The two switches side by side. On a packet that both of them handle they learn the
same and forward the same, and one asks for a rule where the other adds a flow; but
only the plain switch ignores LLDP packets. -/
namespace NfvConsensus
open Python Foundation.EventLoop

/-- A switch that handles one packet-in after the other. -/
abbrev runHandler (handler : MacTable → PacketIn → MacTable × List Effect) (macToPort : MacTable) (events : List PacketIn) :
    MacTable × List (List Effect) :=
  Foundation.EventLoop.run handler macToPort events

namespace SwitchEquivalence

def packetOuts (effects : List Effect) : List PacketOut :=
  effects.filterMap fun effect => match effect with
    | .packetOut out => some out
    | _ => none

def sends (effects : List Effect) : List Str :=
  effects.filterMap fun effect => match effect with
    | .send text => some text
    | _ => none

def flowMods (effects : List Effect) : List FlowMod :=
  effects.filterMap fun effect => match effect with
    | .flowMod mod => some mod
    | _ => none

/-- At one event, a rule request stands against a flow with the same ports and destination,
or there is neither. -/
def SameRule (host : Str) (consensus simple : List Effect) : Prop :=
  (sends consensus = [] ∧ flowMods simple = []) ∨
    ∃ (request : Request) (mod : FlowMod),
      sends consensus = [str (request.message host).length,request.message host] ∧ flowMods simple = [mod] ∧
        mod.command = OFPFC_ADD ∧ mod.ofpMatch.inPort = request.inPort ∧ mod.ofpMatch.dlDst = request.dst ∧
        mod.actions = [request.outPort]

/-- Both switches, started with empty tables, do the same on these events. -/
structure Agree (host : Str) (events : List PacketIn) : Prop where
  table : (runHandler (ConsensusSwitch.packetInHandler host) ∅ events).1 =
    (runHandler SimpleSwitch.packetInHandler ∅ events).1
  packetOuts : packetOuts (runHandler (ConsensusSwitch.packetInHandler host) ∅ events).2.flatten =
    packetOuts (runHandler SimpleSwitch.packetInHandler ∅ events).2.flatten
  rules : List.Forall₂ (SameRule host) (runHandler (ConsensusSwitch.packetInHandler host) ∅ events).2
    (runHandler SimpleSwitch.packetInHandler ∅ events).2

open ConsensusSwitch in
theorem simple_effects (macToPort : MacTable) (msg : PacketIn) (handled : msg.eth.ethertype ≠ ETH_TYPE_LLDP) :
    SimpleSwitch.packetInHandler macToPort msg =
      (learned macToPort msg,
        (requested macToPort msg).toList.map (fun request =>
          .flowMod (SimpleSwitch.addFlow msg.datapath msg.inPort msg.eth.dst msg.eth.src [request.outPort])) ++
          [.packetOut (msg.reply (target macToPort msg))]) := by
  have shape : SimpleSwitch.packetInHandler macToPort msg =
      if msg.eth.ethertype = ETH_TYPE_LLDP then (macToPort,[])
      else (learned macToPort msg,
        (if target macToPort msg ≠ OFPP_FLOOD then
          [.flowMod (SimpleSwitch.addFlow msg.datapath msg.inPort msg.eth.dst msg.eth.src [target macToPort msg])]
        else []) ++ [.packetOut (msg.reply (target macToPort msg))]) := rfl
  rw [shape,if_neg handled,requested]
  by_cases known : target macToPort msg ≠ OFPP_FLOOD
  · rw [if_pos known,if_pos known]
    rfl
  · rw [if_neg known,if_neg known]
    rfl

theorem consensus_packetOuts (host : Str) (macToPort : MacTable) (msg : PacketIn) :
    packetOuts (ConsensusSwitch.packetInHandler host macToPort msg).2 =
      [msg.reply (ConsensusSwitch.target macToPort msg)] := by
  rw [ConsensusSwitch.packetInHandler_effects]
  cases ConsensusSwitch.requested macToPort msg <;> rfl

theorem simple_ignores (macToPort : MacTable) (msg : PacketIn) (lldp : msg.eth.ethertype = ETH_TYPE_LLDP) :
    SimpleSwitch.packetInHandler macToPort msg = (macToPort,[]) := by
  simp [SimpleSwitch.packetInHandler,lldp]

theorem handlers_agree (host : Str) (macToPort : MacTable) (msg : PacketIn) (handled : msg.eth.ethertype ≠ ETH_TYPE_LLDP) :
    (ConsensusSwitch.packetInHandler host macToPort msg).1 = (SimpleSwitch.packetInHandler macToPort msg).1 ∧
      packetOuts (ConsensusSwitch.packetInHandler host macToPort msg).2 =
        packetOuts (SimpleSwitch.packetInHandler macToPort msg).2 ∧
      SameRule host (ConsensusSwitch.packetInHandler host macToPort msg).2 (SimpleSwitch.packetInHandler macToPort msg).2 := by
  rw [consensus_packetOuts,ConsensusSwitch.packetInHandler_effects,simple_effects macToPort msg handled]
  refine ⟨rfl,?_,?_⟩
  · cases ConsensusSwitch.requested macToPort msg <;> rfl
  · cases asked : ConsensusSwitch.requested macToPort msg with
    | none => exact .inl ⟨rfl,rfl⟩
    | some request =>
      obtain ⟨_,inPort,_,dst⟩ := ConsensusSwitch.requested_some macToPort msg request asked
      exact .inr ⟨request,_,rfl,rfl,rfl,inPort.symm,dst.symm,rfl⟩

theorem runs_agree (host : Str) (macToPort : MacTable) (events : List PacketIn)
    (handled : ∀ msg ∈ events, msg.eth.ethertype ≠ ETH_TYPE_LLDP) :
    (runHandler (ConsensusSwitch.packetInHandler host) macToPort events).1 =
        (runHandler SimpleSwitch.packetInHandler macToPort events).1 ∧
      packetOuts (runHandler (ConsensusSwitch.packetInHandler host) macToPort events).2.flatten =
        packetOuts (runHandler SimpleSwitch.packetInHandler macToPort events).2.flatten ∧
      List.Forall₂ (SameRule host) (runHandler (ConsensusSwitch.packetInHandler host) macToPort events).2
        (runHandler SimpleSwitch.packetInHandler macToPort events).2 := by
  induction events generalizing macToPort with
  | nil => exact ⟨rfl,rfl,.nil⟩
  | cons msg events ih =>
    obtain ⟨table,outs,rules⟩ := handlers_agree host macToPort msg (handled msg (by simp))
    obtain ⟨tables,more,others⟩ :=
      ih (SimpleSwitch.packetInHandler macToPort msg).1 fun other member => handled other (by simp [member])
    simp only [run,table,List.flatten_cons]
    refine ⟨tables,?_,.cons rules others⟩
    simp only [packetOuts,List.filterMap_append] at outs more ⊢
    rw [outs,more]

theorem consensus_answers (host : Str) (macToPort : MacTable) (events : List PacketIn) :
    (packetOuts (runHandler (ConsensusSwitch.packetInHandler host) macToPort events).2.flatten).length = events.length := by
  induction events generalizing macToPort with
  | nil => rfl
  | cons msg events ih =>
    have first := congrArg List.length (consensus_packetOuts host macToPort msg)
    have rest := ih (ConsensusSwitch.packetInHandler host macToPort msg).1
    simp only [packetOuts] at first rest
    simp only [packetOuts,run,List.flatten_cons,List.filterMap_append,List.length_append,first,rest,
      List.length_cons,List.length_nil]
    omega

theorem simple_answers (macToPort : MacTable) (events : List PacketIn) :
    (packetOuts (runHandler SimpleSwitch.packetInHandler macToPort events).2.flatten).length =
      events.countP fun msg => msg.eth.ethertype ≠ ETH_TYPE_LLDP := by
  induction events generalizing macToPort with
  | nil => rfl
  | cons msg events ih =>
    have rest := ih (SimpleSwitch.packetInHandler macToPort msg).1
    by_cases lldp : msg.eth.ethertype = ETH_TYPE_LLDP
    · have ignored := simple_ignores macToPort msg lldp
      rw [ignored] at rest
      simp only [run,ignored,List.flatten_cons,List.nil_append,rest]
      simp [lldp]
    · have first : packetOuts (SimpleSwitch.packetInHandler macToPort msg).2 =
          [msg.reply (ConsensusSwitch.target macToPort msg)] := by
        rw [← (handlers_agree [] macToPort msg lldp).2.1,consensus_packetOuts]
      simp only [packetOuts] at first rest
      simp only [packetOuts,run,List.flatten_cons,List.filterMap_append,first,List.length_append,rest]
      simp [lldp,Nat.add_comm]

/-- The switches agree on a sequence of packet-ins exactly when no LLDP packet is among them. -/
theorem switches_agree_iff (host : Str) (events : List PacketIn) :
    Agree host events ↔ ∀ msg ∈ events, msg.eth.ethertype ≠ ETH_TYPE_LLDP := by
  constructor
  · intro agree msg member
    have counts := congrArg List.length agree.packetOuts
    rw [consensus_answers,simple_answers,eq_comm,List.countP_eq_length] at counts
    simpa using counts msg member
  · intro handled
    obtain ⟨table,outs,rules⟩ := runs_agree host ∅ events handled
    exact ⟨table,outs,rules⟩

def lldpPacket : PacketIn := { ConsensusSwitch.teaching with
  eth := { ConsensusSwitch.teaching.eth with ethertype := ETH_TYPE_LLDP } }

theorem lldp_forwarded : ¬Agree ['2'] [lldpPacket] := by
  intro agree
  have counts := congrArg List.length agree.packetOuts
  rw [consensus_answers,simple_answers] at counts
  simp [lldpPacket] at counts

end SwitchEquivalence
end NfvConsensus
