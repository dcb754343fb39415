import NfvConsensus.Python
import Mathlib.Data.List.AList

/-! The OpenFlow 1.0 events and messages of the switches, with the fields they read
and set, and the table of learned addresses that both of them keep. -/
namespace NfvConsensus
open Python

abbrev Port := Fin 65536

instance neZero_ports : NeZero 65536 := ⟨by decide⟩

def OFPP_FLOOD : Port := 0xfffb
def OFP_NO_BUFFER : Nat := 0xffffffff
def OFP_DEFAULT_PRIORITY : Nat := 0x8000
def OFPFC_ADD : Nat := 0
def OFPFC_MODIFY : Nat := 1
def OFPFC_MODIFY_STRICT : Nat := 2
def OFPFC_DELETE : Nat := 3
def OFPFC_DELETE_STRICT : Nat := 4
def OFPFF_SEND_FLOW_REM : Nat := 1
def ETH_TYPE_LLDP : Nat := 0x88cc

def macChar (c : Char) : Bool :=
  c.isDigit || ('a' ≤ c && c ≤ 'f') || ('A' ≤ c && c ≤ 'F') || c == ':'

/-- An Ethernet address as text: six pairs of digits with five colons between them. -/
structure Mac where
  text : Str
  size : text.length = 17
  chars : ∀ c ∈ text, macChar c = true
  deriving DecidableEq

structure Ethernet where
  dst : Mac
  src : Mac
  ethertype : Nat

/-- `msg` of a packet-in event; `eth` is the Ethernet header found in `data`. -/
structure PacketIn where
  datapath : Nat
  inPort : Port
  bufferId : Nat
  data : Str
  eth : Ethernet

structure PacketOut where
  datapath : Nat
  bufferId : Nat
  inPort : Port
  actions : List Port
  data : Option Str
  deriving DecidableEq

structure Match where
  inPort : Port
  dlDst : Mac
  dlSrc : Mac
  deriving DecidableEq

structure FlowMod where
  datapath : Nat
  ofpMatch : Match
  cookie : Nat
  command : Nat
  idleTimeout : Nat
  hardTimeout : Nat
  priority : Nat
  flags : Nat
  actions : List Port
  deriving DecidableEq

/-- What a handler does besides updating its table, in program order. -/
inductive Effect
  | send (bytes : Str)
  | flowMod (mod : FlowMod)
  | packetOut (out : PacketOut)
  deriving DecidableEq

/-- What the sends of a handler put on its connection when each is accepted whole. -/
def sentBytes (effects : List Effect) : Str :=
  effects.flatMap fun effect => match effect with
    | .send text => text
    | _ => []

/-- `mac_to_port`: datapath id, then address, to port. -/
abbrev MacTable := AList fun _ : Nat => AList fun _ : Mac => Port

namespace MacTable

/-- `self.mac_to_port.setdefault(dpid, {})` and `self.mac_to_port[dpid][src] = in_port` -/
def learn (macToPort : MacTable) (dpid : Nat) (src : Mac) (inPort : Port) : MacTable :=
  let macToPort := if dpid ∈ macToPort then macToPort else macToPort.insert dpid ∅
  macToPort.insert dpid (((macToPort.lookup dpid).getD ∅).insert src inPort)

def outPort (macToPort : MacTable) (dpid : Nat) (dst : Mac) : Port :=
  (((macToPort.lookup dpid).getD ∅).lookup dst).getD OFPP_FLOOD

theorem outPort_learn (macToPort : MacTable) (dpid other : Nat) (src dst : Mac) (inPort : Port) :
    (macToPort.learn dpid src inPort).outPort other dst =
      if other = dpid ∧ dst = src then inPort else macToPort.outPort other dst := by
  have learned : (macToPort.learn dpid src inPort).lookup other =
      if other = dpid then some (((macToPort.lookup dpid).getD ∅).insert src inPort) else macToPort.lookup other := by
    by_cases known : dpid ∈ macToPort
    · by_cases here : other = dpid
      · subst here
        simp [learn,known]
      · simp [learn,known,here,AList.lookup_insert_ne here]
    · by_cases here : other = dpid
      · subst here
        simp [learn,known,AList.lookup_eq_none.mpr known]
      · simp [learn,known,here,AList.lookup_insert_ne here]
  rw [outPort,learned]
  by_cases here : other = dpid
  · subst here
    by_cases same : dst = src
    · subst same
      simp
    · simp [same,AList.lookup_insert_ne same,outPort]
  · simp [here,outPort]

end MacTable

def PacketIn.outData (msg : PacketIn) : Option Str :=
  if msg.bufferId = OFP_NO_BUFFER then some msg.data else none

def PacketIn.reply (msg : PacketIn) (outPort : Port) : PacketOut where
  datapath := msg.datapath
  bufferId := msg.bufferId
  inPort := msg.inPort
  actions := [outPort]
  data := msg.outData

end NfvConsensus
