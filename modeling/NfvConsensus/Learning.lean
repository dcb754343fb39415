import NfvConsensus.SwitchEquivalence
import NfvConsensus.RuleValue

/-! What the consensus switch knows of an address is the port of the last packet-in that came
from it on the same datapath, and what it does on one datapath does not depend on the
others. -/
namespace NfvConsensus.ConsensusSwitch
open Python Foundation.EventLoop SwitchEquivalence

/-- The port of the last of these packet-ins on the datapath whose source is the address. -/
def lastPort (events : List PacketIn) (dpid : Nat) (address : Mac) : Option Port :=
  ((events.filter fun msg => msg.datapath = dpid ∧ msg.eth.src = address).getLast?).map PacketIn.inPort

theorem lastPort_append (events : List PacketIn) (msg : PacketIn) (dpid : Nat) (address : Mac) :
    lastPort (events ++ [msg]) dpid address =
      if dpid = msg.datapath ∧ address = msg.eth.src then some msg.inPort else lastPort events dpid address := by
  rw [lastPort,List.filter_append,List.filter_singleton]
  by_cases here : msg.datapath = dpid ∧ msg.eth.src = address
  · obtain ⟨datapath,source⟩ := here
    simp [datapath,source]
  · have elsewhere : ¬(dpid = msg.datapath ∧ address = msg.eth.src) := fun same => here ⟨same.1.symm,same.2.symm⟩
    simp [here,elsewhere,lastPort]

def Recalls (events : List PacketIn) (macToPort : MacTable) : Prop :=
  ∀ dpid address, macToPort.outPort dpid address = (lastPort events dpid address).getD OFPP_FLOOD

theorem recalls_empty : Recalls [] ∅ := fun _ _ => rfl

theorem recalls_learned (events : List PacketIn) (macToPort : MacTable) (msg : PacketIn) (recalls : Recalls events macToPort) :
    Recalls (events ++ [msg]) (learned macToPort msg) := by
  intro dpid address
  rw [learned,MacTable.outPort_learn,lastPort_append,recalls dpid address]
  split
  · rfl
  · rfl

theorem recalls_kept (host : Str) : Kept (packetInHandler host) Recalls := by
  intro events macToPort msg recalls
  rw [packetInHandler_effects]
  exact recalls_learned events macToPort msg recalls

theorem target_recalled (events : List PacketIn) (macToPort : MacTable) (msg : PacketIn) (recalls : Recalls events macToPort) :
    target macToPort msg = (lastPort (events ++ [msg]) msg.datapath msg.eth.dst).getD OFPP_FLOOD :=
  recalls_learned events macToPort msg recalls msg.datapath msg.eth.dst

def request (msg : PacketIn) (port : Port) : Request where
  datapath := msg.datapath
  inPort := msg.inPort
  outPort := port
  dst := msg.eth.dst

/-- The handler asks for a rule at this packet-in, which comes after those. -/
def Learned (before : List PacketIn) (msg : PacketIn) : Prop :=
  ∃ port, lastPort (before ++ [msg]) msg.datapath msg.eth.dst = some port ∧ port ≠ OFPP_FLOOD

theorem requested_recalled (events : List PacketIn) (macToPort : MacTable) (msg : PacketIn) (made : Request)
    (recalls : Recalls events macToPort) : requested macToPort msg = some made ↔
      ∃ port, lastPort (events ++ [msg]) msg.datapath msg.eth.dst = some port ∧ port ≠ OFPP_FLOOD ∧ request msg port = made := by
  have port := target_recalled events macToPort msg recalls
  constructor
  · intro asked
    obtain ⟨known,_⟩ := requested_some macToPort msg made asked
    rw [requested,if_pos known] at asked
    cases last : lastPort (events ++ [msg]) msg.datapath msg.eth.dst with
    | none =>
      rw [port,last] at known
      exact absurd rfl known
    | some learned =>
      rw [last,Option.getD_some] at port
      rw [port] at known asked
      exact ⟨learned,rfl,known,Option.some.inj asked⟩
  · rintro ⟨learned,last,known,rfl⟩
    rw [last,Option.getD_some] at port
    rw [requested,port,if_pos known]
    rfl

theorem requested_learned (before : List PacketIn) (macToPort : MacTable) (msg : PacketIn) (recalls : Recalls before macToPort) :
    (requested macToPort msg).isSome ↔ Learned before msg := by
  rw [Option.isSome_iff_exists]
  constructor
  · rintro ⟨made,asked⟩
    obtain ⟨port,last,known,_⟩ := (requested_recalled before macToPort msg made recalls).mp asked
    exact ⟨port,last,known⟩
  · rintro ⟨port,last,known⟩
    exact ⟨_,(requested_recalled before macToPort msg _ recalls).mpr ⟨port,last,known,rfl⟩⟩

/-- The output at a packet-in of a whole run is that of the handler on a table with the last
ports of the packet-ins before. -/
theorem handler_at (host : Str) (events before : List PacketIn) (msg : PacketIn) (after : List PacketIn)
    (order : events = before ++ msg :: after) : ∃ reached, Recalls before reached ∧
      (runHandler (packetInHandler host) ∅ events).2[before.length]? = some (packetInHandler host reached msg).2 := by
  rw [order]
  exact run_at (recalls_kept host) ∅ recalls_empty before msg after

theorem lastPort_member (events : List PacketIn) (dpid : Nat) (address : Mac) (port : Port)
    (last : lastPort events dpid address = some port) : ∃ msg ∈ events, msg.inPort = port := by
  obtain ⟨msg,is_last,inPort⟩ := Option.map_eq_some_iff.mp last
  exact ⟨msg,List.mem_of_mem_filter (List.mem_of_getLast? is_last),inPort⟩

/-- What is written on the connection at a packet-in: the request and its length if the
destination has a last port, and nothing otherwise. -/
def expectedSends (host : Str) (msg : PacketIn) : Option Port → List Str
  | none => []
  | some port => [str ((request msg port).message host).length,(request msg port).message host]

theorem handled_sends (host : Str) (macToPort : MacTable) (msg : PacketIn) :
    sends (packetInHandler host macToPort msg).2 = (requested macToPort msg).toList.flatMap fun made =>
      [str (made.message host).length,made.message host] := by
  rw [packetInHandler_effects]
  cases requested macToPort msg with
  | none => rfl
  | some made => rfl

theorem handled_expected (host : Str) (events : List PacketIn) (macToPort : MacTable) (msg : PacketIn)
    (recalls : Recalls events macToPort) (ports : ∀ earlier ∈ events ++ [msg], earlier.inPort ≠ OFPP_FLOOD) :
    sends (packetInHandler host macToPort msg).2 =
      expectedSends host msg (lastPort (events ++ [msg]) msg.datapath msg.eth.dst) := by
  rw [handled_sends]
  cases last : lastPort (events ++ [msg]) msg.datapath msg.eth.dst with
  | some port =>
    obtain ⟨earlier,member,inPort⟩ := lastPort_member _ _ _ _ last
    have other : port ≠ OFPP_FLOOD := inPort ▸ ports earlier member
    rw [(requested_recalled events macToPort msg _ recalls).mpr ⟨port,last,other,rfl⟩]
    rfl
  | none =>
    have unasked : requested macToPort msg = none := by
      refine Option.eq_none_iff_forall_ne_some.mpr fun made asked => ?_
      obtain ⟨port,known,_⟩ := (requested_recalled events macToPort msg made recalls).mp asked
      rw [last] at known
      contradiction
    rw [unasked]
    rfl

def portsOf (dpid : Nat) (macToPort : MacTable) : Mac → Port := macToPort.outPort dpid

theorem handler_isolates (host : Str) (dpid : Nat) :
    Isolates (packetInHandler host) PacketIn.datapath dpid (portsOf dpid) := by
  have learn (macToPort : MacTable) (msg : PacketIn) (address : Mac) : portsOf dpid (learned macToPort msg) address =
      if dpid = msg.datapath ∧ address = msg.eth.src then msg.inPort else portsOf dpid macToPort address :=
    MacTable.outPort_learn macToPort msg.datapath dpid msg.eth.src address msg.inPort
  constructor
  · intro state other msg own same
    have ports : portsOf dpid (learned state msg) = portsOf dpid (learned other msg) := by
      funext address
      rw [learn,learn,same]
    have port : target state msg = target other msg := by
      have views := congrFun ports msg.eth.dst
      rw [← own] at views
      exact views
    rw [packetInHandler_effects,packetInHandler_effects]
    exact ⟨by simp only [requested,port],ports⟩
  · intro state msg foreign
    rw [packetInHandler_effects]
    funext address
    exact (learn state msg address).trans (if_neg fun own => foreign own.1.symm)

/-- At a packet-in there is one packet-out, to the last port of the destination or flooded; and if
there is such a port, one request, for a rule from the port it came from to that port. -/
structure Answers (host : Str) (msg : PacketIn) (last : Option Port) (effects : List Effect) : Prop where
  out : packetOuts effects = [{
    datapath := msg.datapath
    bufferId := msg.bufferId
    inPort := msg.inPort
    actions := [last.getD OFPP_FLOOD]
    data := if msg.bufferId = OFP_NO_BUFFER then some msg.data else none }]
  sent : sends effects = expectedSends host msg last
  carries : ∀ port, last = some port → ∃ rule,
    sends effects = [str (rule ++ '#' :: host).length,rule ++ '#' :: host] ∧ RuleFor rule msg.inPort port

/-- Over a run from the empty table, each packet-in is answered by the last port of its destination,
its own included; and the packet-ins of a datapath are handled as in the run that has no
others. -/
structure LearnsExactly (host : Str) (events : List PacketIn) : Prop where
  each : ∀ before msg after, events = before ++ msg :: after → ∃ effects,
    (runHandler (packetInHandler host) ∅ events).2[before.length]? = some effects ∧
      Answers host msg (lastPort (before ++ [msg]) msg.datapath msg.eth.dst) effects
  isolated : ∀ dpid, outputsOf PacketIn.datapath dpid events (runHandler (packetInHandler host) ∅ events).2 =
    (runHandler (packetInHandler host) ∅ (events.filter fun msg => msg.datapath = dpid)).2

theorem handled_answers (host : Str) (events : List PacketIn) (macToPort : MacTable) (msg : PacketIn)
    (recalls : Recalls events macToPort) (ports : ∀ earlier ∈ events ++ [msg], earlier.inPort ≠ OFPP_FLOOD) :
    Answers host msg (lastPort (events ++ [msg]) msg.datapath msg.eth.dst) (packetInHandler host macToPort msg).2 := by
  have sent := handled_expected host events macToPort msg recalls ports
  refine ⟨?_,sent,fun port last => ?_⟩
  · rw [consensus_packetOuts,target_recalled events macToPort msg recalls]
    rfl
  · rw [last] at sent
    exact ⟨(request msg port).rule,sent,rule_for (request msg port)⟩

theorem learning_exact (host : Str) (events : List PacketIn) (ports : ∀ msg ∈ events, msg.inPort ≠ OFPP_FLOOD) :
    LearnsExactly host events := by
  constructor
  · intro before msg after order
    obtain ⟨reached,recalls,output⟩ := handler_at host events before msg after order
    refine ⟨_,output,handled_answers host before reached msg recalls fun earlier member => ports earlier ?_⟩
    rw [order,← List.singleton_append,← List.append_assoc]
    exact List.mem_append_left after member
  · intro dpid
    exact run_isolated (handler_isolates host dpid) ∅ ∅ events rfl

theorem learning_exact_two : LearnsExactly (str 2) [teaching,asking] := by
  apply learning_exact
  intro msg member
  rcases List.mem_pair.mp member with rfl | rfl
  · exact fun flood => absurd flood (by decide : (2 : Port) ≠ OFPP_FLOOD)
  · exact fun flood => absurd flood (by decide : (1 : Port) ≠ OFPP_FLOOD)

end NfvConsensus.ConsensusSwitch
