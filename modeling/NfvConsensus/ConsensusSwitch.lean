import NfvConsensus.OpenFlow

/-! `controller.py`: the switch that asks for consensus on a rule instead of
installing it, and the search of the domain file for the VNF it talks to. -/
namespace NfvConsensus.ConsensusSwitch
open Python

/-- The loop of `get_vnf` over the remaining lines; `vnf` is the variable it leaves. -/
def searchVnf (ip : Str) : List Str → Option Str → Except Error Str
  | [],some vnf => .ok vnf
  | [],none => .error .nameError
  | d :: rest,_ => do
    let (vnf,controller) ← unpack (split ' ' (chop d))
    if controller = ip then .ok vnf else searchVnf ip rest (some vnf)

def getVnf (domain : Str) (ip : Str) : Except Error Str := searchVnf ip (readlines domain) none

def hostOf (ip : Str) : Str := (split '.' ip).getLastD []

def buildRule (datapathId inPort outPort : Nat) (dst : Str) : Str :=
  let dpid := if 2 ≤ (str datapathId).length then 1 else datapathId
  -- the escapes `\x7b` and `\x7d` are the braces
  let rule : List Str := [
    "'\x7b\"dpid\": ".toList ++ str dpid ++ ",".toList,
    "\"cookie\": 1,".toList,
    "\"idle_timeout\": 0,".toList,
    "\"hard_timeout\": 0,".toList,
    "\"priority\": ".toList ++ str OFP_DEFAULT_PRIORITY ++ ",".toList,
    "\"match\": \x7b\"in_port\": ".toList ++ str inPort ++ ", \"dl_dst\": \"".toList ++ dst ++ "\"\x7d,".toList,
    "\"actions\": [\x7b\"type\": \"OUTPUT\", \"port\": ".toList ++ str outPort ++ "\x7d]".toList,
    "\x7d'".toList]
  join [] rule

/-- `_packet_in_handler`, with the two socket writes and the packet-out as effects. -/
def packetInHandler (host : Str) (macToPort : MacTable) (msg : PacketIn) : MacTable × List Effect :=
  let dpid := msg.datapath
  let macToPort := macToPort.learn dpid msg.eth.src msg.inPort
  let outPort := macToPort.outPort dpid msg.eth.dst
  let request :=
    if outPort ≠ OFPP_FLOOD then
      let message := buildRule dpid msg.inPort outPort msg.eth.dst.text ++ '#' :: host
      [Effect.send (str message.length),Effect.send message]
    else []
  (macToPort,request ++ [.packetOut (msg.reply outPort)])

end NfvConsensus.ConsensusSwitch
