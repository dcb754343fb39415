import NfvConsensus.OpenFlow

/-! `simple_switch.py`: the plain learning switch, which installs its flows itself. -/
namespace NfvConsensus.SimpleSwitch
open Python

def addFlow (datapath : Nat) (inPort : Port) (dst src : Mac) (actions : List Port) : FlowMod where
  datapath := datapath
  ofpMatch := { inPort := inPort,dlDst := dst,dlSrc := src }
  cookie := 0
  command := OFPFC_ADD
  idleTimeout := 0
  hardTimeout := 0
  priority := OFP_DEFAULT_PRIORITY
  flags := OFPFF_SEND_FLOW_REM
  actions := actions

def packetInHandler (macToPort : MacTable) (msg : PacketIn) : MacTable × List Effect :=
  if msg.eth.ethertype = ETH_TYPE_LLDP then (macToPort,[])
  else
    let dpid := msg.datapath
    let macToPort := macToPort.learn dpid msg.eth.src msg.inPort
    let outPort := macToPort.outPort dpid msg.eth.dst
    let flow :=
      if outPort ≠ OFPP_FLOOD then
        [Effect.flowMod (addFlow dpid msg.inPort msg.eth.dst msg.eth.src [outPort])]
      else []
    (macToPort,flow ++ [.packetOut (msg.reply outPort)])

end NfvConsensus.SimpleSwitch
