import NfvConsensus.Posting

/-! Hosts that stay where they are. Where every address is behind one port of its datapath, no two
rules contradict each other, so the order in which they are decided does not matter. -/
namespace NfvConsensus.System
open Python ClientPaxos Foundation.Framing Foundation.Transition

/-- A packet comes in at the port behind which its source is. -/
def Attached (port : Nat → Nat → Mac → Port) (_state : State) (event : Event) : Prop :=
  ∀ ctl msg, event = .packetIn ctl msg → msg.inPort = port ctl msg.datapath msg.eth.src

/-- The controllers know no other ports, and have asked for rules to no other ports. -/
structure Placed (port : Nat → Nat → Mac → Port) (state : State) : Prop where
  tables : ∀ ctl dpid address, (state.tables ctl).outPort dpid address = port ctl dpid address ∨
    (state.tables ctl).outPort dpid address = OFPP_FLOOD
  emitted : ∀ entry ∈ state.emitted, entry.2.outPort = port entry.1 entry.2.datapath entry.2.dst

section Placed
variable {net : Network} {port : Nat → Nat → Mac → Port}

theorem learned_placed (ctl : Nat) (macToPort : MacTable) (msg : PacketIn)
    (placed : ∀ dpid address, macToPort.outPort dpid address = port ctl dpid address ∨
      macToPort.outPort dpid address = OFPP_FLOOD)
    (attached : msg.inPort = port ctl msg.datapath msg.eth.src) (dpid : Nat) (address : Mac) :
    (ConsensusSwitch.learned macToPort msg).outPort dpid address = port ctl dpid address ∨
      (ConsensusSwitch.learned macToPort msg).outPort dpid address = OFPP_FLOOD := by
  rw [ConsensusSwitch.learned,MacTable.outPort_learn]
  split
  · rename_i same
    obtain ⟨rfl,rfl⟩ := same
    exact .inl attached
  · exact placed dpid address

theorem requested_placed (ctl : Nat) (macToPort : MacTable) (msg : PacketIn) (request : Request)
    (placed : ∀ dpid address, (ConsensusSwitch.learned macToPort msg).outPort dpid address = port ctl dpid address ∨
      (ConsensusSwitch.learned macToPort msg).outPort dpid address = OFPP_FLOOD)
    (asked : ConsensusSwitch.requested macToPort msg = some request) :
    request.outPort = port ctl request.datapath request.dst := by
  unfold ConsensusSwitch.requested at asked
  split at asked
  · rename_i known
    obtain rfl := Option.some.inj asked
    rcases placed msg.datapath msg.eth.dst with own | flood
    · exact own
    · exact absurd flood known
  · contradiction

theorem step_placed (before after : State) (event : Event) (placed : Placed port before) (attached : Attached port before event)
    (taken : step net before event = some after) : Placed port after := by
  cases (step_iff net before after event).mp taken with
  | packetIn ctl msg inside =>
    have here := attached ctl msg rfl
    have learns := learned_placed ctl (before.tables ctl) msg (placed.tables ctl) here
    refine ⟨fun other dpid address => ?_,fun entry member => ?_⟩
    · by_cases same : other = ctl
      · subst same
        simp only [Function.update_self,ConsensusSwitch.packetInHandler_effects]
        exact learns dpid address
      · simp only [Function.update_of_ne same]
        exact placed.tables other dpid address
    · rcases List.mem_append.mp member with old | new
      · exact placed.emitted entry old
      · obtain ⟨request,asked,rfl⟩ := List.mem_map.mp new
        exact requested_placed ctl (before.tables ctl) msg request learns (Option.mem_toList.mp asked)
  | arrive ctl count v ambient positive present => exact ⟨placed.tables,placed.emitted⟩
  | decide i submitted fresh => exact ⟨placed.tables,placed.emitted⟩
  | deliver vnf behind ctl value next up => exact ⟨placed.tables,placed.emitted⟩
  | recv vnf tick up running available => exact ⟨placed.tables,placed.emitted⟩

theorem reached_placed (now : Nat → Rat) {state : State} (reached : (system net now).Reached (Attached port) state) :
    Placed port state := by
  apply reached.invariant
  · exact ⟨fun _ _ _ => .inr rfl,fun _ member => absurd member List.not_mem_nil⟩
  · intro before after event placed attached taken
    exact step_placed before after event placed attached taken

end Placed

/-- As long as hosts stay behind their ports, two posts for requests of one controller with the
same datapath, in-port and destination are the same, whichever managers make them. -/
theorem posts_agree (net : Network) (few : net.numCtls ≤ 253) (now : Nat → Rat) (port : Nat → Nat → Mac → Port) (state : State)
    (reached : (system net now).Reached (Attached port) state) (vnf k other l ctl j i : Nat) (post again : Manager.Post)
    (posts : state.Posts vnf k post) (repeated : state.Posts other l again)
    (origin : state.origin k = some (ctl,j)) (origin_again : state.origin l = some (ctl,i)) (request renewed : Request)
    (made : (channel ctl state.emitted)[j]? = some request) (made_again : (channel ctl state.emitted)[i]? = some renewed)
    (same : renewed.datapath = request.datapath ∧ renewed.inPort = request.inPort ∧ renewed.dst = request.dst) :
    again = post := by
  have sound := reached_any few now reached
  have placed := reached_placed now reached
  have out := placed.emitted _ ((mem_channel _ _ _).mp (List.mem_of_getElem? made))
  have out_again := placed.emitted _ ((mem_channel _ _ _).mp (List.mem_of_getElem? made_again))
  have is := sound.posted_for few vnf k ctl j request origin made _ posts
  have is_again := sound.posted_for few other l ctl i renewed origin_again made_again _ repeated
  have equal : renewed.rule = request.rule := by
    obtain ⟨datapath,inPort,dst⟩ := same
    simp only [datapath,dst] at out_again
    rw [Request.rule,Request.rule,datapath,inPort,dst,out,out_again]
  split at is
  · split at is_again
    · rw [Option.some.inj is,Option.some.inj is_again,equal]
    · contradiction
  · contradiction

-- Two hosts behind one port ask for the way to a third one, and the later request is decided first.
def neighbourMac : Mac := ⟨"00:00:00:00:00:03".toList,literal_length,literal_all macChar⟩

def neighbour : PacketIn := ConsensusSwitch.samplePacket 1 Request.sample.dst neighbourMac

def samplePort (_ctl _dpid : Nat) (address : Mac) : Port := if address = Request.sample.dst then 2 else 1

def twiceEvents : List Event := [
  .packetIn 0 ConsensusSwitch.teaching,.packetIn 0 ConsensusSwitch.asking,.packetIn 0 neighbour,
  .arrive 0 364 [] sampleAmbient,.decide 1,.decide 0,.deliver 0 [],.deliver 0 [],.recv 0 ⟨1,[]⟩,.recv 0 ⟨2,[]⟩]

theorem twice_attached : (system ⟨1,1⟩ fun _ => 0).Admitted (Attached samplePort) (start fun _ => 0) twiceEvents := by
  have apart : neighbourMac ≠ Request.sample.dst := fun same =>
    absurd (String.toList_inj.mp (congrArg Mac.text same)) (by decide)
  apply Machine.Admitted.always
  intro before event member ctl msg is_packet
  subst is_packet
  simp only [twiceEvents,List.mem_cons,Event.packetIn.injEq,reduceCtorEq,List.not_mem_nil,or_false] at member
  rcases member with ⟨_,rfl⟩ | ⟨_,rfl⟩ | ⟨_,rfl⟩
  · change (2 : Port) = samplePort ctl 1 Request.sample.dst
    rw [samplePort,if_pos rfl]
  · change (1 : Port) = samplePort ctl 1 ConsensusSwitch.otherMac
    rw [samplePort,if_neg ConsensusSwitch.sample_macs.symm]
  · change (1 : Port) = samplePort ctl 1 neighbourMac
    rw [samplePort,if_neg apart]

def twiceRun : Option State := (system ⟨1,1⟩ fun _ => 0).run (start fun _ => 0) twiceEvents

theorem twice_posted : twiceRun.map (fun state => ((state.loops 0).posted.map Option.isSome,state.origin 0,state.origin 1,
    channel 0 state.emitted)) = some ([true,true],some (0,1),some (0,0),[Request.sample,Request.sample]) := by
  decide +kernel

theorem posts_agree_sample : ∃ (state : State) (post again : Manager.Post), twiceRun = some state ∧
    state.origin 0 = some (0,1) ∧ state.origin 1 = some (0,0) ∧ state.Posts 0 0 post ∧ state.Posts 0 1 again ∧
    again = post := by
  obtain ⟨state,ran,facts⟩ := Option.map_eq_some_iff.mp twice_posted
  obtain ⟨posted,origin,origin_again,emitted⟩ : _ ∧ _ ∧ _ ∧ _ := by simpa only [Prod.mk.injEq] using facts
  have few : (⟨1,1⟩ : Network).numCtls ≤ 253 := by decide
  have reached := Machine.reached_run _ state _ .initial ran twice_attached
  have found (k : Nat) (made : [true,true][k]? = some true) : ∃ post, state.Posts 0 k post := by
    rw [← posted,List.getElem?_map] at made
    obtain ⟨result,is,present⟩ := Option.map_eq_some_iff.mp made
    obtain ⟨post,rfl⟩ := Option.isSome_iff_exists.mp present
    exact ⟨post,is⟩
  obtain ⟨post,posts⟩ := found 0 rfl
  obtain ⟨again,repeated⟩ := found 1 rfl
  have equal := posts_agree ⟨1,1⟩ few _ samplePort state reached 0 0 0 1 0 1 0 post again posts repeated origin origin_again
    Request.sample Request.sample (by rw [emitted]; rfl) (by rw [emitted]; rfl) ⟨rfl,rfl,rfl⟩
  exact ⟨state,post,again,ran,origin,origin_again,posts,repeated,equal⟩

end NfvConsensus.System
