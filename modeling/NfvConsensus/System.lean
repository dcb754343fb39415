import NfvConsensus.Domains
import NfvConsensus.ClientPaxos
import NfvConsensus.LearnerPaxos
import NfvConsensus.Foundation.Framing
import NfvConsensus.Foundation.Transition

/-! The whole system: controllers that handle packet-ins, Paxos clients, the decided
sequence, learners, and managers. Connections lose nothing, a send writes everything, every
`strcpy` of a client stays in its array, the submitted values are decided once each in any
order, every learner delivers them in that order, `recv(179)` waits for 179 characters, and
`requests.post` returns. Any interleaving is a run. -/
namespace NfvConsensus.System
open Python ClientPaxos Foundation.Framing Foundation.Transition

/-- Controllers and VNFs go by their numbers. The clients of the VNFs stand together, as each
controller has a connection of its own; `decided` has the positions of the decided values in
what they have submitted. -/
structure State where
  tables : Nat → MacTable
  wire : Nat → Str
  emitted : List (Nat × Request)
  client : Client Nat
  decided : List Nat
  delivered : Nat → Nat
  unread : Nat → Str
  loops : Nat → Manager.Loop

inductive Event
  | packetIn (ctl : Nat) (msg : PacketIn)
  | arrive (ctl count : Nat) (v : Str) (ambient : Nat → Ambient)
  | decide (i : Nat)
  | deliver (vnf : Nat) (behind : Str)
  | recv (vnf : Nat) (tick : Manager.Tick)

/-- The VNFs on which a learner and a main loop run: where no controller is assigned,
`get_domain` raises before either is started. -/
def Up (net : Network) (vnf : Nat) : Prop := vnf < net.numVnfs ∧ vnf < net.numCtls

instance (net : Network) (vnf : Nat) : Decidable (Up net vnf) := inferInstanceAs (Decidable (_ ∧ _))

/-- On these VNFs the manager finds its controllers in the domain file, whatever the order of
its entries; on the others it finds none. -/
theorem up_domain (net : Network) (order : List Nat) (permuted : order.Perm (List.range net.numVnfs)) (vnf : Nat)
    (part : vnf < net.numVnfs) :
    Manager.getDomain (Network.printDomain (order.map net.entry)) (Network.address (net.vnfHostBase + vnf)) =
      if Up net vnf then .ok (net.hosts vnf) else .error .valueError := by
  have listed : vnf ∈ order := permuted.mem_iff.mpr (List.mem_range.mpr part)
  by_cases served : vnf < net.numCtls
  · rw [if_pos ⟨part,served⟩]
    exact net.getDomain_vnf order vnf listed part served
  · rw [if_neg fun up => served up.2]
    exact net.getDomain_empty order vnf part (Nat.le_of_not_lt served)

def controllerHost (ctl : Nat) : Str := ConsensusSwitch.hostOf (Network.address (Network.ctlHostBase + ctl))

def start (now : Nat → Rat) : State where
  tables _ := ∅
  wire _ := []
  emitted := []
  client := .start
  decided := []
  delivered _ := 0
  unread _ := []
  loops vnf := .start (now vnf)

def State.value (state : State) (k : Nat) : Option (Nat × ClientValue) :=
  state.decided[k]?.bind fun i => state.client.submitted[i]?

def step (net : Network) (state : State) : Event → Option State
  | .packetIn ctl msg =>
    if ctl < net.numCtls then
      let handled := ConsensusSwitch.packetInHandler (controllerHost ctl) (state.tables ctl) msg
      let asked := (ConsensusSwitch.requested (state.tables ctl) msg).toList.map fun request => (ctl,request)
      some { state with
        tables := Function.update state.tables ctl handled.1
        wire := Function.update state.wire ctl (state.wire ctl ++ sentBytes handled.2)
        emitted := state.emitted ++ asked }
    else none
  | .arrive ctl count v ambient =>
    if 1 ≤ count ∧ count ≤ (state.wire ctl).length then
      some { state with
        wire := Function.update state.wire ctl ((state.wire ctl).drop count)
        client := onRecvValue state.client ⟨ctl,(state.wire ctl).take count,v,ambient⟩ }
    else none
  | .decide i =>
    if i < state.client.submitted.length ∧ i ∉ state.decided then
      some { state with decided := state.decided ++ [i] }
    else none
  | .deliver vnf behind =>
    match state.value (state.delivered vnf) with
    | some (_,value) =>
      if Up net vnf then
        some { state with
          delivered := Function.update state.delivered vnf (state.delivered vnf + 1)
          unread := Function.update state.unread vnf (state.unread vnf ++ LearnerPaxos.deliver value behind) }
      else none
    | none => none
  | .recv vnf tick =>
    if Up net vnf ∧ (state.loops vnf).stopped = false ∧ 179 ≤ (state.unread vnf).length then
      some { state with
        unread := Function.update state.unread vnf ((state.unread vnf).drop 179)
        loops := Function.update state.loops vnf
          (Manager.iterate (net.hosts vnf) (state.loops vnf) ((state.unread vnf).take 179) tick) }
    else none

def system (net : Network) (now : Nat → Rat) : Machine State Event where
  initial := start now
  step := step net

/-- The request behind the value decided at place `k`: a controller, and which of its requests. -/
def State.origin (state : State) (k : Nat) : Option (Nat × Nat) :=
  state.decided[k]?.bind fun i => state.client.submitted[i]?.map fun value =>
    (value.1,(channel value.1 (state.client.submitted.take i)).length)

/-- Manager `vnf` has made this post for the value decided at place `k`. -/
def State.Posts (state : State) (vnf k : Nat) (post : Manager.Post) : Prop :=
  (state.loops vnf).posted[k]? = some (some post)

/-- Every post carries the rule of the request it comes from, and goes to the controller that
made the request; and no request leads to two posts. -/
structure Delivers (state : State) : Prop where
  faithful : ∀ vnf k post, state.Posts vnf k post → ∃ ctl j request,
    state.origin k = some (ctl,j) ∧ (channel ctl state.emitted)[j]? = some request ∧
      post = { url := "http://".toList ++ Network.address (Network.ctlHostBase + ctl) ++
          ":8080/stats/flowentry/add".toList,data := request.rule }
  once : ∀ vnf k post other l repeated, state.Posts vnf k post → state.Posts other l repeated →
    state.origin k = state.origin l → vnf = other ∧ k = l

/-- No manager has stopped, every message has come apart into a rule and a number, and whatever
has been delivered to a manager is or can be processed by it. -/
structure Processes (net : Network) (state : State) : Prop where
  running : ∀ vnf, (state.loops vnf).stopped = false
  splits : ∀ vnf, ∀ message ∈ (state.loops vnf).handled, ∃ rule host n,
    split '#' message = [rule,host] ∧ int host = .ok n
  processed : ∀ vnf, state.delivered vnf = state.decided.length → state.unread vnf = [] →
    (state.loops vnf).posted.length = state.decided.length
  progress : ∀ vnf, Up net vnf → ∀ tick, state.unread vnf ≠ [] → (step net state (.recv vnf tick)).isSome

/-- The octets of which the first digit is the octet of another controller. -/
def Misread (host : Nat) : Prop := (20 ≤ host ∧ host ≤ 99) ∨ (200 ≤ host ∧ host ≤ 254)

/-- The request made by a step, if any, satisfies `good`. -/
def Requests (good : Nat → Request → Prop) (state : State) (event : Event) : Prop :=
  ∀ ctl msg request, event = .packetIn ctl msg →
    ConsensusSwitch.requested (state.tables ctl) msg = some request → good ctl request

end NfvConsensus.System
