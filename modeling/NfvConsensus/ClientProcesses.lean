import NfvConsensus.Posting

/-! Each VNF runs a client process of its own, and `get_vnf` says to which of them a controller
connects. Whatever it says, the system with these clients has the runs of the one in which they
stand together: a decided value is counted there among all that is submitted, here among what
one client has submitted. -/
namespace NfvConsensus.System
open Python ClientPaxos Foundation.Framing Foundation.Transition Foundation.Blocks Foundation.Related

/-- `decided` has the VNFs of the decided values and their positions in what the clients there
have submitted. -/
structure Deployment where
  tables : Nat → MacTable
  wire : Nat → Str
  emitted : List (Nat × Request)
  clients : Nat → Client Nat
  decided : List (Nat × Nat)
  delivered : Nat → Nat
  unread : Nat → Str
  loops : Nat → Manager.Loop

namespace Deployment

inductive Event
  | packetIn (ctl : Nat) (msg : PacketIn)
  | arrive (ctl count : Nat) (v : Str) (ambient : Nat → Ambient)
  | decide (vnf i : Nat)
  | deliver (vnf : Nat) (behind : Str)
  | recv (vnf : Nat) (tick : Manager.Tick)

def start (now : Nat → Rat) : Deployment where
  tables _ := ∅
  wire _ := []
  emitted := []
  clients _ := .start
  decided := []
  delivered _ := 0
  unread _ := []
  loops vnf := .start (now vnf)

def value (state : Deployment) (k : Nat) : Option (Nat × ClientValue) :=
  state.decided[k]?.bind fun entry => (state.clients entry.1).submitted[entry.2]?

def step (net : Network) (vnfOf : Nat → Nat) (state : Deployment) : Event → Option Deployment
  | .packetIn ctl msg =>
    if ctl < net.numCtls then
      let handled := ConsensusSwitch.packetInHandler (controllerHost ctl) (state.tables ctl) msg
      let asked := (ConsensusSwitch.requested (state.tables ctl) msg).toList.map fun request => (ctl,request)
      some { state with
        tables := Function.update state.tables ctl handled.1
        wire := Function.update state.wire ctl (state.wire ctl ++ sentBytes handled.2)
        emitted := state.emitted ++ asked }
    else none
  | .arrive ctl count v ambient =>
    if 1 ≤ count ∧ count ≤ (state.wire ctl).length then
      some { state with
        wire := Function.update state.wire ctl ((state.wire ctl).drop count)
        clients := Function.update state.clients (vnfOf ctl)
          (onRecvValue (state.clients (vnfOf ctl)) ⟨ctl,(state.wire ctl).take count,v,ambient⟩) }
    else none
  | .decide vnf i =>
    if i < (state.clients vnf).submitted.length ∧ (vnf,i) ∉ state.decided then
      some { state with decided := state.decided ++ [(vnf,i)] }
    else none
  | .deliver vnf behind =>
    match state.value (state.delivered vnf) with
    | some (_,value) =>
      if Up net vnf then
        some { state with
          delivered := Function.update state.delivered vnf (state.delivered vnf + 1)
          unread := Function.update state.unread vnf (state.unread vnf ++ LearnerPaxos.deliver value behind) }
      else none
    | none => none
  | .recv vnf tick =>
    if Up net vnf ∧ (state.loops vnf).stopped = false ∧ 179 ≤ (state.unread vnf).length then
      some { state with
        unread := Function.update state.unread vnf ((state.unread vnf).drop 179)
        loops := Function.update state.loops vnf
          (Manager.iterate (net.hosts vnf) (state.loops vnf) ((state.unread vnf).take 179) tick) }
    else none

end Deployment

def deployment (net : Network) (vnfOf : Nat → Nat) (now : Nat → Rat) : Machine Deployment Deployment.Event where
  initial := .start now
  step := Deployment.step net vnfOf

/-- The entries of a log that belong to the controllers of a VNF. -/
def ofVnf {β : Type} (vnfOf : Nat → Nat) (vnf : Nat) (log : List (Nat × β)) : List (Nat × β) :=
  channel vnf (log.map fun entry => (vnfOf entry.1,entry))

/-- The value at a place of all submissions is the one that a VNF's client has at its own place. -/
def Stands (vnfOf : Nat → Nat) (submitted : List (Nat × ClientValue)) (entry : Nat × Nat) (place : Nat) : Prop :=
  ∃ value, submitted[place]? = some value ∧ vnfOf value.1 = entry.1 ∧
    (ofVnf vnfOf entry.1 (submitted.take place)).length = entry.2

section Places
variable {β : Type} {vnfOf : Nat → Nat}

theorem ofVnf_append (vnf : Nat) (first second : List (Nat × β)) :
    ofVnf vnfOf vnf (first ++ second) = ofVnf vnfOf vnf first ++ ofVnf vnfOf vnf second := by
  rw [ofVnf,List.map_append,channel_append]
  rfl

theorem ofVnf_controller (vnf ctl : Nat) (items : List β) :
    ofVnf vnfOf vnf (items.map fun item => (ctl,item)) = if vnfOf ctl = vnf then items.map fun item => (ctl,item) else [] := by
  have labelled : ((items.map fun item => (ctl,item)).map fun entry => (vnfOf entry.1,entry)) =
      (items.map fun item => (ctl,item)).map fun entry => (vnfOf ctl,entry) := by
    rw [List.map_map,List.map_map]
    rfl
  rw [ofVnf,labelled]
  split
  · rename_i own
    rw [own,channel_same]
  · rename_i other
    exact channel_other vnf (vnfOf ctl) other _

theorem ofVnf_take (vnf place : Nat) (log : List (Nat × β)) :
    (ofVnf vnfOf vnf log).take (ofVnf vnfOf vnf (log.take place)).length = ofVnf vnfOf vnf (log.take place) := by
  have parts : ofVnf vnfOf vnf (log.take place ++ log.drop place) = _ := ofVnf_append vnf _ _
  rw [List.take_append_drop] at parts
  rw [parts,List.take_left' rfl]

/-- The log of a VNF has all entries of its controllers, in order. -/
theorem channel_ofVnf (ctl : Nat) (log : List (Nat × β)) : channel ctl (ofVnf vnfOf (vnfOf ctl) log) = channel ctl log := by
  induction log with
  | nil => rfl
  | cons entry log ih =>
    obtain ⟨other,item⟩ := entry
    have split_first : ofVnf vnfOf (vnfOf ctl) ([(other,item)] ++ log) = _ := ofVnf_append (vnfOf ctl) _ log
    have single : ofVnf vnfOf (vnfOf ctl) ([item].map fun item => (other,item)) = _ := ofVnf_controller (vnfOf ctl) other [item]
    rw [List.map_singleton] at single
    rw [← List.singleton_append,split_first,channel_append,channel_append,ih,single]
    by_cases own : other = ctl
    · rw [own,if_pos rfl]
    · rw [channel_singleton,if_neg own]
      split
      · rw [channel_singleton,if_neg own]
      · rfl

theorem labelled_get (vnfOf : Nat → Nat) (log : List (Nat × β)) (place : Nat) (value : Nat × β)
    (found : log[place]? = some value) : (log.map fun entry => (vnfOf entry.1,entry))[place]? = some (vnfOf value.1,value) := by
  rw [List.getElem?_map,found,Option.map_some]

variable {submitted : List (Nat × ClientValue)}

theorem stands_grown (more : List (Nat × ClientValue)) (entry : Nat × Nat) (place : Nat)
    (stands : Stands vnfOf submitted entry place) : Stands vnfOf (submitted ++ more) entry place := by
  obtain ⟨value,found,own,count⟩ := stands
  have bound := (List.getElem?_eq_some_iff.mp found).1
  refine ⟨value,?_,own,?_⟩
  · rw [List.getElem?_append_left bound,found]
  · rw [List.take_append_of_le_length (Nat.le_of_lt bound),count]

theorem stands_place (vnfOf : Nat → Nat) (place : Nat) (bound : place < submitted.length) :
    ∃ entry, Stands vnfOf submitted entry place := by
  let vnf := vnfOf submitted[place].1
  exact ⟨(vnf,(ofVnf vnfOf vnf (submitted.take place)).length),_,List.getElem?_eq_getElem bound,rfl,rfl⟩

theorem stands_entry (entry : Nat × Nat) (bound : entry.2 < (ofVnf vnfOf entry.1 submitted).length) :
    ∃ place, Stands vnfOf submitted entry place := by
  obtain ⟨place,value,found,count⟩ := channel_found _ entry.1 entry.2 bound
  rw [List.getElem?_map,Option.map_eq_some_iff] at found
  obtain ⟨value,found,is⟩ := found
  obtain ⟨own,rfl⟩ := Prod.mk.inj is
  refine ⟨place,value,found,own,?_⟩
  rw [ofVnf,List.map_take,count]

/-- Both places have the same value. -/
theorem stands_value (entry : Nat × Nat) (place : Nat) (stands : Stands vnfOf submitted entry place) :
    (ofVnf vnfOf entry.1 submitted)[entry.2]? = submitted[place]? := by
  obtain ⟨vnf,i⟩ := entry
  obtain ⟨value,found,own,count⟩ := stands
  have indexed := channel_index _ place _ value (labelled_get vnfOf submitted place value found)
  rw [← List.map_take,own] at indexed
  rw [found,← indexed,← count]
  rfl

theorem stands_unique : Relator.BiUnique (Stands vnfOf submitted) := by
  constructor
  · rintro ⟨vnf,i⟩ ⟨other,j⟩ place ⟨value,found,own,count⟩ ⟨again,refound,own',count'⟩
    obtain rfl : value = again := Option.some.inj (found.symm.trans refound)
    dsimp only at own own' count count'
    obtain rfl : vnf = other := own.symm.trans own'
    rw [← count,count']
  · rintro ⟨vnf,i⟩ place other ⟨value,found,own,count⟩ ⟨value',found',own',count'⟩
    dsimp only at own own' count count'
    have left := labelled_get vnfOf submitted place value found
    have right := labelled_get vnfOf submitted other value' found'
    rw [own] at left
    rw [own'] at right
    apply channel_place _ place other vnf value value' left right
    rw [← List.map_take,← List.map_take]
    exact count.trans count'.symm

end Places

/-- The one client has what the clients of all VNFs have. -/
structure Together (vnfOf : Nat → Nat) (apart : Deployment) (joint : State) : Prop where
  tables : joint.tables = apart.tables
  wire : joint.wire = apart.wire
  emitted : joint.emitted = apart.emitted
  input : ∀ ctl, joint.client.input ctl = (apart.clients (vnfOf ctl)).input ctl
  calls : ∀ vnf, (apart.clients vnf).calls = ofVnf vnfOf vnf joint.client.calls
  submitted : ∀ vnf, (apart.clients vnf).submitted = ofVnf vnfOf vnf joint.client.submitted
  decided : List.Forall₂ (Stands vnfOf joint.client.submitted) apart.decided joint.decided
  delivered : joint.delivered = apart.delivered
  unread : joint.unread = apart.unread
  loops : joint.loops = apart.loops

inductive SameStep (vnfOf : Nat → Nat) (submitted : List (Nat × ClientValue)) : Deployment.Event → Event → Prop
  | packetIn (ctl : Nat) (msg : PacketIn) : SameStep vnfOf submitted (.packetIn ctl msg) (.packetIn ctl msg)
  | arrive (ctl count : Nat) (v : Str) (ambient : Nat → Ambient) :
      SameStep vnfOf submitted (.arrive ctl count v ambient) (.arrive ctl count v ambient)
  | decide (vnf i place : Nat) (stands : Stands vnfOf submitted (vnf,i) place) :
      SameStep vnfOf submitted (.decide vnf i) (.decide place)
  | deliver (vnf : Nat) (behind : Str) : SameStep vnfOf submitted (.deliver vnf behind) (.deliver vnf behind)
  | recv (vnf : Nat) (tick : Manager.Tick) : SameStep vnfOf submitted (.recv vnf tick) (.recv vnf tick)

section Together
variable {net : Network} {vnfOf : Nat → Nat} {apart : Deployment} {joint : State}

theorem start_together (now : Nat → Rat) : Together vnfOf (.start now) (start now) :=
  ⟨rfl,rfl,rfl,fun _ => rfl,fun _ => rfl,fun _ => rfl,.nil,rfl,rfl,rfl⟩

theorem Together.value (together : Together vnfOf apart joint) (k : Nat) : apart.value k = joint.value k := by
  have decided := related_get together.decided k
  rw [Deployment.value,State.value]
  generalize apart.decided[k]? = entry at decided ⊢
  generalize joint.decided[k]? = place at decided ⊢
  cases decided with
  | none => rfl
  | @some entry place stands =>
    rw [Option.bind_some,Option.bind_some,together.submitted]
    exact stands_value entry place stands

/-- The client that has submitted a value is that of the controller whose request it is, and the
value came as that request on the controller's connection. -/
theorem Together.decided_at (together : Together vnfOf apart joint) (k ctl j : Nat) (origin : joint.origin k = some (ctl,j)) :
    ∃ i value, apart.decided[k]? = some (vnfOf ctl,i) ∧ (apart.clients (vnfOf ctl)).submitted[i]? = some (ctl,value) ∧
      (channel ctl ((apart.clients (vnfOf ctl)).submitted.take i)).length = j := by
  obtain ⟨place,decided,submitted⟩ := Option.bind_eq_some_iff.mp origin
  obtain ⟨value,found,is⟩ := Option.map_eq_some_iff.mp submitted
  obtain ⟨⟨vnf,i⟩,here,stands⟩ := related_left together.decided k place decided
  have same := stands_value (vnf,i) place stands
  obtain ⟨again,refound,own,count⟩ := stands
  obtain rfl : value = again := Option.some.inj (found.symm.trans refound)
  obtain ⟨sender,before⟩ := Prod.mk.inj is
  dsimp only at own count same
  rw [sender] at own before
  subst own
  rw [← together.submitted,found] at same
  refine ⟨i,value.2,here,?_,?_⟩
  · rw [same,← sender]
  · rw [together.submitted,← count,ofVnf_take,channel_ofVnf,before]

/-- What the client of a controller adds to a log belongs to its VNF in the log of all clients. -/
theorem log_arrives {β : Type} (part : Client Nat → List (Nat × β)) (clients : Nat → Client Nat) (all : List (Nat × β))
    (ctl : Nat) (items : List β) (next : Client Nat) (same : ∀ vnf, part (clients vnf) = ofVnf vnfOf vnf all)
    (grown : part next = part (clients (vnfOf ctl)) ++ items.map fun item => (ctl,item)) (vnf : Nat) :
    part (Function.update clients (vnfOf ctl) next vnf) = ofVnf vnfOf vnf (all ++ items.map fun item => (ctl,item)) := by
  rw [ofVnf_append,ofVnf_controller,← same vnf]
  by_cases own : vnfOf ctl = vnf
  · subst own
    rw [Function.update_self,if_pos rfl,grown]
  · rw [Function.update_of_ne (Ne.symm own),if_neg own,List.append_nil]

theorem input_arrives (together : Together vnfOf apart joint) (arrival : Arrival Nat) (other : Nat) :
    (onRecvValue joint.client arrival).input other = (Function.update apart.clients (vnfOf arrival.conn)
      (onRecvValue (apart.clients (vnfOf arrival.conn)) arrival) (vnfOf other)).input other := by
  have input := together.input arrival.conn
  by_cases same : other = arrival.conn
  · subst same
    simp only [onRecvValue,Function.update_self,input]
  · by_cases beside : vnfOf other = vnfOf arrival.conn
    · simp only [beside,onRecvValue,Function.update_self,Function.update_of_ne same]
      rw [together.input other,beside]
    · simp only [onRecvValue,Function.update_of_ne same,Function.update_of_ne beside]
      exact together.input other

/-- Steps that correspond are enabled together and go to states that belong together. -/
theorem step_related (net : Network) (event : Deployment.Event) (other : Event) (together : Together vnfOf apart joint)
    (same : SameStep vnfOf joint.client.submitted event other) :
    Option.Rel (Together vnfOf) (Deployment.step net vnfOf apart event) (step net joint other) := by
  cases same with
  | packetIn ctl msg =>
    simp only [Deployment.step,step]
    split
    · refine .some { together with tables := ?_,wire := ?_,emitted := ?_ }
      · simp only [together.tables]
      · simp only [together.wire,together.tables]
      · simp only [together.emitted,together.tables]
    · exact .none
  | arrive ctl count v ambient =>
    simp only [Deployment.step,step,together.wire]
    split
    · refine .some { together with wire := rfl,input := ?_,calls := ?_,submitted := ?_,decided := ?_ }
      · exact input_arrives together ⟨ctl,(apart.wire ctl).take count,v,ambient⟩
      · apply log_arrives Client.calls apart.clients _ ctl _ _ together.calls
        simp only [onRecvValue,together.input ctl]
      · apply log_arrives Client.submitted apart.clients _ ctl _ _ together.submitted
        simp only [onRecvValue,together.input ctl]
      · exact together.decided.imp fun entry place => stands_grown _ entry place
    · exact .none
  | decide vnf i place stands =>
    have fresh : (vnf,i) ∈ apart.decided ↔ place ∈ joint.decided :=
      List.rel_mem stands_unique stands together.decided
    have bound : i < (apart.clients vnf).submitted.length ↔ place < joint.client.submitted.length := by
      have found := stands_value (vnf,i) place stands
      rw [← together.submitted vnf] at found
      obtain ⟨value,present,_⟩ := stands
      rw [present] at found
      exact iff_of_true (List.getElem?_eq_some_iff.mp found).1 (List.getElem?_eq_some_iff.mp present).1
    simp only [Deployment.step,step,bound,fresh]
    split
    · exact .some { together with decided := List.rel_append together.decided (.cons stands .nil) }
    · exact .none
  | deliver vnf behind =>
    simp only [Deployment.step,step,together.delivered,together.value]
    cases joint.value (apart.delivered vnf) with
    | none => exact .none
    | some entry =>
      dsimp only
      split
      · exact .some { together with
          delivered := rfl
          unread := by simp only [together.unread] }
      · exact .none
  | recv vnf tick =>
    simp only [Deployment.step,step,together.loops,together.unread]
    split
    · exact .some { together with unread := rfl,loops := rfl }
    · exact .none

theorem joint_answers (now : Nat → Rat) (before : Deployment) (other : State) (after : Deployment) (event : Deployment.Event)
    (together : Together vnfOf before other) (taken : (deployment net vnfOf now).step before event = some after) :
    ∃ answer next, (system net now).step other answer = some next ∧ Together vnfOf after next := by
  have same : ∃ answer, SameStep vnfOf other.client.submitted event answer := by
    cases event with
    | packetIn ctl msg => exact ⟨_,.packetIn ctl msg⟩
    | arrive ctl count v ambient => exact ⟨_,.arrive ctl count v ambient⟩
    | decide vnf i =>
      obtain ⟨⟨bound,_⟩,_⟩ := Option.ite_none_right_eq_some.mp taken
      rw [together.submitted vnf] at bound
      obtain ⟨place,stands⟩ := stands_entry (vnf,i) bound
      exact ⟨_,.decide vnf i place stands⟩
    | deliver vnf behind => exact ⟨_,.deliver vnf behind⟩
    | recv vnf tick => exact ⟨_,.recv vnf tick⟩
  obtain ⟨answer,same⟩ := same
  have related := step_related net event answer together same
  change Deployment.step net vnfOf before event = some after at taken
  rw [taken] at related
  obtain ⟨next,answers,still⟩ := related_some related
  exact ⟨answer,next,answers,still⟩

theorem apart_answers (now : Nat → Rat) (before : State) (other : Deployment) (after : State) (event : Event)
    (together : Together vnfOf other before) (taken : (system net now).step before event = some after) :
    ∃ answer next, (deployment net vnfOf now).step other answer = some next ∧ Together vnfOf next after := by
  have same : ∃ answer, SameStep vnfOf before.client.submitted answer event := by
    cases event with
    | packetIn ctl msg => exact ⟨_,.packetIn ctl msg⟩
    | arrive ctl count v ambient => exact ⟨_,.arrive ctl count v ambient⟩
    | decide place =>
      obtain ⟨⟨bound,_⟩,_⟩ := Option.ite_none_right_eq_some.mp taken
      obtain ⟨⟨vnf,i⟩,stands⟩ := stands_place vnfOf place bound
      exact ⟨_,.decide vnf i place stands⟩
    | deliver vnf behind => exact ⟨_,.deliver vnf behind⟩
    | recv vnf tick => exact ⟨_,.recv vnf tick⟩
  obtain ⟨answer,same⟩ := same
  have related := step_related net answer event together same
  change step net before event = some after at taken
  rw [taken] at related
  obtain ⟨next,answers,still⟩ := some_related related
  exact ⟨answer,next,answers,still⟩

theorem joint_reached (now : Nat → Rat) (reached : (deployment net vnfOf now).Reachable apart) :
    ∃ joint, (system net now).Reachable joint ∧ Together vnfOf apart joint :=
  Machine.related_reachable (Together vnfOf) (start_together now) (joint_answers now) reached

end Together

/-- Whichever clients the controllers connect to, what is reached with these clients is what is
reached with one for all: the same tables, bytes on the way, requests, submissions of each
VNF, decided values, deliveries and managers. -/
theorem clients_apart (net : Network) (vnfOf : Nat → Nat) (now : Nat → Rat) :
    (∀ apart, (deployment net vnfOf now).Reachable apart →
      ∃ joint, (system net now).Reachable joint ∧ Together vnfOf apart joint) ∧
    ∀ joint, (system net now).Reachable joint →
      ∃ apart, (deployment net vnfOf now).Reachable apart ∧ Together vnfOf apart joint := by
  refine ⟨fun apart reached => joint_reached now reached,fun joint reached => ?_⟩
  exact Machine.related_reachable (fun joint apart => Together vnfOf apart joint) (start_together now) (apart_answers now)
    reached

/-- The clients to which the controllers connect. -/
def Connects (net : Network) (vnfOf : Nat → Nat) : Prop :=
  ∃ order : List Nat, order.Perm (List.range net.numVnfs) ∧ ∀ ctl < net.numCtls,
    ConsensusSwitch.getVnf (Network.printDomain (order.map net.entry)) (Network.address (Network.ctlHostBase + ctl)) =
      .ok (Network.address (net.vnfHostBase + vnfOf ctl))

theorem Connects.assigned {net : Network} {vnfOf : Nat → Nat} (connects : Connects net vnfOf) (served : 1 ≤ net.numVnfs)
    (ctl : Nat) (inside : ctl < net.numCtls) : ctl ∈ block net.numCtls net.numVnfs (vnfOf ctl) := by
  obtain ⟨order,permuted,found⟩ := connects
  obtain ⟨vnf,part,member⟩ := block_exists net.numCtls net.numVnfs ctl served inside
  have listed : vnf ∈ order := permuted.mem_iff.mpr (List.mem_range.mpr part)
  have own := (found ctl inside).symm.trans (net.getVnf_controller order vnf ctl listed member)
  have same := (Network.address_inj _ _).mp (Except.ok.inj own)
  obtain rfl : vnfOf ctl = vnf := by omega
  exact member

/-- The manager that posts for a value runs on the VNF of the controller that the first digit of
the host names, and the client that has submitted the value on the VNF of the controller that
made the request, on whose connection it came; for hosts of one digit these are the same. -/
theorem posts_beside (net : Network) (few : net.numCtls ≤ 253) (served : 1 ≤ net.numVnfs) (vnfOf : Nat → Nat)
    (connects : Connects net vnfOf) (now : Nat → Rat) (state : Deployment) (reached : (deployment net vnfOf now).Reachable state)
    (vnf k : Nat) (post : Manager.Post) (posts : (state.loops vnf).posted[k]? = some (some post)) :
    ∃ ctl j request i value, (channel ctl state.emitted)[j]? = some request ∧ state.decided[k]? = some (vnfOf ctl,i) ∧
      (state.clients (vnfOf ctl)).submitted[i]? = some (ctl,value) ∧
      (channel ctl ((state.clients (vnfOf ctl)).submitted.take i)).length = j ∧
      post = ⟨Manager.url (Manager.lead (Network.ctlHostBase + ctl)),request.rule⟩ ∧
      vnf = vnfOf (Manager.lead (Network.ctlHostBase + ctl) - Network.ctlHostBase) ∧
      (Network.ctlHostBase + ctl ≤ 9 → vnf = vnfOf ctl) := by
  obtain ⟨joint,joint_reached,together⟩ := joint_reached now reached
  have sound := reachable_sound few now joint_reached
  rw [← together.loops] at posts
  obtain ⟨ctl,j,request,origin,placed,is⟩ := sound.posted_rule few vnf k _ posts
  have inside := (sound.requests _ ((mem_channel _ _ _).mp (List.mem_of_getElem? placed))).1
  have low := Manager.lead_le (Network.ctlHostBase + ctl)
  rw [together.emitted] at placed
  split at is
  · rename_i member
    obtain ⟨place,inBlock,named⟩ := (net.mem_hosts vnf _).mp member
    have lead : Manager.lead (Network.ctlHostBase + ctl) = Network.ctlHostBase + place := by omega
    have own := block_unique _ _ vnf (vnfOf place) place inBlock (connects.assigned served place (by omega))
    obtain ⟨i,value,decided,submitted,before⟩ := together.decided_at k ctl j origin
    refine ⟨ctl,j,request,i,value,placed,decided,submitted,before,Option.some.inj is,?_,fun small => ?_⟩
    · rw [lead,Nat.add_sub_cancel_left]
      exact own
    · have whole : Manager.lead (Network.ctlHostBase + ctl) = Network.ctlHostBase + ctl := if_pos (by omega)
      obtain rfl : place = ctl := by omega
      exact own
  · contradiction

-- The second of two controllers, with a client and a manager of its own.
def deployedEvents : List Deployment.Event := [
  .packetIn 1 ConsensusSwitch.teaching,.packetIn 1 ConsensusSwitch.asking,.arrive 1 182 [] sampleAmbient,
  .decide 1 0,.deliver 1 [],.recv 1 ⟨1,[]⟩]

theorem deployed_posted : ((deployment ⟨2,2⟩ (fun ctl => ctl) fun _ => 0).run (.start fun _ => 0) deployedEvents).map
    (fun state => (state.loops 1).posted) = some [some ⟨Manager.url 3,Request.sample.rule⟩] := by
  decide +kernel

theorem deployed_connects : Connects ⟨2,2⟩ fun ctl => ctl := by
  refine ⟨[0,1],.refl _,fun ctl inside => ?_⟩
  have own : ctl ∈ block 2 2 ctl := by
    have small : ctl < 2 := inside
    obtain rfl | rfl : ctl = 0 ∨ ctl = 1 := by omega
    · decide
    · decide
  exact (Network.mk 2 2).getVnf_controller [0,1] ctl ctl (List.mem_range.mpr inside) own

theorem posts_beside_second : ∃ (state : Deployment) (ctl i : Nat) (value : ClientValue),
    (state.loops 1).posted[0]? = some (some ⟨Manager.url 3,Request.sample.rule⟩) ∧ state.decided[0]? = some (ctl,i) ∧
      (state.clients ctl).submitted[i]? = some (ctl,value) ∧ (Network.ctlHostBase + ctl ≤ 9 → 1 = ctl) := by
  obtain ⟨state,ran,posted⟩ := Option.map_eq_some_iff.mp deployed_posted
  have posts : (state.loops 1).posted[0]? = some (some ⟨Manager.url 3,Request.sample.rule⟩) := by
    rw [posted]
    rfl
  obtain ⟨ctl,_,_,i,value,_,decided,submitted,_,_,_,beside⟩ := posts_beside ⟨2,2⟩ (by decide) (by decide) _ deployed_connects
    (fun _ => 0) state (Machine.reachable_run _ state _ .initial ran) 1 0 _ posts
  exact ⟨state,ctl,i,value,posts,decided,submitted,beside⟩

end NfvConsensus.System
