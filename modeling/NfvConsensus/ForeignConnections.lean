import NfvConsensus.Posting

/-! `on_accept_conn` takes whoever connects, and a controller whose `send` fails or goes short leaves
no frames behind it. What comes in on such connections is submitted and decided with the requests of
the other controllers; it stays in windows of its own, and these requests lead to their posts. -/
namespace NfvConsensus
open Python ClientPaxos Foundation.Framing Foundation.Transition Foundation.Related

namespace Manager

theorem handleRequest_host (domain : List Int) (message : Str) (post : Post)
    (handles : handleRequest domain message = .ok (some post)) : ∃ host ∈ domain, post.url = url host := by
  simp only [handleRequest,bind,Except.bind] at handles
  split at handles
  · contradiction
  · split at handles
    · contradiction
    · rename_i host _
      split at handles
      · rename_i member
        exact ⟨host,member,congrArg Post.url (Option.some.inj (Except.ok.inj handles)).symm⟩
      · exact absurd (Except.ok.inj handles).symm (Option.some_ne_none post)

end Manager

namespace System

/-- Besides the steps of the system, anything may be written on a connection. -/
inductive Input
  | own (event : Event)
  | write (conn : Nat) (bytes : Str)

def accept (net : Network) (state : State) : Input → Option State
  | .own event => step net state event
  | .write conn bytes => some { state with wire := Function.update state.wire conn (state.wire conn ++ bytes) }

def accepting (net : Network) (now : Nat → Rat) : Machine State Input where
  initial := start now
  step := accept net

/-- Trusted connections are those of controllers whose sends succeed, and have no other bytes. -/
structure Trusting (trusted : Nat → Prop) (_state : State) (input : Input) : Prop where
  apart : ∀ conn bytes, input = .write conn bytes → ¬trusted conn
  memory : ∀ vnf behind, input = .own (.deliver vnf behind) → 179 ≤ behind.length

/-- What a learner writes for the submitted value `i`: the value as far as it goes. -/
def State.Writes (state : State) (i : Nat) (message : Str) : Prop :=
  message.length = 179 ∧ ∃ entry, state.client.submitted[i]? = some entry ∧ entry.2.value.take 179 <+: message

structure Mixed (net : Network) (trusted : Nat → Prop) (state : State) : Prop where
  stream : ∃ arrivals, state.client = serve arrivals ∧ ∀ ctl, ctl < net.numCtls → trusted ctl →
    arrived arrivals ctl ++ state.wire ctl = (channel ctl state.emitted).flatMap fun request =>
      str (request.message (controllerHost ctl)).length ++ request.message (controllerHost ctl)
  distinct : state.decided.Nodup
  behind : ∀ vnf, state.delivered vnf ≤ state.decided.length
  written : ∀ vnf, ∃ rest, state.unread vnf = rest.flatten ∧
    List.Forall₂ state.Writes (state.decided.take (state.delivered vnf)) ((state.loops vnf).handled ++ rest)
  consistent : ∀ vnf, (state.loops vnf).Consistent (net.hosts vnf)

section Mixed
variable {net : Network} {trusted : Nat → Prop} {state after : State}

theorem writes_grown (more : List (Nat × ClientValue)) (grown : after.client.submitted = state.client.submitted ++ more)
    (i : Nat) (message : Str) (writes : state.Writes i message) : after.Writes i message := by
  obtain ⟨length,entry,found,front⟩ := writes
  refine ⟨length,entry,?_,front⟩
  rw [grown,List.getElem?_append_left (List.getElem?_eq_some_iff.mp found).1,found]

theorem start_mixed (now : Nat → Rat) : Mixed net trusted (start now) where
  stream := ⟨[],rfl,fun _ _ _ => rfl⟩
  distinct := List.nodup_nil
  behind _ := Nat.le_refl _
  written _ := ⟨[],rfl,.nil⟩
  consistent _ := Manager.Loop.start_consistent _ _

theorem Mixed.packetIn (mixed : Mixed net trusted state) (ctl : Nat) (msg : PacketIn) :
    Mixed net trusted { state with
      tables := Function.update state.tables ctl
        (ConsensusSwitch.packetInHandler (controllerHost ctl) (state.tables ctl) msg).1
      wire := Function.update state.wire ctl
        (state.wire ctl ++ sentBytes (ConsensusSwitch.packetInHandler (controllerHost ctl) (state.tables ctl) msg).2)
      emitted := state.emitted ++
        (ConsensusSwitch.requested (state.tables ctl) msg).toList.map fun request => (ctl,request) } := by
  obtain ⟨arrivals,served,stream⟩ := mixed.stream
  refine { mixed with stream := ⟨arrivals,served,fun other inside own => ?_⟩ }
  dsimp only
  rw [sent_wire,← List.append_assoc,stream other inside own,channel_append,List.flatMap_append]

theorem Mixed.write (mixed : Mixed net trusted state) (conn : Nat) (bytes : Str) (foreign : ¬trusted conn) :
    Mixed net trusted { state with wire := Function.update state.wire conn (state.wire conn ++ bytes) } := by
  obtain ⟨arrivals,served,stream⟩ := mixed.stream
  refine { mixed with stream := ⟨arrivals,served,fun ctl inside own => ?_⟩ }
  have apart : ctl ≠ conn := fun equal => foreign (equal ▸ own)
  dsimp only
  rw [Function.update_of_ne apart]
  exact stream ctl inside own

theorem Mixed.arrive (mixed : Mixed net trusted state) (ctl count : Nat) (v : Str) (ambient : Nat → Ambient) :
    Mixed net trusted { state with
      wire := Function.update state.wire ctl ((state.wire ctl).drop count)
      client := onRecvValue state.client ⟨ctl,(state.wire ctl).take count,v,ambient⟩ } := by
  obtain ⟨arrivals,served,stream⟩ := mixed.stream
  refine { mixed with
    stream := ⟨arrivals ++ [⟨ctl,(state.wire ctl).take count,v,ambient⟩],?_,fun other inside own => ?_⟩
    written := ?_ }
  · rw [served,serve_append]
  · exact (arrived_wire arrivals state.wire ctl count v ambient other).trans (stream other inside own)
  · intro vnf
    obtain ⟨rest,unread,related⟩ := mixed.written vnf
    exact ⟨rest,unread,related.imp (writes_grown _ rfl)⟩

theorem Mixed.decide (mixed : Mixed net trusted state) (i : Nat) (fresh : i ∉ state.decided) :
    Mixed net trusted { state with decided := state.decided ++ [i] } := by
  refine { mixed with distinct := ?_,behind := ?_,written := ?_ }
  · exact List.nodup_append_comm.mp (List.nodup_cons.mpr ⟨fresh,mixed.distinct⟩)
  · intro vnf
    rw [List.length_append]
    exact Nat.le_trans (mixed.behind vnf) (Nat.le_add_right _ _)
  · intro vnf
    rw [List.take_append_of_le_length (mixed.behind vnf)]
    exact mixed.written vnf

theorem deliver_writes (i : Nat) (entry : Nat × ClientValue) (found : state.client.submitted[i]? = some entry) (behind : Str)
    (memory : 179 ≤ behind.length) : state.Writes i (LearnerPaxos.deliver entry.2 behind) := by
  refine ⟨?_,entry,found,?_⟩
  · rw [LearnerPaxos.deliver,LearnerPaxos.submitManager,List.length_take_of_le]
    rw [List.length_append]
    omega
  · exact (List.prefix_append _ _).take 179

theorem Mixed.deliver (mixed : Mixed net trusted state) (vnf : Nat) (behind : Str) (ctl : Nat) (value : ClientValue)
    (next : state.value (state.delivered vnf) = some (ctl,value)) (memory : 179 ≤ behind.length) :
    Mixed net trusted { state with
      delivered := Function.update state.delivered vnf (state.delivered vnf + 1)
      unread := Function.update state.unread vnf (state.unread vnf ++ LearnerPaxos.deliver value behind) } := by
  obtain ⟨i,decided,found⟩ := Option.bind_eq_some_iff.mp next
  have within := (List.getElem?_eq_some_iff.mp decided).1
  refine { mixed with behind := ?_,written := ?_ }
  · exact (Function.forall_update_iff state.delivered fun _ count => count ≤ state.decided.length).mpr
      ⟨within,fun other _ => mixed.behind other⟩
  · intro other
    obtain ⟨rest,unread,related⟩ := mixed.written other
    dsimp only
    by_cases same : other = vnf
    · subst same
      refine ⟨rest ++ [LearnerPaxos.deliver value behind],?_,?_⟩
      · rw [Function.update_self,unread,List.flatten_append,List.flatten_singleton]
      · rw [Function.update_self,List.take_add_one,decided,Option.toList_some,← List.append_assoc]
        exact List.rel_append related (.cons (deliver_writes i _ found behind memory) .nil)
    · rw [Function.update_of_ne same,Function.update_of_ne same]
      exact ⟨rest,unread,related⟩

theorem Mixed.recv (mixed : Mixed net trusted state) (vnf : Nat) (tick : Manager.Tick) (running : (state.loops vnf).stopped = false)
    (available : 179 ≤ (state.unread vnf).length) :
    Mixed net trusted { state with
      unread := Function.update state.unread vnf ((state.unread vnf).drop 179)
      loops := Function.update state.loops vnf
        (Manager.iterate (net.hosts vnf) (state.loops vnf) ((state.unread vnf).take 179) tick) } := by
  refine { mixed with written := ?_,consistent := ?_ }
  · intro other
    obtain ⟨rest,unread,related⟩ := mixed.written other
    dsimp only
    by_cases same : other = vnf
    · subst same
      rw [Function.update_self,Function.update_self,Manager.Loop.iterate_handled]
      cases rest with
      | nil =>
        rw [unread] at available
        contradiction
      | cons message rest =>
        have size : message.length = 179 := by
          obtain ⟨_,_,writes,_,_⟩ := List.forall₂_cons_right_iff.mp (List.forall₂_drop_append _ _ _ related)
          exact writes.1
        rw [unread,List.flatten_cons,List.take_left' size,List.drop_left' size]
        refine ⟨rest,rfl,?_⟩
        rw [List.append_assoc]
        exact related
    · rw [Function.update_of_ne same,Function.update_of_ne same]
      exact ⟨rest,unread,related⟩
  · exact (Function.forall_update_iff state.loops fun other loop => loop.Consistent (net.hosts other)).mpr
      ⟨Manager.Loop.iterate_consistent _ _ _ _ (mixed.consistent vnf) running,fun other _ => mixed.consistent other⟩

theorem accept_mixed (input : Input) (mixed : Mixed net trusted state) (trusting : Trusting trusted state input)
    (taken : accept net state input = some after) : Mixed net trusted after := by
  cases input with
  | own event =>
    cases (step_iff net state after event).mp taken with
    | packetIn ctl msg inside => exact mixed.packetIn ctl msg
    | arrive ctl count v ambient positive present => exact mixed.arrive ctl count v ambient
    | decide i submitted fresh => exact mixed.decide i fresh
    | deliver vnf behind ctl value next up => exact mixed.deliver vnf behind ctl value next (trusting.memory vnf behind rfl)
    | recv vnf tick up running available => exact mixed.recv vnf tick running available
  | write conn bytes =>
    rw [← Option.some.inj taken]
    exact mixed.write conn bytes (trusting.apart conn bytes rfl)

theorem accepted_mixed (now : Nat → Rat) (reached : (accepting net now).Reached (Trusting trusted) state) :
    Mixed net trusted state :=
  reached.invariant (start_mixed now) fun _ _ input mixed trusting taken => accept_mixed input mixed trusting taken

/-- What a manager has posted for a value of a controller is what its request asks for. -/
theorem Mixed.posted_for (mixed : Mixed net trusted state) (few : net.numCtls ≤ 253) (vnf k ctl j : Nat)
    (inside : ctl < net.numCtls) (own : trusted ctl) (origin : state.origin k = some (ctl,j))
    (post : Option Manager.Post) (posted : (state.loops vnf).posted[k]? = some post) :
    ∃ request, (channel ctl state.emitted)[j]? = some request ∧
      post = if (Manager.lead (Network.ctlHostBase + ctl) : Int) ∈ net.hosts vnf then
        some ⟨Manager.url (Manager.lead (Network.ctlHostBase + ctl)),request.rule⟩ else none := by
  obtain ⟨message,handled,handles⟩ := (mixed.consistent vnf).result k post posted
  obtain ⟨i,decided,found⟩ := Option.bind_eq_some_iff.mp origin
  obtain ⟨⟨source,value⟩,entry,place⟩ := Option.map_eq_some_iff.mp found
  obtain ⟨rfl,rfl⟩ := Prod.mk.inj place
  have octet : Network.ctlHostBase + source < 256 := by
    simp only [Network.ctlHostBase]
    omega
  have written : state.Writes i message := by
    obtain ⟨rest,_,related⟩ := mixed.written vnf
    obtain ⟨other,taken,writes⟩ := related_left related k message
      (begun_at (List.prefix_append _ rest) handled)
    obtain rfl : i = other := Option.some.inj (decided.symm.trans (begun_at (List.take_prefix _ _) taken))
    exact writes
  obtain ⟨arrivals,served,stream⟩ := mixed.stream
  have texts := values_requested arrivals _ source _ octet (stream source inside own)
  rw [← served] at texts
  obtain ⟨request,made,text⟩ := submitted_request _ _ i source value texts entry
  have window : message = (request.message (str (Network.ctlHostBase + source))).take 179 := by
    obtain ⟨size,same,again,front⟩ := written
    obtain rfl : (source,value) = same := Option.some.inj (entry.symm.trans again)
    have full := List.length_take_of_le (message_long request source)
    rw [text] at front
    rw [← controllerHost_str]
    exact (front.eq_of_length (full.trans size.symm)).symm
  rw [window] at handles
  exact ⟨request,made,Manager.window_post request _ (by omega) (net.hosts vnf) post handles⟩

end Mixed

/-- Whatever comes in on the other connections, managers post only to controllers of their domain,
a post for a request of a trusted controller carries its rule to the controller that the first
digit of its host names, and no such request leads to two posts. -/
theorem posts_unmixed (net : Network) (few : net.numCtls ≤ 253) (now : Nat → Rat) (trusted : Nat → Prop) (state : State)
    (reached : (accepting net now).Reached (Trusting trusted) state) (vnf k : Nat) (post : Manager.Post)
    (posts : state.Posts vnf k post) :
    (∃ host ∈ net.hosts vnf, post.url = Manager.url host) ∧
      ∀ ctl j, ctl < net.numCtls → trusted ctl → state.origin k = some (ctl,j) →
        (∃ request, (channel ctl state.emitted)[j]? = some request ∧
          post = ⟨Manager.url (Manager.lead (Network.ctlHostBase + ctl)),request.rule⟩) ∧
        ∀ other l repeated, state.Posts other l repeated → state.origin l = some (ctl,j) → other = vnf ∧ l = k := by
  have mixed := accepted_mixed now reached
  obtain ⟨message,_,handles⟩ := (mixed.consistent vnf).result k _ posts
  refine ⟨Manager.handleRequest_host _ message post handles,fun ctl j inside own origin => ?_⟩
  obtain ⟨request,made,is⟩ := mixed.posted_for few vnf k ctl j inside own origin _ posts
  split at is
  · rename_i member
    refine ⟨⟨request,made,Option.some.inj is⟩,fun other l repeated again from_same => ?_⟩
    obtain rfl := origin_unique mixed.distinct l k ctl j from_same origin
    obtain ⟨_,_,is_again⟩ := mixed.posted_for few other l ctl j inside own from_same _ again
    split at is_again
    · rename_i theirs
      exact ⟨hosts_unique net vnf other _ member theirs,rfl⟩
    · contradiction
  · contradiction

def forged : Str := List.replicate 177 'x'

def zeros : Str := List.replicate 179 '\x00'

def mixedInputs : List Input := [
  .write 1 ("179".toList ++ forged ++ "#2".toList),.own (.arrive 1 182 [] sampleAmbient),
  .own (.packetIn 0 ConsensusSwitch.teaching),.own (.packetIn 0 ConsensusSwitch.asking),
  .own (.arrive 0 182 [] sampleAmbient),.own (.decide 0),.own (.decide 1),.own (.deliver 0 zeros),
  .own (.deliver 0 zeros),.own (.recv 0 ⟨1,[]⟩),.own (.recv 0 ⟨2,[]⟩)]

theorem mixed_posted : ((accepting ⟨1,1⟩ fun _ => 0).run (start fun _ => 0) mixedInputs).map
    (fun state => ((state.loops 0).posted,state.origin 1)) =
      some ([some ⟨Manager.url 2,forged⟩,some ⟨Manager.url 2,Request.sample.rule⟩],some (0,0)) := by
  decide +kernel

theorem mixed_trusting (state : State) (input : Input) (member : input ∈ mixedInputs) : Trusting (· = 0) state input := by
  constructor
  · intro conn bytes is
    subst is
    simp only [mixedInputs,List.mem_cons,reduceCtorEq,Input.write.injEq,or_false,List.not_mem_nil] at member
    rw [member.1]
    exact Nat.one_ne_zero
  · intro vnf behind is
    subst is
    simp only [mixedInputs,List.mem_cons,reduceCtorEq,Input.own.injEq,Event.deliver.injEq,false_or,or_false,
      List.not_mem_nil] at member
    rcases member with ⟨_,rfl⟩ | ⟨_,rfl⟩ <;> exact Nat.le_of_eq List.length_replicate.symm

/-- Another process has a rule of its own posted; the rule of the controller is posted as asked for. -/
theorem posts_unmixed_forged : ∃ state : State, state.Posts 0 0 ⟨Manager.url 2,forged⟩ ∧
    state.Posts 0 1 ⟨Manager.url 2,Request.sample.rule⟩ ∧
    ∀ other l repeated, state.Posts other l repeated → state.origin l = some (0,0) → other = 0 ∧ l = 1 := by
  obtain ⟨state,ran,facts⟩ := Option.map_eq_some_iff.mp mixed_posted
  obtain ⟨posted,origin⟩ := Prod.mk.inj facts
  have reached := Machine.reached_run _ state _ .initial ran (Machine.Admitted.always _ _ mixed_trusting)
  have forgery : state.Posts 0 0 ⟨Manager.url 2,forged⟩ := by
    rw [State.Posts,posted]
    rfl
  have posts : state.Posts 0 1 ⟨Manager.url 2,Request.sample.rule⟩ := by
    rw [State.Posts,posted]
    rfl
  obtain ⟨_,unmixed⟩ := posts_unmixed ⟨1,1⟩ (by decide) (fun _ => 0) _ state reached 0 1 _ posts
  exact ⟨state,forgery,posts,(unmixed 0 0 (by decide) rfl origin).2⟩

end System
end NfvConsensus
