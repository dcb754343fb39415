import NfvConsensus.Progress

/-! Who gets a rule in the end. Where all rules are short, a settled system has posted each
request once if the first digit that is left of its host names a controller, and to that
controller; and not at all if the digit names none. -/
namespace NfvConsensus
open Python ClientPaxos Foundation.Framing Foundation.Transition Foundation.ReplicatedLog Foundation.Blocks
  Foundation.Related

namespace Manager

theorem lead_le (host : Nat) : lead host ≤ host := by
  unfold lead
  split
  · exact Nat.le_refl _
  · split
    · exact Nat.div_le_self _ _
    · exact Nat.div_le_self _ _

/-- A call of `handle_request` on a window returns only where the rule is short, and posts the
rule if the first digit of the host names a controller of the manager. -/
theorem window_post (request : Request) (host : Nat) (octet : host < 1000) (domain : List Int) (post : Option Post)
    (handles : handleRequest domain ((request.message (str host)).take 179) = .ok post) :
    post = if (lead host : Int) ∈ domain then some ⟨url (lead host),request.rule⟩ else none := by
  have short : request.Short := by
    by_contra long
    obtain ⟨error,raises⟩ := window_long request long (str host) domain
    rw [raises] at handles
    contradiction
  rw [window_short request short host octet,handleRequest_message] at handles
  exact (Except.ok.inj handles).symm

end Manager

namespace System
section Posting
variable {net : Network} {good : Nat → Request → Prop} {state : State}

/-- A call of `handle_request` that has returned was for a short rule, and has posted it if the
first digit of its host names a controller of the manager, to that controller. -/
theorem Sound.posted_rule (sound : Sound net good state) (few : net.numCtls ≤ 253) (vnf k : Nat)
    (post : Option Manager.Post) (posted : (state.loops vnf).posted[k]? = some post) :
    ∃ ctl j request, state.origin k = some (ctl,j) ∧ (channel ctl state.emitted)[j]? = some request ∧
      post = if (Manager.lead (Network.ctlHostBase + ctl) : Int) ∈ net.hosts vnf then
        some ⟨Manager.url (Manager.lead (Network.ctlHostBase + ctl)),request.rule⟩ else none := by
  obtain ⟨message,handled,handles⟩ := (sound.consistent vnf).result k post posted
  obtain ⟨ctl,j,request,origin,placed,window,inside,_⟩ :=
    sound.window few k message (sound.handled_window vnf k message handled)
  have octet : Network.ctlHostBase + ctl < 1000 := by
    simp only [Network.ctlHostBase]
    omega
  rw [window] at handles
  exact ⟨ctl,j,request,origin,placed,Manager.window_post request _ octet (net.hosts vnf) post handles⟩

theorem Sound.posted_for (sound : Sound net good state) (few : net.numCtls ≤ 253) (vnf k ctl j : Nat) (request : Request)
    (origin : state.origin k = some (ctl,j)) (made : (channel ctl state.emitted)[j]? = some request)
    (post : Option Manager.Post) (posted : (state.loops vnf).posted[k]? = some post) :
    post = if (Manager.lead (Network.ctlHostBase + ctl) : Int) ∈ net.hosts vnf then
      some ⟨Manager.url (Manager.lead (Network.ctlHostBase + ctl)),request.rule⟩ else none := by
  obtain ⟨other,place,same,from_log,again,is⟩ := sound.posted_rule few vnf k post posted
  obtain ⟨rfl,rfl⟩ := Prod.mk.inj (Option.some.inj (origin.symm.trans from_log))
  obtain rfl : request = same := Option.some.inj (made.symm.trans again)
  exact is

theorem hosts_unique (net : Network) (vnf other : Nat) (host : Int) (mine : host ∈ net.hosts vnf)
    (theirs : host ∈ net.hosts other) : other = vnf := by
  obtain ⟨place,inBlock,named⟩ := (net.mem_hosts vnf host).mp mine
  obtain ⟨place',inOther,named'⟩ := (net.mem_hosts other host).mp theirs
  obtain rfl : place = place' := by omega
  exact block_unique _ _ other vnf place inOther inBlock

theorem up_manager (served : 1 ≤ net.numVnfs) (ctl : Nat) (inside : ctl < net.numCtls) :
    ∃ vnf, Up net vnf ∧ ctl ∈ block net.numCtls net.numVnfs vnf := by
  obtain ⟨vnf,part,member⟩ := block_exists net.numCtls net.numVnfs ctl served inside
  exact ⟨vnf,⟨part,(block_nonempty _ _ vnf part).mp (List.ne_nil_of_mem member)⟩,member⟩

theorem Settled.posted (settled : Settled net state) (few : net.numCtls ≤ 253) (sound : Sound net AllShort state) (vnf ctl j : Nat)
    (up : Up net vnf) (request : Request) (made : (channel ctl state.emitted)[j]? = some request) :
    ∃ k post, state.origin k = some (ctl,j) ∧ (state.loops vnf).posted[k]? = some post := by
  have running := running_short sound few vnf
  have asked : (ctl,j) ∈ state.log.asked := (List.getElem?_eq_some_iff.mp made).1
  obtain ⟨k,found⟩ := List.mem_iff_getElem?.mp (settled.asked_decided few sound (ctl,j) asked)
  have origin := (sound.decided_origin k).symm.trans found
  rw [← settled.applied few sound vnf up running] at found
  obtain ⟨message,handled,_⟩ := related_right (sound.handled_history few vnf) k _ found
  obtain ⟨post,posted,_⟩ := related_right ((sound.consistent vnf).running running) k message handled
  exact ⟨k,post,origin,posted⟩

end Posting

/-- In every run, a post carries the rule of a request unaltered and goes to the controller that
the first digit of its host names, and no request leads to two posts, of one manager or of two. -/
theorem posts_once (net : Network) (few : net.numCtls ≤ 253) (now : Nat → Rat) (state : State)
    (reached : (system net now).Reachable state) (vnf k : Nat) (post : Manager.Post) (posts : state.Posts vnf k post) :
    ∃ ctl j request, state.origin k = some (ctl,j) ∧ (channel ctl state.emitted)[j]? = some request ∧
      post = ⟨Manager.url (Manager.lead (Network.ctlHostBase + ctl)),request.rule⟩ ∧
      ∀ other l repeated, state.Posts other l repeated → state.origin l = some (ctl,j) → other = vnf ∧ l = k := by
  have sound := reachable_sound few now reached
  obtain ⟨ctl,j,request,origin,placed,is⟩ := sound.posted_rule few vnf k _ posts
  split at is
  · rename_i member
    refine ⟨ctl,j,request,origin,placed,Option.some.inj is,fun other l repeated again from_same => ?_⟩
    obtain rfl := sound.origin_injective l k ctl j from_same origin
    have is_again := sound.posted_for few other l ctl j request from_same placed _ again
    split at is_again
    · rename_i theirs
      exact ⟨hosts_unique net vnf other _ member theirs,rfl⟩
    · contradiction
  · contradiction

theorem posts_once_sample : ∃ (state : State) (ctl j : Nat), state.Posts 0 0 ⟨Manager.url 2,Request.sample.rule⟩ ∧
    state.origin 0 = some (ctl,j) ∧
    ∀ other l repeated, state.Posts other l repeated → state.origin l = some (ctl,j) → other = 0 ∧ l = 0 := by
  obtain ⟨state,ran,posted⟩ := Option.map_eq_some_iff.mp sample_delivered
  have posts : state.Posts 0 0 ⟨Manager.url 2,Request.sample.rule⟩ := by
    rw [State.Posts,posted]
    rfl
  obtain ⟨ctl,j,_,origin,_,_,once⟩ := posts_once ⟨1,1⟩ (by decide) (fun _ => 0) state
    (Machine.reachable_run _ state _ .initial ran) 0 0 _ posts
  exact ⟨state,ctl,j,posts,origin,once⟩

/-- Where all rules asked for are short, each request has led to exactly one post once the
system has settled, by the manager of the controller that the first digit of its host names and
to that controller; and to none if the digit is 1. -/
theorem settled_posts (net : Network) (few : net.numCtls ≤ 253) (served : 1 ≤ net.numVnfs) (now : Nat → Rat) (state : State)
    (reached : (system net now).Reached (Requests AllShort) state) (settled : Settled net state) (ctl j : Nat)
    (request : Request) (made : (channel ctl state.emitted)[j]? = some request) :
    if 2 ≤ Manager.lead (Network.ctlHostBase + ctl) then
      ∃ vnf k, (Manager.lead (Network.ctlHostBase + ctl) : Int) ∈ net.hosts vnf ∧ state.origin k = some (ctl,j) ∧
        state.Posts vnf k ⟨Manager.url (Manager.lead (Network.ctlHostBase + ctl)),request.rule⟩ ∧
        ∀ other l post, state.Posts other l post → state.origin l = some (ctl,j) → other = vnf ∧ l = k
    else ∀ vnf k post, state.Posts vnf k post → state.origin k ≠ some (ctl,j) := by
  have sound := reached_sound few now reached
  have inside := (sound.requests _ ((mem_channel _ _ _).mp (List.mem_of_getElem? made))).1
  split
  · rename_i named
    have low := Manager.lead_le (Network.ctlHostBase + ctl)
    have base : Network.ctlHostBase = 2 := rfl
    obtain ⟨vnf,up,mine⟩ := up_manager served (Manager.lead (Network.ctlHostBase + ctl) - 2) (by omega)
    obtain ⟨k,post,origin,posted⟩ := settled.posted few sound vnf ctl j up request made
    have member : (Manager.lead (Network.ctlHostBase + ctl) : Int) ∈ net.hosts vnf :=
      (net.mem_hosts vnf _).mpr ⟨_,mine,by omega⟩
    have is := sound.posted_for few vnf k ctl j request origin made post posted
    rw [if_pos member] at is
    refine ⟨vnf,k,member,origin,posted.trans (congrArg some is),?_⟩
    intro other l again posts from_same
    have is_again := sound.posted_for few other l ctl j request from_same made _ posts
    split at is_again
    · rename_i theirs
      exact ⟨hosts_unique net vnf other _ member theirs,sound.origin_injective l k ctl j from_same origin⟩
    · contradiction
  · rename_i unnamed
    intro vnf k post posts origin
    have is := sound.posted_for few vnf k ctl j request origin made _ posts
    split at is
    · rename_i member
      have low := hosts_low net vnf _ member
      omega
    · contradiction

theorem onward_requests (good : Nat → Request → Prop) (state : State) (event : Event) (onward : Onward state event) :
    Requests good state event := by
  intro ctl msg _ is_packet
  exact absurd is_packet (onward ctl msg)

/-- A run has asked for good rules only if all that it has made are good. -/
theorem made_requests (net : Network) (now : Nat → Rat) (good : Nat → Request → Prop) (first later : State)
    (events : List Event) (ran : (system net now).run first events = some later)
    (made : ∀ entry ∈ later.emitted, good entry.1 entry.2) : (system net now).Admitted (Requests good) first events := by
  induction events generalizing first with
  | nil => trivial
  | cons event events ih =>
    obtain ⟨middle,taken,rest⟩ := Option.bind_eq_some_iff.mp ran
    refine ⟨?_,fun other same => ?_⟩
    · intro ctl msg request is_packet asked
      subst is_packet
      have grown := run_emitted now middle later events rest
      cases (step_iff net first middle (.packetIn ctl msg)).mp taken with
      | packetIn _ _ inside =>
        have member : (ctl,request) ∈ first.emitted ++
            (ConsensusSwitch.requested (first.tables ctl) msg).toList.map fun request => (ctl,request) := by
          rw [asked]
          exact List.mem_append_right _ (List.mem_singleton.mpr rfl)
        exact made _ (grown.subset member)
    · obtain rfl : middle = other := Option.some.inj (taken.symm.trans same)
      exact ih middle rest

theorem sample_made : (sampleRun ⟨1,1⟩ 0 182 ConsensusSwitch.asking).map State.emitted = some [(0,Request.sample)] := by
  decide +kernel

theorem settled_posts_sample : ∃ state vnf k, Settled ⟨1,1⟩ state ∧ (2 : Int) ∈ (⟨1,1⟩ : Network).hosts vnf ∧
    state.origin k = some (0,0) ∧ state.Posts vnf k ⟨Manager.url 2,Request.sample.rule⟩ := by
  have few : (⟨1,1⟩ : Network).numCtls ≤ 253 := by decide
  obtain ⟨first,ran,emitted⟩ := Option.map_eq_some_iff.mp sample_made
  have short : ∀ entry ∈ first.emitted, AllShort entry.1 entry.2 := by
    rw [emitted,List.forall_mem_singleton]
    exact ⟨by decide,by decide⟩
  have reached := Machine.reached_run _ first _ .initial ran (made_requests ⟨1,1⟩ (fun _ => 0) AllShort _ first _ ran short)
  obtain ⟨events,later,onward,admitted,settled⟩ := settled_later few _ first (reachable_sound few _
    (Machine.reachable_run _ first _ .initial ran))
  have reached_later := Machine.reached_run first later events reached onward
    (Machine.Admitted.weaken (onward_requests AllShort) first events admitted)
  obtain ⟨more,whole⟩ := run_emitted _ first later events onward
  have made : (channel 0 later.emitted)[0]? = some Request.sample := by
    rw [← whole,emitted]
    rfl
  obtain ⟨vnf,k,member,origin,posts,_⟩ := settled_posts ⟨1,1⟩ few (by decide) _ later reached_later settled 0 0 Request.sample made
  exact ⟨later,vnf,k,settled,member,origin,posts⟩

end System
end NfvConsensus
