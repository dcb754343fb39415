import NfvConsensus.Delivery

/-! The posts of the managers, over all runs of the system. They are faithful as long as no
short rule is asked for by a controller whose octet loses digits that matter, and the
managers keep running as long as all rules are short. -/
namespace NfvConsensus.System
open Python ClientPaxos Foundation.Framing Foundation.Transition Foundation.Windows Foundation.Blocks

section Windows
variable {net : Network} {good : Nat → Request → Prop} {state : State}

theorem Sound.window (sound : Sound net good state) (few : net.numCtls ≤ 253) (k : Nat) (window : Str)
    (found : state.windows[k]? = some window) :
    ∃ ctl j request, state.origin k = some (ctl,j) ∧ (channel ctl state.emitted)[j]? = some request ∧
      window = (request.message (str (Network.ctlHostBase + ctl))).take 179 ∧ ctl < net.numCtls ∧ good ctl request := by
  rw [State.windows,List.getElem?_map,Option.map_eq_some_iff] at found
  obtain ⟨i,decided,rfl⟩ := found
  obtain ⟨⟨ctl,value⟩,entry⟩ : ∃ entry, state.client.submitted[i]? = some entry :=
    ⟨_,List.getElem?_eq_getElem (sound.known i (List.mem_of_getElem? decided))⟩
  obtain ⟨request,place,text,inside,satisfied⟩ := sound.submitted few i ctl value entry
  refine ⟨ctl,_,request,?_,place,?_,inside,satisfied⟩
  · rw [State.origin,decided,Option.bind_some,entry,Option.map_some]
  · rw [entry,Option.map_some,Option.getD_some,text,controllerHost_str]

theorem Sound.handled_window (sound : Sound net good state) (vnf k : Nat) (message : Str)
    (handled : (state.loops vnf).handled[k]? = some message) : state.windows[k]? = some message := by
  obtain ⟨rest,whole,_⟩ := sound.written vnf
  have bound := (List.getElem?_eq_some_iff.mp handled).1
  have within : (state.windows.take (state.delivered vnf))[k]? = some message := by
    rw [← whole,List.getElem?_append_left bound,handled]
  rw [List.getElem?_take] at within
  split at within
  · exact within
  · contradiction

theorem origin_unique (distinct : state.decided.Nodup) (k l ctl j : Nat) (first : state.origin k = some (ctl,j))
    (second : state.origin l = some (ctl,j)) : k = l := by
  obtain ⟨i,decided,found⟩ := Option.bind_eq_some_iff.mp first
  obtain ⟨⟨_,value⟩,entry,place⟩ := Option.map_eq_some_iff.mp found
  obtain ⟨i',decided',found'⟩ := Option.bind_eq_some_iff.mp second
  obtain ⟨⟨_,value'⟩,entry',place'⟩ := Option.map_eq_some_iff.mp found'
  obtain ⟨rfl,before⟩ := Prod.mk.inj place
  obtain ⟨rfl,before'⟩ := Prod.mk.inj place'
  have same := channel_place _ i i' _ _ _ entry entry' (before.trans before'.symm)
  rw [← same] at decided'
  have bound := (List.getElem?_eq_some_iff.mp decided).1
  exact (List.getElem?_inj bound distinct).mp (decided.trans decided'.symm)

theorem Sound.origin_injective (sound : Sound net good state) (k l ctl j : Nat) (first : state.origin k = some (ctl,j))
    (second : state.origin l = some (ctl,j)) : k = l := origin_unique sound.distinct k l ctl j first second

end Windows

/-- No short rule is asked for by a controller whose first digit names another controller. -/
def Legible (ctl : Nat) (request : Request) : Prop := request.Short → ¬Misread (Network.ctlHostBase + ctl)

section Posts
variable {net : Network} {state : State}

theorem lead_legible (host : Nat) (octet : host ≤ 254) (legible : ¬Misread host) :
    Manager.lead host = host ∨ Manager.lead host < 2 := by
  simp only [Misread,not_or,not_and_or] at legible
  unfold Manager.lead
  split
  · exact .inl rfl
  · split
    · right
      omega
    · right
      omega

theorem hosts_low (net : Network) (vnf : Nat) (x : Int) (member : x ∈ net.hosts vnf) : 2 ≤ x := by
  obtain ⟨j,_,rfl⟩ := (net.mem_hosts vnf x).mp member
  simp only [Network.ctlHostBase]
  omega

theorem post_request (sound : Sound net Legible state) (few : net.numCtls ≤ 253) (vnf k : Nat) (post : Manager.Post)
    (posts : state.Posts vnf k post) :
    ∃ ctl j request, state.origin k = some (ctl,j) ∧ (channel ctl state.emitted)[j]? = some request ∧
      post = ⟨Manager.url (Network.ctlHostBase + ctl : Nat),request.rule⟩ ∧ ctl ∈ block net.numCtls net.numVnfs vnf := by
  obtain ⟨message,handled,handles⟩ := (sound.consistent vnf).result k (some post) posts
  obtain ⟨ctl,j,request,origin,place,window,inside,legible⟩ :=
    sound.window few k message (sound.handled_window vnf k message handled)
  have octet : Network.ctlHostBase + ctl ≤ 254 := by
    simp only [Network.ctlHostBase]
    omega
  refine ⟨ctl,j,request,origin,place,?_⟩
  rw [window] at handles
  by_cases short : request.Short
  · rw [Manager.window_short request short _ (by omega),Manager.handleRequest_message] at handles
    split at handles
    · rename_i member
      have low := hosts_low net vnf _ member
      have same : Manager.lead (Network.ctlHostBase + ctl) = Network.ctlHostBase + ctl := by
        rcases lead_legible _ octet (legible short) with same | small
        · exact same
        · omega
      rw [same] at handles member
      obtain ⟨other,inBlock,equal⟩ := (net.mem_hosts vnf _).mp member
      obtain rfl : ctl = other := by omega
      exact ⟨(Option.some.inj (Except.ok.inj handles)).symm,inBlock⟩
    · simp at handles
  · obtain ⟨error,raises⟩ := Manager.window_long request short (str (Network.ctlHostBase + ctl)) (net.hosts vnf)
    rw [raises] at handles
    contradiction

end Posts

/-- In every run in which no controller with an octet in 20..99 or 200..254 asks for a rule
between two ports of one digit, posts are faithful and never repeated. -/
theorem rules_delivered (net : Network) (few : net.numCtls ≤ 253) (now : Nat → Rat) (state : State)
    (reached : (system net now).Reached (Requests Legible) state) : Delivers state := by
  have sound := reached_sound few now reached
  refine ⟨?_,?_⟩
  · intro vnf k post posts
    obtain ⟨ctl,j,request,origin,place,is,_⟩ := post_request sound few vnf k post posts
    refine ⟨ctl,j,request,origin,place,?_⟩
    rw [is,Network.address_url]
  · intro vnf k post other l repeated posts again same
    obtain ⟨ctl,j,_,origin,_,_,inBlock⟩ := post_request sound few vnf k post posts
    obtain ⟨ctl',j',_,origin',_,_,inOther⟩ := post_request sound few other l repeated again
    have together : (ctl,j) = (ctl',j') := Option.some.inj (origin.symm.trans (same.trans origin'))
    obtain ⟨rfl,rfl⟩ := Prod.mk.inj together
    exact ⟨block_unique _ _ vnf other ctl inBlock inOther,sound.origin_injective k l ctl j origin origin'⟩

-- One request, from its packet-ins to the manager that reads it.
def sampleAmbient (_ : Nat) : Ambient := ⟨⟨0,0⟩,[],['\x00']⟩

def sampleEvents (ctl count : Nat) (asking : PacketIn) : List Event := [
  .packetIn ctl ConsensusSwitch.teaching,.packetIn ctl asking,.arrive ctl count [] sampleAmbient,
  .decide 0,.deliver 0 [],.recv 0 ⟨1,[]⟩]

def sampleRun (net : Network) (ctl count : Nat) (asking : PacketIn) : Option State :=
  (system net fun _ => 0).run (start fun _ => 0) (sampleEvents ctl count asking)

theorem sample_delivered : (sampleRun ⟨1,1⟩ 0 182 ConsensusSwitch.asking).map (fun state => (state.loops 0).posted) =
    some [some ⟨Manager.url 2,Request.sample.rule⟩] := by
  decide +kernel

theorem rules_delivered_sample : ∃ state, sampleRun ⟨1,1⟩ 0 182 ConsensusSwitch.asking = some state ∧
    (state.loops 0).posted = [some ⟨Manager.url 2,Request.sample.rule⟩] ∧ Delivers state := by
  obtain ⟨state,ran,posted⟩ := Option.map_eq_some_iff.mp sample_delivered
  have legible : (system ⟨1,1⟩ fun _ => 0).Admitted (Requests Legible) (start fun _ => 0)
      (sampleEvents 0 182 ConsensusSwitch.asking) := by
    apply Machine.Admitted.always
    intro before event member ctl msg request is_packet _ _
    subst is_packet
    simp only [sampleEvents,List.mem_cons,Event.packetIn.injEq,reduceCtorEq,List.not_mem_nil,or_false] at member
    obtain rfl : ctl = 0 := by
      rcases member with first | second
      · exact first.1
      · exact second.1
    simp [Misread,Network.ctlHostBase]
  refine ⟨state,ran,posted,rules_delivered ⟨1,1⟩ (by decide) (fun _ => 0) state ?_⟩
  exact Machine.reached_run _ state _ .initial ran legible

theorem sample_misread : (sampleRun ⟨19,1⟩ 18 183 ConsensusSwitch.asking).map
    (fun state => ((state.loops 0).posted,state.origin 0)) =
      some ([some ⟨Manager.url 2,Request.sample.rule⟩],some (18,0)) := by
  decide +kernel

/-- The rule that the controller at 172.17.0.20 asks for is posted to 172.17.0.2. -/
theorem rule_misrouted : ∃ state, (system ⟨19,1⟩ fun _ => 0).Reachable state ∧
    state.Posts 0 0 ⟨Manager.url 2,Request.sample.rule⟩ ∧ state.origin 0 = some (18,0) ∧ ¬Delivers state := by
  obtain ⟨state,ran,facts⟩ := Option.map_eq_some_iff.mp sample_misread
  obtain ⟨posted,origin⟩ := Prod.mk.inj facts
  have posts : state.Posts 0 0 ⟨Manager.url 2,Request.sample.rule⟩ := by
    rw [State.Posts,posted]
    rfl
  refine ⟨state,Machine.reachable_run _ state _ .initial ran,posts,origin,fun delivers => ?_⟩
  obtain ⟨ctl,j,_,from_ctl,_,is⟩ := delivers.faithful 0 0 _ posts
  obtain ⟨rfl,rfl⟩ := Prod.mk.inj (Option.some.inj (from_ctl.symm.trans origin))
  have urls := congrArg Manager.Post.url is
  have apart : Manager.url 2 ≠ Manager.url 20 := by decide +kernel
  exact apart (urls.trans (Network.address_url 20).symm)

def AllShort (_ctl : Nat) (request : Request) : Prop := request.Short

section Running
variable {net : Network} {state : State}

/-- What is left unread is whole windows. -/
theorem Sound.available {good : Nat → Request → Prop} (sound : Sound net good state) (few : net.numCtls ≤ 253) (vnf : Nat)
    (waiting : state.unread vnf ≠ []) : 179 ≤ (state.unread vnf).length := by
  obtain ⟨rest,handled,unread⟩ := sound.written vnf
  cases rest with
  | nil => exact absurd unread waiting
  | cons window rest =>
    have size := sound.unread_sized few vnf _ handled window (by simp)
    rw [unread,List.flatten_cons,List.length_append,size]
    omega

theorem Sound.drained {good : Nat → Request → Prop} (sound : Sound net good state) (few : net.numCtls ≤ 253) (vnf : Nat)
    (delivered : state.delivered vnf = state.decided.length) (drained : state.unread vnf = []) :
    (state.loops vnf).handled = state.windows := by
  obtain ⟨rest,handled,unread⟩ := sound.written vnf
  have sized := sound.unread_sized few vnf rest handled
  have none : rest = [] := by
    cases rest with
    | nil => rfl
    | cons window rest =>
      have size := sized window (by simp)
      have empty : window ++ rest.flatten = [] := unread.symm.trans drained
      rw [(List.append_eq_nil_iff.mp empty).1] at size
      contradiction
  have count : state.windows.length = state.decided.length := by rw [State.windows,List.length_map]
  rw [none,List.append_nil,delivered,← count,List.take_length] at handled
  exact handled

theorem handled_short (sound : Sound net AllShort state) (few : net.numCtls ≤ 253) (vnf : Nat) (message : Str)
    (handled : message ∈ (state.loops vnf).handled) :
    ∃ (request : Request) (digit : Nat), message = request.message (str digit) := by
  obtain ⟨k,found⟩ := List.mem_iff_getElem?.mp handled
  obtain ⟨ctl,_,request,_,_,window,inside,short⟩ :=
    sound.window few k message (sound.handled_window vnf k message found)
  have octet : Network.ctlHostBase + ctl < 1000 := by
    simp only [Network.ctlHostBase]
    omega
  exact ⟨request,_,window.trans (Manager.window_short request short _ octet)⟩

theorem running_short (sound : Sound net AllShort state) (few : net.numCtls ≤ 253) (vnf : Nat) :
    (state.loops vnf).stopped = false := by
  cases stopped : (state.loops vnf).stopped with
  | false => rfl
  | true =>
    obtain ⟨front,last,error,handled,_,raises⟩ := (sound.consistent vnf).ended stopped
    obtain ⟨request,digit,rfl⟩ := handled_short sound few vnf last (by simp [handled])
    rw [Manager.handleRequest_message] at raises
    contradiction

end Running

/-- In every run in which every rule asked for is between two ports of one digit, no manager
stops, and all of them process whatever is decided. -/
theorem managers_process (net : Network) (few : net.numCtls ≤ 253) (now : Nat → Rat) (state : State)
    (reached : (system net now).Reached (Requests AllShort) state) : Processes net state := by
  have sound := reached_sound few now reached
  refine ⟨fun vnf => running_short sound few vnf,?_,?_,?_⟩
  · intro vnf message handled
    obtain ⟨request,digit,rfl⟩ := handled_short sound few vnf message handled
    refine ⟨request.rule,str digit,digit,?_,int_str digit⟩
    rw [Request.message,split_first _ _ _ request.rule_no_hash,split_absent _ _ (str_absent digit '#')]
  · intro vnf delivered drained
    have results := (sound.consistent vnf).running (running_short sound few vnf)
    rw [← results.length_eq,sound.drained few vnf delivered drained,State.windows,List.length_map]
  · intro vnf up tick waiting
    have available := sound.available few vnf waiting
    have running := running_short sound few vnf
    simp [step,up,running,available]

theorem managers_process_sample : ∃ state, sampleRun ⟨1,1⟩ 0 182 ConsensusSwitch.asking = some state ∧
    (state.loops 0).posted.length = 1 ∧ Processes ⟨1,1⟩ state := by
  obtain ⟨state,ran,posts⟩ := Option.map_eq_some_iff.mp sample_delivered
  have posted : (state.loops 0).posted.length = 1 := congrArg List.length posts
  have short : (system ⟨1,1⟩ fun _ => 0).Admitted (Requests AllShort) (start fun _ => 0)
      (sampleEvents 0 182 ConsensusSwitch.asking) := by
    refine ⟨?_,fun taught taken => ⟨?_,fun next _ => ?_⟩⟩
    · intro ctl msg request is_packet asked
      obtain ⟨rfl,rfl⟩ := Event.packetIn.inj is_packet
      have none : ConsensusSwitch.requested ∅ ConsensusSwitch.teaching = some request := asked
      rw [ConsensusSwitch.teaching_unasked] at none
      exact absurd none (Option.some_ne_none request).symm
    · intro ctl msg request is_packet asked
      obtain ⟨rfl,rfl⟩ := Event.packetIn.inj is_packet
      have table : taught.tables 0 = ConsensusSwitch.learned ∅ ConsensusSwitch.teaching := by
        simp only [system,step,Nat.zero_lt_one,if_true,Option.some.injEq] at taken
        rw [← taken]
        rfl
      rw [table,ConsensusSwitch.asking_requested] at asked
      obtain rfl := Option.some.inj asked
      exact ⟨by decide,by decide⟩
    · apply Machine.Admitted.always
      intro before event member ctl msg request is_packet _
      subst is_packet
      simp at member
  refine ⟨state,ran,posted,managers_process ⟨1,1⟩ (by decide) (fun _ => 0) state ?_⟩
  exact Machine.reached_run _ state _ .initial ran short

theorem sample_stopped : (sampleRun ⟨1,1⟩ 0 183
    (ConsensusSwitch.samplePacket 10 Request.sample.dst ConsensusSwitch.otherMac)).map
      (fun state => (state.loops 0).stopped) = some true := by
  decide +kernel

/-- A rule that is asked for at port 10 stops the manager. -/
theorem manager_stopped : ∃ state, (system ⟨1,1⟩ fun _ => 0).Reachable state ∧
    (state.loops 0).stopped = true ∧ ¬Processes ⟨1,1⟩ state := by
  obtain ⟨state,ran,stopped⟩ := Option.map_eq_some_iff.mp sample_stopped
  refine ⟨state,Machine.reachable_run _ state _ .initial ran,stopped,fun processes => ?_⟩
  have running := processes.running 0
  rw [stopped] at running
  exact Bool.noConfusion running

end NfvConsensus.System
