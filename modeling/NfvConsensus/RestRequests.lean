import NfvConsensus.RestRoutes

/-! What one request to the REST interface can do, once a route has bound the variables of its path.
It makes at most one call, on the datapath that it names, and only a command changes anything. -/
namespace NfvConsensus.OfctlRest
open Python

theorem commands_change : ∀ route ∈ mapper, .get ∈ route.method → ∀ action, route.action ≠ .command action := by
  have none : ∀ route ∈ mapper, .get ∈ route.method → (match route.action with
      | .command _ => false
      | _ => true) = true := by decide +kernel
  intro route member gets action is
  have other := none route member gets
  rw [is] at other
  contradiction

/-- The arguments without which an action cannot be called. -/
def Action.needs : Action → List Str
  | .getDpids => []
  | .stats _ => ["dpid".toList]
  | .command .modFlowEntry => ["cmd".toList]
  | .command .modMeterEntry => ["cmd".toList]
  | .command .modGroupEntry => ["cmd".toList]
  | .command .modPortBehavior => ["cmd".toList]
  | .command _ => []

theorem mapper_needs : ∀ route ∈ mapper, ∀ name ∈ route.action.needs, name ∈ route.variables := by
  decide +kernel

theorem bound_lookup (args : Args) (name : Str) (bound : name ∈ args.map Prod.fst) : ∃ value, args.lookup name = some value := by
  induction args with
  | nil => contradiction
  | cons arg args ih =>
    rw [List.lookup_cons]
    cases same : name == arg.1 with
    | true => exact ⟨arg.2,rfl⟩
    | false =>
      rcases List.mem_cons.mp bound with first | later
      · rw [first,beq_self_eq_true] at same
        contradiction
      · exact ih later

section Serving
variable {ρ : Type} (env : Environment ρ) (literal : Str → Except Error Value)

def LibraryCall.Changes : LibraryCall → Prop
  | .query _ _ _ => False
  | _ => True

/-- The number under which an action looks for its datapath. -/
def Named (action : Action) (args : Args) (body : Str) (id : Int) : Prop :=
  match action with
  | .getDpids => False
  | .stats _ => ∃ dpid, args.lookup "dpid".toList = some dpid ∧ (Value.str dpid).intOfStr = .ok id
  | .command _ => ∃ parsed dpid, parseCommand literal args body = .ok (parsed,some dpid) ∧ dpid.intOfStr = .ok id

/-- What the parser of the wrapper, or `body.get`, raises for a body. -/
def Unparsed (action : Action) (args : Args) (body : Str) (error : Error) : Prop :=
  match action with
  | .getDpids => False
  | .stats _ => env.json body = .error error
  | .command _ => parseCommand literal args body = .error error

def finish (action : Action) : ρ → Except Error Unit :=
  match action with
  | .stats _ => env.dumps
  | _ => fun _ => .ok ()

/-- What comes of a call: the function returns, and for a query its result is dumped. -/
def outcome (action : Action) (made : Made) : Except Error Unit :=
  env.library made.dp.ofpVersion made >>= finish env action

/-- At most one call is made, on the registered datapath that the request names, by a command and
not by a GET if it changes anything. The response is 200 exactly if that call returns,
or if the datapaths are listed, which takes no call; and an exception gets out only where
the body or the call has raised it, so none for an argument that is missing. -/
structure Answered (action : Action) (method : Method) (args : Args) (body : Str) (answer : Answer) : Prop where
  once : answer.calls.length ≤ 1
  named : ∀ made ∈ answer.calls, ∃ id, Named literal action args body id ∧ env.dpset id = some made.dp ∧
    (made.call.Changes ↔ ∃ command, action = .command command)
  reads : method = .get → ∀ made ∈ answer.calls, ¬made.call.Changes
  succeeds : answer.response = .ok 200 ↔
    action = .getDpids ∨ ∃ made ∈ answer.calls, outcome env action made = .ok ()
  raises : ∀ error, answer.response = .error error →
    Unparsed env literal action args body error ∨ ∃ made ∈ answer.calls, outcome env action made = .error error

/-- Either no call is made, and the request fails, or one for a registered datapath of the number. -/
inductive Acts (action : Action) (args : Args) (body : Str) : Answer → Prop
  | nothing (response : Except Error Nat) (fails : response ≠ .ok 200)
      (raises : ∀ error, response = .error error → Unparsed env literal action args body error) :
      Acts action args body ⟨[],response⟩
  | called (id : Int) (made : Made) (found : Named literal action args body id) (registered : env.dpset id = some made.dp)
      (kind : made.call.Changes ↔ ∃ command, action = .command command) :
      Acts action args body ⟨[made],respond ((outcome env action made).mapError .error)⟩

variable {env literal}

theorem respond_ok (result : Except Refusal Unit) : respond result = .ok 200 ↔ result = .ok () := by
  unfold respond
  split <;> simp

theorem respond_error (result : Except Refusal Unit) (error : Error) (raised : respond result = .error error) :
    result = .error (.error error) ∧ error ≠ .valueError ∧ error ≠ .attributeError := by
  unfold respond at raised
  split at raised
  · contradiction
  · contradiction
  · contradiction
  · rename_i other uncaught unlisted
    obtain rfl := Except.error.inj raised
    exact ⟨rfl,uncaught,unlisted⟩
  · contradiction
  · contradiction

theorem Acts.refused {action : Action} {args : Args} {body : Str} (response : Nat) (fails : response ≠ 200) :
    Acts env literal action args body ⟨[],.ok response⟩ :=
  .nothing _ (by simpa using fails) (by simp)

theorem invoke_acts {action : Action} {args : Args} {body : Str} (id : Int) (dp : Datapath)
    (chosen : Except Refusal LibraryCall) (found : Named literal action args body id)
    (registered : env.dpset id = some dp)
    (kind : ∀ call, chosen = .ok call → (call.Changes ↔ ∃ command, action = .command command))
    (raises : ∀ error, chosen = .error (.error error) → error ≠ .valueError → error ≠ .attributeError →
      Unparsed env literal action args body error) :
    Acts env literal action args body (invoke env (finish env action) dp chosen) := by
  have fails (refusal : Refusal) : respond (.error refusal) ≠ .ok 200 := by
    rw [ne_eq,respond_ok]
    simp
  unfold invoke
  split
  · rename_i refusal
    refine .nothing _ (fails refusal) fun error raised => ?_
    obtain ⟨is,uncaught,unlisted⟩ := respond_error _ error raised
    exact raises error (by rw [Except.error.inj is]) uncaught unlisted
  · split
    · exact .called id ⟨dp,_⟩ found registered (kind _ rfl)
    · exact .refused 501 (by decide)

theorem withDatapath_acts {action : Action} {args : Args} {body : Str} (dpid : Value) (use : Datapath → Answer)
    (acts : ∀ id dp, dpid.intOfStr = .ok id → env.dpset id = some dp → Acts env literal action args body (use dp)) :
    Acts env literal action args body (withDatapath env dpid use) := by
  unfold withDatapath
  split
  · exact .refused 400 (by decide)
  · rename_i error uncaught raised
    exact absurd (dpid.intOfStr_error error raised) uncaught
  · rename_i id number
    split
    · exact .refused 404 (by decide)
    · rename_i dp registered
      exact acts id dp number registered

theorem queryFlow_query (json : Str → Except Error Value) (action : StatsAction) (body : Str) (call : LibraryCall)
    (chosen : queryFlow json action body = .ok call) : ¬call.Changes := by
  unfold queryFlow at chosen
  split at chosen
  · contradiction
  · rw [← Except.ok.inj chosen]
    exact not_false

theorem queryFlow_error (json : Str → Except Error Value) (action : StatsAction) (body : Str) (error : Error)
    (raised : queryFlow json action body = .error error) : json body = .error error := by
  unfold queryFlow at raised
  split at raised
  · rename_i other parsed
    split at parsed
    · contradiction
    · rw [parsed,Except.error.inj raised]
  · contradiction

theorem statsCall_query (json : Str → Except Error Value) (action : StatsAction) (dp : Datapath) (args : Args) (body : Str)
    (call : LibraryCall) (chosen : statsCall json action dp args body = .ok call) : ¬call.Changes := by
  unfold statsCall at chosen
  dsimp only at chosen
  split at chosen
  · exact queryFlow_query json _ body call chosen
  · exact queryFlow_query json _ body call chosen
  · exact queryFlow_query json _ body call chosen
  all_goals
    rw [← Except.ok.inj chosen]
    exact not_false

theorem statsCall_error (json : Str → Except Error Value) (action : StatsAction) (dp : Datapath) (args : Args) (body : Str)
    (error : Error) (raised : statsCall json action dp args body = .error error) : json body = .error error := by
  unfold statsCall at raised
  dsimp only at raised
  split at raised
  · exact queryFlow_error json _ body error raised
  · exact queryFlow_error json _ body error raised
  · exact queryFlow_error json _ body error raised
  all_goals contradiction

theorem mapError_ok {ε φ α : Type} (wrap : ε → φ) (result : Except ε α) (value : α) :
    result.mapError wrap = .ok value ↔ result = .ok value := by
  cases result <;> simp [Except.mapError]

theorem mapError_error {ε φ α : Type} (wrap : ε → φ) (result : Except ε α) (wrapped : φ) :
    result.mapError wrap = .error wrapped ↔ ∃ error, result = .error error ∧ wrap error = wrapped := by
  cases result <;> simp [Except.mapError]

theorem bind_ok {α β : Type} (first : Except Refusal α) (next : α → Except Refusal β) (result : β)
    (ok : (first >>= next) = .ok result) : ∃ value, first = .ok value ∧ next value = .ok result := by
  cases first with
  | error refusal => contradiction
  | ok value => exact ⟨value,rfl,ok⟩

/-- A refusal that the wrapper turns into a response. -/
def Refusal.Caught : Refusal → Prop
  | .error raised => raised = .valueError ∨ raised = .attributeError
  | _ => True

theorem bind_caught {α β : Type} (first : Except Refusal α) (next : α → Except Refusal β)
    (one : ∀ refusal, first = .error refusal → refusal.Caught)
    (other : ∀ value refusal, next value = .error refusal → refusal.Caught) (refusal : Refusal)
    (raised : (first >>= next) = .error refusal) : refusal.Caught := by
  cases first with
  | error own => exact one refusal (congrArg _ (Except.error.inj raised))
  | ok value => exact other value refusal raised

theorem required_bound (args : Args) (name : Str) (bound : name ∈ args.map Prod.fst) : ∃ value, required args name = .ok value := by
  obtain ⟨value,found⟩ := bound_lookup args name bound
  exact ⟨value,by rw [required,found]⟩

theorem cmdConvert_caught (commands : List (Str × Nat)) (cmd : Str) (refusal : Refusal)
    (raised : cmdConvert commands cmd = .error refusal) : refusal.Caught := by
  unfold cmdConvert at raised
  split at raised
  · contradiction
  · rw [← Except.error.inj raised]
    trivial

theorem entryCommands_caught (dp : Datapath) (since : Nat) (refusal : Refusal)
    (raised : entryCommands dp since = .error refusal) : refusal.Caught := by
  unfold entryCommands at raised
  split at raised
  · rw [← Except.error.inj raised]
    exact .inr rfl
  · contradiction

theorem modPortBehavior_changes (portState : Nat → Int → Option PortInfo) (dp : Datapath) (portConfig : Value) (cmd : Str)
    (call : LibraryCall) (chosen : modPortBehavior portState dp portConfig cmd = .ok call) : call.Changes := by
  unfold modPortBehavior at chosen
  split at chosen
  · contradiction
  · split at chosen
    · contradiction
    · split at chosen
      · contradiction
      · dsimp only at chosen
        split at chosen
        · contradiction
        · rw [← Except.ok.inj chosen]
          trivial

theorem modPortBehavior_caught (portState : Nat → Int → Option PortInfo) (dp : Datapath) (portConfig : Value) (cmd : Str)
    (refusal : Refusal) (raised : modPortBehavior portState dp portConfig cmd = .error refusal) : refusal.Caught := by
  unfold modPortBehavior at raised
  split at raised
  · rename_i error missing
    rw [← Except.error.inj raised]
    exact .inr (portConfig.get_error _ error missing)
  · split at raised
    · rename_i portNo _ _ error unread
      rw [← Except.error.inj raised]
      exact .inl (portNo.intOfStr_error error unread)
    · split at raised
      · rw [← Except.error.inj raised]
        trivial
      · dsimp only at raised
        split at raised
        · rw [← Except.error.inj raised]
          trivial
        · contradiction

theorem commandCall_changes (portState : Nat → Int → Option PortInfo) (action : CommandAction) (dp : Datapath) (body : Value)
    (args : Args) (call : LibraryCall) (chosen : commandCall portState action dp body args = .ok call) : call.Changes := by
  cases action with
  | modFlowEntry =>
    obtain ⟨cmd,_,rest⟩ := bind_ok _ _ _ chosen
    obtain ⟨modCmd,_,rest⟩ := bind_ok _ _ _ rest
    rw [← Except.ok.inj rest]
    trivial
  | deleteFlowEntry =>
    rw [← Except.ok.inj chosen]
    trivial
  | modMeterEntry =>
    obtain ⟨cmd,_,rest⟩ := bind_ok _ _ _ chosen
    obtain ⟨commands,_,rest⟩ := bind_ok _ _ _ rest
    obtain ⟨modCmd,_,rest⟩ := bind_ok _ _ _ rest
    rw [← Except.ok.inj rest]
    trivial
  | modGroupEntry =>
    obtain ⟨cmd,_,rest⟩ := bind_ok _ _ _ chosen
    obtain ⟨commands,_,rest⟩ := bind_ok _ _ _ rest
    obtain ⟨modCmd,_,rest⟩ := bind_ok _ _ _ rest
    rw [← Except.ok.inj rest]
    trivial
  | modPortBehavior =>
    obtain ⟨cmd,_,rest⟩ := bind_ok _ _ _ chosen
    exact modPortBehavior_changes portState dp body cmd call rest
  | sendExperimenter =>
    rw [← Except.ok.inj chosen]
    trivial
  | setRole =>
    rw [← Except.ok.inj chosen]
    trivial

theorem commandCall_caught (portState : Nat → Int → Option PortInfo) (action : CommandAction) (dp : Datapath) (body : Value)
    (args : Args) (bound : ∀ name ∈ (Action.command action).needs, name ∈ args.map Prod.fst) (refusal : Refusal)
    (raised : commandCall portState action dp body args = .error refusal) : refusal.Caught := by
  have commanded (needed : "cmd".toList ∈ (Action.command action).needs) (refusal : Refusal)
      (missing : required args "cmd".toList = .error refusal) : refusal.Caught := by
    obtain ⟨cmd,given⟩ := required_bound args _ (bound _ needed)
    rw [given] at missing
    contradiction
  have made {call : LibraryCall} (refusal : Refusal) (raised : Except.ok call = .error refusal) : refusal.Caught := by
    contradiction
  cases action with
  | modFlowEntry =>
    refine bind_caught _ _ (commanded (by simp [Action.needs])) (fun cmd => ?_) refusal raised
    exact bind_caught _ _ (cmdConvert_caught _ cmd) fun _ => made
  | deleteFlowEntry => exact made refusal raised
  | modMeterEntry =>
    refine bind_caught _ _ (commanded (by simp [Action.needs])) (fun cmd => ?_) refusal raised
    refine bind_caught _ _ (entryCommands_caught dp 4) fun commands => ?_
    exact bind_caught _ _ (cmdConvert_caught commands cmd) fun _ => made
  | modGroupEntry =>
    refine bind_caught _ _ (commanded (by simp [Action.needs])) (fun cmd => ?_) refusal raised
    refine bind_caught _ _ (entryCommands_caught dp 3) fun commands => ?_
    exact bind_caught _ _ (cmdConvert_caught commands cmd) fun _ => made
  | modPortBehavior =>
    exact bind_caught _ _ (commanded (by simp [Action.needs])) (modPortBehavior_caught portState dp body) refusal raised
  | sendExperimenter => exact made refusal raised
  | setRole => exact made refusal raised

theorem statsMethod_acts (action : StatsAction) (args : Args) (body : Str) (bound : "dpid".toList ∈ args.map Prod.fst) :
    Acts env literal (.stats action) args body (statsMethod env action args body) := by
  obtain ⟨dpid,given⟩ := bound_lookup args _ bound
  simp only [statsMethod,given]
  apply withDatapath_acts
  intro id dp number registered
  have found : Named literal (.stats action) args body id := ⟨dpid,given,number⟩
  refine invoke_acts id dp _ found registered (fun call chosen => ?_) fun error raised _ _ => ?_
  · have called := (mapError_ok _ _ call).mp chosen
    exact iff_of_false (statsCall_query env.json action dp args body call called) (by simp)
  · obtain ⟨other,called,same⟩ := (mapError_error _ _ _).mp raised
    obtain rfl := Refusal.error.inj same
    exact statsCall_error env.json action dp args body other called

theorem commandWrapper_acts (action : CommandAction) (args : Args) (body : Str)
    (bound : ∀ name ∈ (Action.command action).needs, name ∈ args.map Prod.fst) :
    Acts env literal (.command action) args body (commandWrapper env literal action args body) := by
  unfold commandWrapper
  split
  · exact .refused 400 (by decide)
  · rename_i error _ raised
    exact .nothing _ (by simp) fun other same => by rw [← Except.error.inj same]; exact raised
  · exact .refused 400 (by decide)
  · rename_i parsed dpid shape
    apply withDatapath_acts
    intro id dp number registered
    have found : Named literal (.command action) args body id := ⟨parsed,dpid,shape,number⟩
    refine invoke_acts id dp _ found registered (fun call chosen => ?_) fun error raised uncaught unlisted => ?_
    · exact iff_of_true (commandCall_changes env.portState action dp parsed args call chosen) ⟨action,rfl⟩
    · rcases commandCall_caught env.portState action dp parsed args bound _ raised with same | same
      · exact absurd same uncaught
      · exact absurd same unlisted

theorem Acts.answered {action : Action} {method : Method} {args : Args} {body : Str} {answer : Answer}
    (acts : Acts env literal action args body answer) (acting : action ≠ .getDpids)
    (gets : method = .get → ∀ command, action ≠ .command command) : Answered env literal action method args body answer := by
  cases acts with
  | nothing response fails raises =>
    refine ⟨Nat.zero_le 1,List.forall_mem_nil _,fun _ => List.forall_mem_nil _,iff_of_false fails ?_,
      fun error raised => .inl (raises error raised)⟩
    rintro (lists | ⟨made,member,_⟩)
    · exact acting lists
    · contradiction
  | called id made found registered kind =>
    refine ⟨Nat.le_refl 1,fun other member => ?_,fun get other member => ?_,?_,fun error raised => .inr ?_⟩
    · obtain rfl := List.mem_singleton.mp member
      exact ⟨id,found,registered,kind⟩
    · obtain rfl := List.mem_singleton.mp member
      intro changed
      obtain ⟨command,commands⟩ := kind.mp changed
      exact gets get command commands
    · rw [respond_ok,mapError_ok,or_iff_right acting]
      simp
    · obtain ⟨other,came,same⟩ := (mapError_error _ _ _).mp (respond_error _ error raised).1
      obtain rfl := Refusal.error.inj same
      exact ⟨made,List.mem_singleton_self made,came⟩

end Serving

/-- Every request that a route takes, whatever comes in it and whatever its parsers and the library
do with it. -/
theorem request_answered {ρ : Type} (env : Environment ρ) (literal : Str → Except Error Value) (route : Route)
    (connected : route ∈ mapper) (method : Method) (allowed : method ∈ route.method) (args : Args)
    (bound : args.map Prod.fst = route.variables) (body : Str) :
    Answered env literal route.action method args body (callAction env literal route.action args body) := by
  have given : ∀ name ∈ route.action.needs, name ∈ args.map Prod.fst := fun name needed =>
    bound ▸ mapper_needs route connected name needed
  have gets : method = .get → ∀ command, route.action ≠ .command command := fun get =>
    commands_change route connected (get ▸ allowed)
  generalize route.action = action at given gets
  cases action with
  | getDpids =>
    refine ⟨Nat.zero_le 1,List.forall_mem_nil _,fun _ => List.forall_mem_nil _,?_,fun error raised => ?_⟩
    · simp [callAction]
    · contradiction
  | stats action => exact (statsMethod_acts action args body (given _ (by simp [Action.needs]))).answered (by simp) gets
  | command action => exact (commandWrapper_acts action args body given).answered (by simp) gets

-- A request to clear the table of datapath 2, whose body names datapath 1.
def twoSwitches : Environment Unit where
  dpset id := if id = 1 then some ⟨1,1⟩ else if id = 2 then some ⟨2,1⟩ else none
  portState _ _ := none
  json _ := .error .valueError
  library _ _ := .ok ()
  dumps _ := .ok ()

def clearRoute : Route := ⟨[text "stats",text "flowentry",text "clear",key "dpid"],.command .deleteFlowEntry,[.delete]⟩

def clearAnswer : Answer :=
  callAction twoSwitches literalEval clearRoute.action [("dpid".toList,"2".toList)] "\x7b'dpid': 1\x7d".toList

theorem request_answered_clear : Answered twoSwitches literalEval clearRoute.action .delete
      [("dpid".toList,"2".toList)] "\x7b'dpid': 1\x7d".toList clearAnswer ∧
    clearAnswer.calls.map (fun made => made.dp.id) = [1] ∧ clearAnswer.response = .ok 200 :=
  ⟨request_answered twoSwitches literalEval clearRoute (by simp [mapper,clearRoute]) .delete (by simp [clearRoute])
    [("dpid".toList,"2".toList)] rfl "\x7b'dpid': 1\x7d".toList,by decide +kernel,by decide +kernel⟩

end NfvConsensus.OfctlRest
