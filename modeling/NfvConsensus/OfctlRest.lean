import NfvConsensus.PythonLiteral
import NfvConsensus.OpenFlow

/-! `ofctl_rest.py`: the actions of the REST interface and the two wrappers around them. An action
chooses a function of `ofctl_v1_0` or one of its siblings, or raises. What the functions
do, and what is made of a body by the parser of its wrapper, are parameters. -/
namespace NfvConsensus.OfctlRest
open Python

structure Datapath where
  id : Nat
  ofpVersion : Nat
  deriving DecidableEq

abbrev DPSet := Int → Option Datapath

def supportedOfctl : List Nat := [1,3,4,5,6]

inductive StatsAction
  | getDescStats
  | getFlowDesc
  | getFlowStats
  | getAggregateFlowStats
  | getTableStats
  | getTableFeatures
  | getPortStats
  | getQueueStats
  | getQueueConfig
  | getQueueDesc
  | getMeterFeatures
  | getMeterConfig
  | getMeterDesc
  | getMeterStats
  | getGroupFeatures
  | getGroupDesc
  | getGroupStats
  | getPortDesc
  deriving DecidableEq

inductive CommandAction
  | modFlowEntry
  | deleteFlowEntry
  | modMeterEntry
  | modGroupEntry
  | modPortBehavior
  | sendExperimenter
  | setRole
  deriving DecidableEq

inductive Action
  | getDpids
  | stats (action : StatsAction)
  | command (action : CommandAction)
  deriving DecidableEq

/-- A call of the library: a query has the name of its action, and its flow and numbers if it has any. -/
inductive LibraryCall
  | query (function : StatsAction) (flow : Option Value) (numbers : List (Option Str))
  | modFlowEntry (flow : Value) (cmd : Nat)
  | modMeterEntry (meter : Value) (cmd : Nat)
  | modGroupEntry (group : Value) (cmd : Nat)
  | modPortBehavior (portConfig : Value)
  | sendExperimenter (exp : Value)
  | setRole (role : Value)

inductive Refusal
  | error (error : Error)
  | commandNotFound (cmd : Str)
  | portNotFound (portNo : Int)

/-- The keyword arguments of an action, which the route has found in the path. -/
abbrev Args := List (Str × Str)

def unlessAll (number : Option Str) : Option Str := if number = some "ALL".toList then none else number

def queryFlow (json : Str → Except Error Value) (action : StatsAction) (body : Str) : Except Error LibraryCall :=
  match if body.isEmpty then .ok (.dict []) else json body with
  | .error error => .error error
  | .ok flow => .ok (.query action (some flow) [])

/-- The call that a `get_` action makes; the later versions can be asked for one group or port. -/
def statsCall (json : Str → Except Error Value) (action : StatsAction) (dp : Datapath) (args : Args) (body : Str) :
    Except Error LibraryCall :=
  let number (key : String) : Option Str := args.lookup key.toList
  match action with
  | .getFlowDesc => queryFlow json action body
  | .getFlowStats => queryFlow json action body
  | .getAggregateFlowStats => queryFlow json action body
  | .getPortStats => .ok (.query action none [unlessAll (number "port")])
  | .getQueueStats => .ok (.query action none [unlessAll (number "port"),unlessAll (number "queue_id")])
  | .getQueueConfig => .ok (.query action none [unlessAll (number "port")])
  | .getQueueDesc => .ok (.query action none [unlessAll (number "port"),unlessAll (number "queue")])
  | .getMeterConfig => .ok (.query action none [unlessAll (number "meter_id")])
  | .getMeterDesc => .ok (.query action none [unlessAll (number "meter_id")])
  | .getMeterStats => .ok (.query action none [unlessAll (number "meter_id")])
  | .getGroupDesc => .ok (.query action none (if dp.ofpVersion < 6 then [] else [number "group_id"]))
  | .getGroupStats => .ok (.query action none [unlessAll (number "group_id")])
  | .getPortDesc => .ok (.query action none (if dp.ofpVersion < 6 then [] else [number "port_no"]))
  | _ => .ok (.query action none [])

def OFPTT_ALL : Nat := 0xff

/-- An argument without a default value. -/
def required (args : Args) (name : Str) : Except Refusal Str :=
  match args.lookup name with
  | some value => .ok value
  | none => .error (.error .typeError)

def cmdConvert (commands : List (Str × Nat)) (cmd : Str) : Except Refusal Nat :=
  match commands.lookup cmd with
  | some modCmd => .ok modCmd
  | none => .error (.commandNotFound cmd)

def flowCommands : List (Str × Nat) :=
  [("add".toList,OFPFC_ADD),("modify".toList,OFPFC_MODIFY),("modify_strict".toList,OFPFC_MODIFY_STRICT),
    ("delete".toList,OFPFC_DELETE),("delete_strict".toList,OFPFC_DELETE_STRICT)]

/-- The commands for groups and meters; the first versions do not have them. -/
def entryCommands (dp : Datapath) (since : Nat) : Except Refusal (List (Str × Nat)) :=
  if dp.ofpVersion < since then .error (.error .attributeError)
  else .ok [("add".toList,0),("modify".toList,1),("delete".toList,2)]

structure PortInfo where
  hwAddr : Value
  advertised : Value
  properties : Value

def setDefault (body : Value) (key : Str) (value : Value) : Value :=
  match body with
  | .dict items =>
    let present := items.any fun item => match item.1 with
      | .str s => s = key
      | _ => false
    .dict (if present then items else items ++ [(.str key,value)])
  | body => body

def modPortBehavior (portState : Nat → Int → Option PortInfo) (dp : Datapath) (portConfig : Value) (cmd : Str) :
    Except Refusal LibraryCall :=
  match portConfig.get "port_no".toList with
  | .error error => .error (.error error)
  | .ok portNo =>
    match portNo.intOfStr with
    | .error error => .error (.error error)
    | .ok portNo =>
      match portState dp.id portNo with
      | none => .error (.portNotFound portNo)
      | some portInfo =>
        let portConfig := setDefault portConfig "hw_addr".toList portInfo.hwAddr
        let portConfig := if dp.ofpVersion < 5 then setDefault portConfig "advertise".toList portInfo.advertised
          else setDefault portConfig "properties".toList portInfo.properties
        if cmd ≠ "modify".toList then .error (.commandNotFound cmd) else .ok (.modPortBehavior portConfig)

def commandCall (portState : Nat → Int → Option PortInfo) (action : CommandAction) (dp : Datapath) (body : Value)
    (args : Args) : Except Refusal LibraryCall :=
  match action with
  | .modFlowEntry => do
    let cmd ← required args "cmd".toList
    let modCmd ← cmdConvert flowCommands cmd
    .ok (.modFlowEntry body modCmd)
  | .deleteFlowEntry =>
    let flow := if dp.ofpVersion = 1 then .dict [] else .dict [(.str "table_id".toList,.int OFPTT_ALL)]
    .ok (.modFlowEntry flow OFPFC_DELETE)
  | .modMeterEntry => do
    let cmd ← required args "cmd".toList
    let commands ← entryCommands dp 4
    let modCmd ← cmdConvert commands cmd
    .ok (.modMeterEntry body modCmd)
  | .modGroupEntry => do
    let cmd ← required args "cmd".toList
    let commands ← entryCommands dp 3
    let modCmd ← cmdConvert commands cmd
    .ok (.modGroupEntry body modCmd)
  | .modPortBehavior => do
    let cmd ← required args "cmd".toList
    modPortBehavior portState dp body cmd
  | .sendExperimenter => .ok (.sendExperimenter body)
  | .setRole => .ok (.setRole body)

structure Made where
  dp : Datapath
  call : LibraryCall

/-- The calls made, and the status of the response or the exception raised. -/
structure Answer where
  calls : List Made
  response : Except Error Nat

def respond : Except Refusal Unit → Except Error Nat
  | .ok () => .ok 200
  | .error (.error .valueError) => .ok 400
  | .error (.error .attributeError) => .ok 501
  | .error (.error error) => .error error
  | .error (.commandNotFound _) => .ok 404
  | .error (.portNotFound _) => .ok 404

/-- `json` is `req.json`, and `library` has the functions by the version; `dumps` is `json.dumps` of
what a function returns, without its text. -/
structure Environment (ρ : Type) where
  dpset : DPSet
  portState : Nat → Int → Option PortInfo
  json : Str → Except Error Value
  library : Nat → Made → Except Error ρ
  dumps : ρ → Except Error Unit

section Serving
variable {ρ : Type} (env : Environment ρ)

/-- The call of an action and what its wrapper does with the result; where the version has no
library, the function is looked up in `None`. -/
def invoke (finish : ρ → Except Error Unit) (dp : Datapath) (chosen : Except Refusal LibraryCall) : Answer :=
  match chosen with
  | .error refusal => ⟨[],respond (.error refusal)⟩
  | .ok call =>
    if dp.ofpVersion ∈ supportedOfctl then
      ⟨[⟨dp,call⟩],respond ((env.library dp.ofpVersion ⟨dp,call⟩ >>= finish).mapError .error)⟩
    else ⟨[],respond (.error (.error .attributeError))⟩

def withDatapath (dpid : Value) (use : Datapath → Answer) : Answer :=
  match dpid.intOfStr with
  | .error .valueError => ⟨[],.ok 400⟩
  | .error error => ⟨[],.error error⟩
  | .ok id =>
    match env.dpset id with
    | none => ⟨[],.ok 404⟩
    | some dp => use dp

def statsMethod (action : StatsAction) (args : Args) (body : Str) : Answer :=
  match args.lookup "dpid".toList with
  | none => ⟨[],.error .typeError⟩
  | some dpid => withDatapath env (.str dpid) fun dp =>
    invoke env env.dumps dp ((statsCall env.json action dp args body).mapError .error)

def parseBody (literal : Str → Except Error Value) (body : Str) : Except Error Value :=
  if body.isEmpty then .ok (.dict []) else literal body

/-- The body and the `dpid` of a command, the one of the route if the body's does not count. -/
def parseCommand (literal : Str → Except Error Value) (args : Args) (body : Str) : Except Error (Value × Option Value) := do
  let body ← parseBody literal body
  let dpid ← body.get "dpid".toList
  .ok (body,if dpid.falsy then (args.lookup "dpid".toList).map Value.str else some dpid)

/-- The wrapper of `command_method`; `literal` is `ast.literal_eval` of the decoded body. -/
def commandWrapper (literal : Str → Except Error Value) (action : CommandAction) (args : Args) (body : Str) : Answer :=
  match parseCommand literal args body with
  | .error .syntaxError => ⟨[],.ok 400⟩
  | .error error => ⟨[],.error error⟩
  | .ok (_,none) => ⟨[],.ok 400⟩
  | .ok (body,some dpid) => withDatapath env dpid fun dp =>
    invoke env (fun _ => .ok ()) dp (commandCall env.portState action dp body args)

/-- A POST to `/stats/flowentry/{cmd}`, which binds no `dpid`. -/
def flowentry (cmd body : Str) : Answer := commandWrapper env literalEval .modFlowEntry [("cmd".toList,cmd)] body

def callAction (literal : Str → Except Error Value) (action : Action) (args : Args) (body : Str) : Answer :=
  match action with
  | .getDpids => ⟨[],.ok 200⟩
  | .stats action => statsMethod env action args body
  | .command action => commandWrapper env literal action args body

end Serving
end NfvConsensus.OfctlRest
