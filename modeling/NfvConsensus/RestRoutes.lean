import NfvConsensus.OfctlRest

/-! `ofctl_rest.py`: the routes that `RestStatsApi` connects, each with its path, its action and its
methods. Which of them takes a request is up to the mapper of the web framework. -/
namespace NfvConsensus.OfctlRest
open Python

inductive Method
  | get
  | post
  | delete
  deriving DecidableEq

/-- A part of a path between its slashes; a `key` is a variable of the route. -/
inductive Segment
  | text (word : Str)
  | key (name : Str)

structure Route where
  uri : List Segment
  action : Action
  method : List Method

def text (word : String) : Segment := .text word.toList

def key (name : String) : Segment := .key name.toList

def Segment.variable? : Segment → Option Str
  | .text _ => none
  | .key name => some name

def Route.variables (route : Route) : List Str := route.uri.filterMap Segment.variable?

def mapper : List Route := [
  ⟨[text "stats",text "switches"],.getDpids,[.get]⟩,
  ⟨[text "stats",text "desc",key "dpid"],.stats .getDescStats,[.get]⟩,
  ⟨[text "stats",text "flowdesc",key "dpid"],.stats .getFlowStats,[.get,.post]⟩,
  ⟨[text "stats",text "flow",key "dpid"],.stats .getFlowStats,[.get,.post]⟩,
  ⟨[text "stats",text "aggregateflow",key "dpid"],.stats .getAggregateFlowStats,[.get,.post]⟩,
  ⟨[text "stats",text "table",key "dpid"],.stats .getTableStats,[.get]⟩,
  ⟨[text "stats",text "tablefeatures",key "dpid"],.stats .getTableFeatures,[.get]⟩,
  ⟨[text "stats",text "port",key "dpid"],.stats .getPortStats,[.get]⟩,
  ⟨[text "stats",text "port",key "dpid",key "port"],.stats .getPortStats,[.get]⟩,
  ⟨[text "stats",text "queue",key "dpid"],.stats .getQueueStats,[.get]⟩,
  ⟨[text "stats",text "queue",key "dpid",key "port"],.stats .getQueueStats,[.get]⟩,
  ⟨[text "stats",text "queue",key "dpid",key "port",key "queue_id"],.stats .getQueueStats,[.get]⟩,
  ⟨[text "stats",text "queueconfig",key "dpid"],.stats .getQueueConfig,[.get]⟩,
  ⟨[text "stats",text "queueconfig",key "dpid",key "port"],.stats .getQueueConfig,[.get]⟩,
  ⟨[text "stats",text "queuedesc",key "dpid"],.stats .getQueueDesc,[.get]⟩,
  ⟨[text "stats",text "queuedesc",key "dpid",key "port"],.stats .getQueueDesc,[.get]⟩,
  ⟨[text "stats",text "queuedesc",key "dpid",key "port",key "queue"],.stats .getQueueDesc,[.get]⟩,
  ⟨[text "stats",text "meterfeatures",key "dpid"],.stats .getMeterFeatures,[.get]⟩,
  ⟨[text "stats",text "meterconfig",key "dpid"],.stats .getMeterConfig,[.get]⟩,
  ⟨[text "stats",text "meterconfig",key "dpid",key "meter_id"],.stats .getMeterConfig,[.get]⟩,
  ⟨[text "stats",text "meterdesc",key "dpid"],.stats .getMeterDesc,[.get]⟩,
  ⟨[text "stats",text "meterdesc",key "dpid",key "meter_id"],.stats .getMeterDesc,[.get]⟩,
  ⟨[text "stats",text "meter",key "dpid"],.stats .getMeterStats,[.get]⟩,
  ⟨[text "stats",text "meter",key "dpid",key "meter_id"],.stats .getMeterStats,[.get]⟩,
  ⟨[text "stats",text "groupfeatures",key "dpid"],.stats .getGroupFeatures,[.get]⟩,
  ⟨[text "stats",text "groupdesc",key "dpid"],.stats .getGroupDesc,[.get]⟩,
  ⟨[text "stats",text "groupdesc",key "dpid",key "group_id"],.stats .getGroupDesc,[.get]⟩,
  ⟨[text "stats",text "group",key "dpid"],.stats .getGroupStats,[.get]⟩,
  ⟨[text "stats",text "group",key "dpid",key "group_id"],.stats .getGroupStats,[.get]⟩,
  ⟨[text "stats",text "portdesc",key "dpid"],.stats .getPortDesc,[.get]⟩,
  ⟨[text "stats",text "portdesc",key "dpid",key "port_no"],.stats .getPortDesc,[.get]⟩,
  ⟨[text "stats",text "flowentry",key "cmd"],.command .modFlowEntry,[.post]⟩,
  ⟨[text "stats",text "flowentry",text "clear",key "dpid"],.command .deleteFlowEntry,[.delete]⟩,
  ⟨[text "stats",text "meterentry",key "cmd"],.command .modMeterEntry,[.post]⟩,
  ⟨[text "stats",text "groupentry",key "cmd"],.command .modGroupEntry,[.post]⟩,
  ⟨[text "stats",text "portdesc",key "cmd"],.command .modPortBehavior,[.post]⟩,
  ⟨[text "stats",text "experimenter",key "dpid"],.command .sendExperimenter,[.post]⟩,
  ⟨[text "stats",text "role"],.command .setRole,[.post]⟩]

end NfvConsensus.OfctlRest
