import NfvConsensus.Python

/-! `vnf-manager.py` and `perf.py`: the processes a container starts, the controllers
a manager is responsible for, and the loop that installs the rules learned. -/
namespace NfvConsensus.Manager
open Python

inductive Role
  | proposer
  | acceptor (id : Str)
  | learner
  | client
  deriving DecidableEq

/-- The processes started, and the exception that ended the start-up if there was one. -/
structure Startup where
  roles : List Role
  raised : Option Error
  deriving DecidableEq

/-- The loop of `execute_roles` over the remaining acceptors; `acceptorId` is the variable
it leaves. -/
def searchAcceptor (ip : Str) : List Str → Option Str → Except Error (Option Str)
  | [],acceptorId => .ok acceptorId
  | acceptor :: rest,_ => do
    let (acceptorId,acceptorIp) ← unpack (((split ' ' acceptor).drop 1).take 2)
    if acceptorIp = ip then .ok (some acceptorId) else searchAcceptor ip rest (some acceptorId)

/-- `conf`: the lines of the file that name an address of the network. -/
def confLines (file : Str) : List Str :=
  ((readlines file).filter (contains "172.17.0".toList)).map chop

def executeRoles (paxosConf : Str) (ip : Str) : Startup :=
  match confLines paxosConf with
  | [] => ⟨[],some .indexError⟩
  | first :: acceptors =>
    match (split ' ' first)[2]? with
    | none => ⟨[],some .indexError⟩
    | some proposer =>
      match searchAcceptor ip acceptors none with
      | .error error => ⟨[],some error⟩
      | .ok acceptorId =>
        let roles := if ip = proposer then [Role.proposer] else []
        match acceptorId with
        | none => ⟨roles,some .nameError⟩
        | some acceptorId => ⟨roles ++ [.acceptor acceptorId,.learner,.client],none⟩

/-- The loop of `get_domain`: the hosts of the controllers paired with this VNF. -/
def domainHosts (ip : Str) : List Str → Except Error (List Int)
  | [] => .ok []
  | d :: rest => do
    let (vnf,controller) ← unpack (split ' ' (chop d))
    if vnf = ip then
      let host ← int ((split '.' controller).getLastD [])
      let hosts ← domainHosts ip rest
      .ok (host :: hosts)
    else domainHosts ip rest

def getDomain (domain : Str) (ip : Str) : Except Error (List Int) := do
  let vnfDomain ← domainHosts ip (readlines domain)
  match vnfDomain.min?,vnfDomain.max? with
  | some low,some high => .ok (range low (high + 1))
  | _,_ => .error .valueError

def init (domain paxosConf : Str) (ip : Str) : Startup :=
  match getDomain domain ip with
  | .error error => ⟨[],some error⟩
  | .ok _ => executeRoles paxosConf ip

structure Post where
  url : Str
  data : Str
  deriving DecidableEq

def url (host : Int) : Str :=
  "http://172.17.0.".toList ++ strInt host ++ ":8080/stats/flowentry/add".toList

def handleRequest (domain : List Int) (message : Str) : Except Error (Option Post) := do
  let (rule,host) ← unpack (split '#' message)
  let host ← int host
  if host ∈ domain then .ok (some { url := url host,data := rule }) else .ok none

structure Performance where
  oldNow : Rat
  numCons : Nat
  totalTime : Rat
  avg : Rat
  log : List (Str × Nat)

def Performance.updateAvg (perf : Performance) (consTime : Rat) : Except Error Performance :=
  let totalTime := perf.totalTime + consTime
  if perf.numCons = 0 then .error .zeroDivisionError
  else .ok { perf with totalTime := totalTime,avg := totalTime / perf.numCons }

def Performance.updateStats (perf : Performance) (stamp : Str) : Performance :=
  { perf with numCons := perf.numCons + 1,log := perf.log ++ [(stamp,perf.numCons + 1)] }

/-- The clock readings of one iteration: `get_time()` and the time of day logged. -/
structure Tick where
  now : Rat
  stamp : Str

/-- The state of `mainloop`, with the messages passed to `handle_request`, what each
returned call posted, and whether an exception has ended the loop. -/
structure Loop where
  perf : Performance
  handled : List Str
  posted : List (Option Post)
  stopped : Bool

/-- The loop when the connection has been accepted, at time `now`: until then `old_now` was the time
at which `perf.py` had been imported. -/
def Loop.start (now : Rat) : Loop where
  perf := { oldNow := now,numCons := 0,totalTime := 0,avg := 0,log := [] }
  handled := []
  posted := []
  stopped := false

def iterate (domain : List Int) (loop : Loop) (message : Str) (tick : Tick) : Loop :=
  let loop := { loop with handled := loop.handled ++ [message] }
  match handleRequest domain message with
  | .error _ => { loop with stopped := true }
  | .ok post =>
    let loop := { loop with posted := loop.posted ++ [post] }
    let consTime := tick.now - loop.perf.oldNow
    match ({ loop.perf with oldNow := tick.now }.updateStats tick.stamp).updateAvg consTime with
    | .error _ => { loop with stopped := true }
    | .ok perf => { loop with perf := perf }

/-- `mainloop` on what successive calls of `recv` return. -/
def mainloop (domain : List Int) (loop : Loop) : List (Str × Tick) → Loop
  | [] => loop
  | (message,tick) :: rest =>
    if loop.stopped then loop else mainloop domain (iterate domain loop message tick) rest

end NfvConsensus.Manager
