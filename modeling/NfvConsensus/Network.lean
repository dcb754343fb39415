import NfvConsensus.Python
import Mathlib.Data.List.AList

/-! `network.py`: the addresses of the containers, `paxos.conf`, and the division of
the controllers among the VNFs with the file that records it. -/
namespace NfvConsensus
open Python

structure Network where
  numCtls : Nat
  numVnfs : Nat

/-- A dict from the address of a VNF to the addresses of its controllers. -/
abbrev Domain := AList fun _ : Str => List Str

namespace Network
variable (net : Network)

def ipBase : Str := "172.17.0.".toList
def ctlHostBase : Nat := 2
def vnfHostBase : Nat := net.numCtls + 2

def address (host : Nat) : Str := ipBase ++ str host

def controllers : List Str := (List.range net.numCtls).map fun i => address (ctlHostBase + i)

def vnfs : List Str := (List.range net.numVnfs).map fun i => address (net.vnfHostBase + i)

def proposerLine (vnf : Str) : Str :=
  join [' '] ["proposer".toList,"0".toList,vnf,"5550\n".toList]

def acceptorLine (vnf : Str) (i : Nat) : Str :=
  join [' '] ["acceptor".toList,str i,vnf,str (8800 + i) ++ ['\n']]

/-- What `create_paxos_conf` writes, `data` being the text of `paxos.conf.example`. -/
def createPaxosConf (data : Str) : Except Error Str :=
  match net.vnfs with
  | [] => .error .indexError
  | first :: _ =>
    .ok (data ++ proposerLine first ++ net.vnfs.zipIdx.flatMap fun entry => acceptorLine entry.1 entry.2)

def buildDomain : Except Error Domain :=
  if net.numVnfs = 0 then .error .zeroDivisionError
  else
    let numConn := net.numCtls / net.numVnfs
    let remainderConn := net.numCtls % net.numVnfs
    let subDomains := (List.range net.numVnfs).map fun i =>
      net.controllers.extract (i * numConn + min i remainderConn) ((i + 1) * numConn + min (i + 1) remainderConn)
    .ok ((net.vnfs.zip subDomains).foldl (fun domain entry => domain.insert entry.1 entry.2) ∅)

/-- The domain file, `items` being the entries of the dict in the order it is iterated. -/
def printDomain (items : List (Σ _ : Str, List Str)) : Str :=
  items.flatMap fun d => d.2.flatMap fun ctl => join [' '] [d.1,ctl] ++ ['\n']

end Network
end NfvConsensus
