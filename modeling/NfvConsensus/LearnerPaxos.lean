import NfvConsensus.ClientPaxos

/-! `learner-paxos-vnf.c`: every value learned is written to the VNF manager. -/
namespace NfvConsensus.LearnerPaxos
open Python ClientPaxos

/-- A fixed number of characters from the start of the value, whatever its size;
`behind` is the memory after the delivered bytes. -/
def submitManager (v : ClientValue) (behind : Str) : Str :=
  let size := 179
  (v.value ++ behind).take size

def deliver (v : ClientValue) (behind : Str) : Str := submitManager v behind

end NfvConsensus.LearnerPaxos
