import NfvConsensus.ClientPaxos
import NfvConsensus.Foundation.Transition

/-! `client-paxos-vnf.c`: the statistics over the values delivered back to the client, which
a timer clears. Counters and times are integers that do not overflow, and the product with
`1e6` is exact. A quotient with divisor 0 has no meaning. -/
namespace NfvConsensus.ClientPaxos
open Foundation.Transition

structure Stats where
  delivered : Int
  minLatency : Int
  maxLatency : Int
  avgLatency : Int
  deriving DecidableEq

/-- `memset(&c->stats, 0, sizeof(struct stats))` -/
def Stats.zero : Stats := ⟨0,0,0,0⟩

def timevalDiff (t1 t2 : Timeval) : Int :=
  let us := (t2.sec - t1.sec) * 10^6
  if us < 0 then 0 else us + (t2.usec - t1.usec)

/-- `tv` is what `gettimeofday` returns. -/
def updateStats (stats : Stats) (delivered : ClientValue) (tv : Timeval) : Option Stats :=
  let lat := timevalDiff delivered.t tv
  let stats := { stats with delivered := stats.delivered + 1 }
  if stats.delivered = 0 then none
  else
    let stats := { stats with avgLatency := stats.avgLatency + (lat - stats.avgLatency).tdiv stats.delivered }
    let stats := if stats.minLatency = 0 ∨ lat < stats.minLatency then { stats with minLatency := lat } else stats
    let stats := if lat > stats.maxLatency then { stats with maxLatency := lat } else stats
    some stats

inductive StatsEvent
  | onDeliver (v : ClientValue) (tv : Timeval)
  | onStats

def stepStats (stats : Stats) : StatsEvent → Option Stats
  | .onDeliver v tv => updateStats stats v tv
  | .onStats => some .zero

def statistics : Machine Stats StatsEvent where
  initial := .zero
  step := stepStats

end NfvConsensus.ClientPaxos
