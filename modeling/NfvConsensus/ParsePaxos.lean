import NfvConsensus.Python
import Mathlib.Data.List.AList

/-! `parse_paxos.py`: the log of a manager read back, its counters grouped by the second
they were logged in, and one line of `file.dat` for each second. -/
namespace NfvConsensus.ParsePaxos
open Python

/-- The counters logged at each time of day. -/
abbrev Result := AList fun _ : Str => List Int

def stripped (d : Str) : Str := if d.getLast? = some '\n' then chop d else d

def collect (result : Result) : List Str → Except Error Result
  | [] => .ok result
  | p :: rest => do
    let (time,nCons) ← unpack (split ' ' p)
    let nCons ← int nCons
    match result.lookup time with
    | none => collect (result.insert time [nCons]) rest
    | some counts => collect (result.insert time (counts ++ [nCons])) rest

/-- Strings are ordered by the codes of their first different characters. -/
def sorted (keys : List Str) : List Str :=
  keys.mergeSort fun r s => !List.lex s r fun c d => decide (c.toNat < d.toNat)

/-- `max(result[r]) - min(result[r])` -/
def difference (result : Result) (r : Str) : Except Error Int :=
  match result.lookup r with
  | none => .error .keyError
  | some counts =>
    match counts.max?,counts.min? with
    | some high,some low => .ok (high - low)
    | _,_ => .error .valueError

def differences (result : Result) : List Str → Except Error (List (Str × Int))
  | [] => .ok []
  | r :: rest => do
    let diff ← difference result r
    let later ← differences result rest
    .ok ((r,diff) :: later)

/-- The lines written to `file.dat`, `i` being the number of the line. -/
def fileDat (printed : List (Str × Int)) : Str :=
  printed.zipIdx.flatMap fun entry => str entry.2 ++ ' ' :: strInt entry.1.2 ++ ['\n']

structure Output where
  printed : List (Str × Int)
  fileDat : Str

def parsePaxos (inputFile : Str) : Except Error Output := do
  let result ← collect ∅ ((readlines inputFile).map stripped)
  let printed ← differences result (sorted result.keys)
  .ok { printed := printed,fileDat := fileDat printed }

end NfvConsensus.ParsePaxos
