import NfvConsensus.Python
import Mathlib.Logic.Function.Basic

/-! `client-paxos-vnf.c`: requests come in from the controllers, each behind three
header characters that give its size, and are submitted to Paxos. Memory that the
program does not initialise is a parameter and may hold anything. -/
namespace NfvConsensus.ClientPaxos
open Python

structure Timeval where
  sec : Int
  usec : Int

/-- `value` is the whole array; only its first `size` characters are submitted. -/
structure ClientValue where
  t : Timeval
  size : Nat
  value : Str

def sizeT (n : Int) : Nat := (n % 2^64).toNat

/-- `atoi` of the three header characters: white space, a sign, and digits up to the
first other character; 0 when there are none. -/
def atoi (dados : Str) : Int :=
  let value (digits : Str) : Nat := Nat.ofDigitChars 10 (digits.takeWhile Char.isDigit) 0
  match dados.dropWhile isSpace with
  | '-' :: digits => -(value digits : Int)
  | '+' :: digits => value digits
  | digits => value digits

/-- The array after the copy. A text that does not fit makes it longer than it is, and what the copy
overwrites behind it is left out. -/
def strcpy (dst src : Str) : Str :=
  let copied := src.takeWhile (· ≠ '\x00')
  copied ++ '\x00' :: dst.drop (copied.length + 1)

/-- What a call of `client_submit_value` finds: the time, what its uninitialised `v` holds,
and what lies in memory behind the array its `string` argument points to. -/
structure Ambient where
  t : Timeval
  v : Str
  behind : Str

def clientSubmitValue (ambient : Ambient) (string : Str) (len : Int) : ClientValue where
  t := ambient.t
  size := sizeT len
  value := strcpy ambient.v (string ++ ambient.behind)

/-- `paxos_submit` is given `size` bytes, the last of which is character `v.size` of the value. -/
def paxosSubmit (v : ClientValue) : ClientValue := { v with value := v.value.take v.size }

structure Call where
  string : Str
  len : Int

/-- The characters a call hands over: the first `len` of the array. -/
def Call.payload (call : Call) : Str := call.string.take (sizeT call.len)

/-- The loop of `extract_data`: the calls of `client_submit_value`, and what stays in the
buffer. An incomplete frame lowers `len` and leaves the buffer as it is. -/
def extractLoop (v input : Str) (len : Nat) : List Call × Str :=
  if _more : 3 ≤ len then
    let dadosSize := atoi (input.take 3)
    let size := sizeT dadosSize
    if size ≤ len - 3 then
      let body := input.drop 3
      let v := body.take size ++ v.drop size
      let rest := extractLoop v (body.drop size) (len - 3 - size)
      (⟨v,dadosSize⟩ :: rest.1,rest.2)
    else extractLoop v input (len - 3)
  else ([],input)
termination_by len

def extractData (v input : Str) (len : Nat) : List Call × Str := extractLoop v input len

/-- The input buffers of the connections, the calls made, and the values submitted to Paxos,
with the connection each came from. -/
structure Client (κ : Type) where
  input : κ → Str
  calls : List (κ × Call)
  submitted : List (κ × ClientValue)

def Client.start {κ : Type} : Client κ := ⟨fun _ => [],[],[]⟩

/-- Bytes arriving on a connection, and what the stack holds at the callback. -/
structure Arrival (κ : Type) where
  conn : κ
  bytes : Str
  v : Str
  ambient : Nat → Ambient

def submitCalls (ambient : Nat → Ambient) (calls : List Call) : List ClientValue :=
  calls.zipIdx.map fun entry => paxosSubmit (clientSubmitValue (ambient entry.2) entry.1.string entry.1.len)

def onRecvValue {κ : Type} [DecidableEq κ] (client : Client κ) (arrival : Arrival κ) : Client κ :=
  let input := client.input arrival.conn ++ arrival.bytes
  let extracted := extractData arrival.v input input.length
  { input := Function.update client.input arrival.conn extracted.2
    calls := client.calls ++ extracted.1.map fun call => (arrival.conn,call)
    submitted := client.submitted ++
      (submitCalls arrival.ambient extracted.1).map fun value => (arrival.conn,value) }

def serve {κ : Type} [DecidableEq κ] (arrivals : List (Arrival κ)) : Client κ :=
  arrivals.foldl onRecvValue .start

end NfvConsensus.ClientPaxos
