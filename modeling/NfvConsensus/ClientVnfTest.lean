import NfvConsensus.ClientPaxos
import NfvConsensus.Foundation.LittleEndian

/-! `client-vnf-test.c`: once connected, the test client writes its values, each of them a
whole `client_value` behind a `size_t` that gives its size. -/
namespace NfvConsensus.ClientVnfTest
open Python Foundation.LittleEndian
open ClientPaxos (Timeval ClientValue sizeT)

def MAX_VALUE_SIZE : Nat := 8192

def sizeofTimeval : Nat := 16

def sizeofSizeT : Nat := 8

structure Client where
  valueSize : Int
  outstanding : Int

/-- A `size_t` passed as an `int`. -/
def int32 (n : Nat) : Int := (n : Int).bmod (2^32)

def alphanum : Str := "0123456789abcdefghijklmnopqrstuvwxyz".toList

def randomString (rand : Nat → Nat) (s : Str) (len : Int) : Str :=
  let filled := (List.range (len - 1).toNat).foldl
    (fun s i => s.set i (alphanum.getD (rand i % alphanum.length) '\x00')) s
  filled.set (len - 1).toNat '\x00'

/-- What a call of `client_submit_value` finds: the time, and what `rand` returns. -/
structure Found where
  t : Timeval
  rand : Nat → Nat

/-- A `client_value` as it lies in memory. -/
def layout (v : ClientValue) : Str :=
  littleEndian sizeofSizeT (sizeT v.t.sec) ++ littleEndian sizeofSizeT (sizeT v.t.usec) ++
    littleEndian sizeofSizeT v.size ++ v.value

/-- The two writes of a call of `client_submit_value`. -/
structure Written where
  size : Str
  v : Str

def Written.bytes (written : Written) : Str := written.size ++ written.v

def clientSubmitValue (client : Client) (found : Found) : Written :=
  let zeros := List.replicate MAX_VALUE_SIZE '\x00'
  let vSize := sizeT client.valueSize
  let v : ClientValue := ⟨found.t,vSize,randomString found.rand zeros (int32 vSize)⟩
  let size := (sizeofTimeval + sizeofSizeT + v.size) % 2^64
  { size := littleEndian sizeofSizeT size
    v := (layout v).take size }

def onConnect (client : Client) (connected : Bool) (found : Nat → Found) : List Written :=
  if connected then (List.range client.outstanding.toNat).map fun i => clientSubmitValue client (found i) else []

/-- What goes out once the connection stands. -/
def stream (client : Client) (found : Nat → Found) : Str := (onConnect client true found).flatMap Written.bytes

/-- What `main` passes to `make_client`. -/
def mainClient : Client where
  valueSize := 32
  outstanding := 10

end NfvConsensus.ClientVnfTest
