import NfvConsensus.ClientPaxos
import NfvConsensus.Foundation.Transition

/-! `client-paxos-vnf.c`: the loop of `extract_data` one iteration at a time, in the arithmetic
of `size_t`, with every operation on the buffer and every subtraction recorded. -/
namespace NfvConsensus.ClientPaxos
open Python Foundation.Transition

def MAX_VALUE_SIZE : Nat := 8192

/-- Subtraction of two values of type `size_t`. -/
def minus (a b : Nat) : Nat := (a + 2^64 - b) % 2^64

/-- What one operation finds: the bytes copied, drained or removed, and the operands subtracted. -/
inductive Operation
  | copyout (found : Str)
  | subtract (len amount : Nat)
  | drain (bytes : Str)
  | remove (dadosSize : Int) (bytes : Str)

/-- The variables of `extract_data`, with the calls and the operations so far. -/
structure Extraction where
  input : Str
  len : Nat
  v : Str
  dados : Str
  calls : List Call
  operations : List Operation

/-- `evbuffer_copyout` and `evbuffer_remove` write the first bytes of an array. -/
def overwrite (array bytes : Str) : Str := bytes ++ array.drop bytes.length

namespace Extraction

def enter (v dados input : Str) : Extraction where
  input := input
  len := input.length
  v := v
  dados := dados
  calls := []
  operations := []

def headerSize : Nat := 3

def iterate (state : Extraction) : Option Extraction :=
  if headerSize ≤ state.len then
    let found := state.input.take headerSize
    let dados := overwrite state.dados found
    let dadosSize := atoi dados
    let len := minus state.len headerSize
    let state := { state with
      len := len
      dados := dados
      operations := state.operations ++ [.copyout found,.subtract state.len headerSize] }
    -- the comparison converts `dados_size` to `size_t`
    if sizeT dadosSize ≤ len then
      let body := state.input.drop headerSize
      let removed := body.take (sizeT dadosSize)
      let v := overwrite state.v removed
      some { state with
        input := body.drop (sizeT dadosSize)
        len := minus len (sizeT dadosSize)
        v := v
        calls := state.calls ++ [⟨v,dadosSize⟩]
        operations := state.operations ++ [.drain (state.input.take headerSize),.remove dadosSize removed,
          .subtract len (sizeT dadosSize)] }
    else some state
  else none

end Extraction

/-- The loop, entered with this in the buffer and in the two arrays. -/
def extraction (v dados input : Str) : Machine Extraction Unit where
  initial := .enter v dados input
  step state _ := state.iterate

end NfvConsensus.ClientPaxos
