import NfvConsensus.RuleValue

/-! A message is split at its only `#`, and says which request it is: what its rule denotes has
all the fields of the request. -/
namespace NfvConsensus.ConsensusSwitch
open Python Foundation.Text

/-- What a message is made from: any ports, any text that can be part of an address, and
any digits for the host. -/
structure MessageFields where
  datapath : Nat
  inPort : Nat
  outPort : Nat
  dst : Str
  host : Str
  hex : ∀ c ∈ dst, macChar c = true
  present : host ≠ []
  digits : ∀ c ∈ host, c.isDigit = true

namespace MessageFields

def rule (fields : MessageFields) : Str := buildRule fields.datapath fields.inPort fields.outPort fields.dst

def message (fields : MessageFields) : Str := fields.rule ++ '#' :: fields.host

theorem rule_no_hash (fields : MessageFields) : '#' ∉ fields.rule :=
  buildRule_absent _ _ _ _ fields.hex '#'

theorem split_message (fields : MessageFields) : split '#' fields.message = [fields.rule,fields.host] := by
  have unhashed : '#' ∉ fields.host := check_absent fields.digits
  rw [message,split_first _ _ _ fields.rule_no_hash,split_absent _ _ unhashed]

def flow (fields : MessageFields) : Value :=
  flowValue (emittedDpid fields.datapath) OFP_DEFAULT_PRIORITY fields.inPort fields.outPort fields.dst

theorem flow_rule (first second : MessageFields) (same : first.rule = second.rule) : first.flow = second.flow := by
  rw [rule,rule,buildRule_quoted,buildRule_quoted] at same
  have bodies := List.append_cancel_right (List.cons.inj same).2
  have denoted := literalEval_body first.datapath first.inPort first.outPort first.dst first.hex
  rw [bodies,literalEval_body second.datapath second.inPort second.outPort second.dst second.hex] at denoted
  exact (Except.ok.inj denoted).symm

theorem flow_fields (first second : MessageFields) : first.flow = second.flow ↔
    emittedDpid first.datapath = emittedDpid second.datapath ∧
      (first.inPort = second.inPort ∧ first.dst = second.dst) ∧ first.outPort = second.outPort := by
  rw [flow,flow,flowValue,flowValue]
  simp only [Value.dict.injEq,Value.list.injEq,Value.int.injEq,Value.str.injEq,List.cons.injEq,Prod.mk.injEq,true_and,
    and_true,Int.natCast_inj]

theorem message_eq (first second : MessageFields) : first.message = second.message ↔
    first.host = second.host ∧ first.inPort = second.inPort ∧ first.outPort = second.outPort ∧ first.dst = second.dst ∧
      emittedDpid first.datapath = emittedDpid second.datapath := by
  constructor
  · intro same
    have parts := congrArg (split '#') same
    rw [first.split_message,second.split_message] at parts
    obtain ⟨rules,hosts⟩ : first.rule = second.rule ∧ first.host = second.host := by simpa using parts
    obtain ⟨dpid,⟨inPort,dst⟩,outPort⟩ := (flow_fields first second).mp (flow_rule first second rules)
    exact ⟨hosts,inPort,outPort,dst,dpid⟩
  · intro same
    obtain ⟨host,inPort,outPort,dst,dpid⟩ := same
    rw [message,message,rule,rule,buildRule_quoted,buildRule_quoted,ruleBody,ruleBody,host,inPort,outPort,dst,dpid]

def ofRequest (request : Request) (host : Nat) : MessageFields where
  datapath := request.datapath
  inPort := request.inPort
  outPort := request.outPort
  dst := request.dst.text
  host := str host
  hex := request.dst.chars
  present := decimal_ne_nil host
  digits := decimal_digit host

theorem ofRequest_message (request : Request) (host : Nat) :
    (ofRequest request host).message = request.message (str host) := rfl

end MessageFields

/-- The requests of the handlers: nothing is lost of one but what `build_rule` drops of the datapath. -/
theorem Request.message_eq (first second : Request) (host other : Nat) :
    first.message (str host) = second.message (str other) ↔
      host = other ∧ first.inPort = second.inPort ∧ first.outPort = second.outPort ∧ first.dst = second.dst ∧
        emittedDpid first.datapath = emittedDpid second.datapath := by
  rw [← MessageFields.ofRequest_message,← MessageFields.ofRequest_message,MessageFields.message_eq]
  have dst : first.dst.text = second.dst.text ↔ first.dst = second.dst := by
    cases first.dst
    cases second.dst
    simp
  simp only [MessageFields.ofRequest,str_inj,Fin.val_inj,dst]

/-- The manager's `split` gives the rule and the host, whose digits `int` reads; and two
messages are equal only if all that distinguishes their requests is. -/
theorem message_decoded :
    (∀ fields : MessageFields, split '#' fields.message = [fields.rule,fields.host] ∧
      int fields.host = .ok (Nat.ofDigitChars 10 fields.host 0 : Nat)) ∧
    (∀ octet, int (str octet) = .ok (octet : Int)) ∧
    ∀ first second : MessageFields, first.message = second.message ↔
      first.host = second.host ∧ first.inPort = second.inPort ∧ first.outPort = second.outPort ∧ first.dst = second.dst ∧
        emittedDpid first.datapath = emittedDpid second.datapath :=
  ⟨fun fields => ⟨fields.split_message,int_digits _ fields.present fields.digits⟩,int_str,MessageFields.message_eq⟩

end NfvConsensus.ConsensusSwitch
