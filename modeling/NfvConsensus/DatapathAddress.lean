import NfvConsensus.RestAcceptance
import NfvConsensus.RestRequests
import NfvConsensus.Learning

/-! The datapath a rule is applied to. The command wrapper looks up the `dpid` of the flow, and
takes 0 for a missing one; the rule carries 1 for every id of two or more digits. The text
looked at is the one between the outer quotes. -/
namespace NfvConsensus.OfctlRest
open Python ConsensusSwitch SwitchEquivalence Foundation.EventLoop

/-- What the wrapper looks up in `dpset` for a decoded body, if the body has an id for it. -/
def lookedUp (flow : Value) : Option Int :=
  match flow.get "dpid".toList with
  | .error _ => none
  | .ok dpid => if dpid.falsy then none else dpid.intOfStr.toOption

theorem parseCommand_lookedUp (cmd body : Str) (parsed dpid : Value) (id : Int)
    (shape : parseCommand literalEval [("cmd".toList,cmd)] body = .ok (parsed,some dpid)) (number : dpid.intOfStr = .ok id) :
    literalEval body = .ok parsed ∧ lookedUp parsed = some id := by
  have unbound : ([("cmd".toList,cmd)] : Args).lookup "dpid".toList = none := rfl
  cases read : parseBody literalEval body with
  | error error =>
    rw [parseCommand,read] at shape
    contradiction
  | ok flow =>
    cases got : flow.get "dpid".toList with
    | error error =>
      simp only [parseCommand,read,bind,Except.bind,got] at shape
      contradiction
    | ok found =>
      simp only [parseCommand,read,bind,Except.bind,got,unbound,Option.map_none] at shape
      obtain ⟨rfl,kept⟩ := Prod.mk.inj (Except.ok.inj shape)
      cases falsy : found.falsy with
      | true =>
        rw [falsy,if_pos rfl] at kept
        contradiction
      | false =>
        rw [falsy,if_neg Bool.false_ne_true] at kept
        obtain rfl := Option.some.inj kept
        have nonempty : body.isEmpty ≠ true := by
          intro empty
          rw [parseBody,if_pos empty] at read
          obtain rfl := Except.ok.inj read
          obtain rfl := Except.ok.inj got
          contradiction
        rw [parseBody,if_neg nonempty] at read
        refine ⟨read,?_⟩
        simp only [lookedUp,got,falsy,number,Bool.false_eq_true,if_false]
        rfl

/-- Where `flowentry` gets to a call, the body has been decoded, and the call is on the datapath
registered under the id looked up. -/
theorem flowentry_called {ρ : Type} (env : Environment ρ) (cmd body : Str) (made : Made)
    (called : made ∈ (flowentry env cmd body).calls) :
    ∃ flow id, literalEval body = .ok flow ∧ lookedUp flow = some id ∧ env.dpset id = some made.dp := by
  have acts : Acts env literalEval (.command .modFlowEntry) [("cmd".toList,cmd)] body (flowentry env cmd body) :=
    commandWrapper_acts .modFlowEntry _ body (by simp [Action.needs])
  generalize flowentry env cmd body = answer at acts called
  cases acts with
  | nothing response fails raises => contradiction
  | called id only found registered kind =>
    obtain rfl := List.mem_singleton.mp called
    obtain ⟨parsed,dpid,shape,number⟩ := found
    obtain ⟨decoded,looked⟩ := parseCommand_lookedUp cmd body parsed dpid id shape number
    exact ⟨parsed,id,decoded,looked,registered⟩

/-- The id looked up for a rule, once its outer quotes are taken off. -/
def addressee (rule : Str) : Option Int :=
  match literalEval rule with
  | .ok (.str text) =>
    match literalEval text with
    | .ok flow => lookedUp flow
    | .error _ => none
  | _ => none

theorem addressee_rule (request : Request) : addressee request.rule =
    if emittedDpid request.datapath = 0 then none else some (emittedDpid request.datapath : Int) := by
  have denoted := literalEval_body request.datapath request.inPort request.outPort request.dst.text request.dst.chars
  have id : (Value.int (emittedDpid request.datapath)).intOfStr = .ok (emittedDpid request.datapath : Int) :=
    intPrefixed_digit _ (emittedDpid_small request.datapath)
  rw [addressee,literalEval_rule]
  simp only [denoted,lookedUp,(flowValue_carries request).dpid,id]
  simp [Value.falsy,Except.toOption]

theorem emittedDpid_long (datapathId : Nat) (long : ¬datapathId < 10) : emittedDpid datapathId = 1 := by
  have single : (str datapathId).length = 1 ↔ datapathId < 10 := Foundation.Text.decimal_length_one datapathId
  have positive : 0 < (str datapathId).length := Foundation.Text.decimal_length_pos datapathId
  exact if_pos (by omega)

theorem emittedDpid_short (datapathId : Nat) (short : datapathId < 10) : emittedDpid datapathId = datapathId := by
  have single : (str datapathId).length = 1 := (Foundation.Text.decimal_length_one datapathId).mpr short
  exact if_neg (by omega)

theorem addressee_own (request : Request) :
    addressee request.rule = some (request.datapath : Int) ↔ 1 ≤ request.datapath ∧ request.datapath ≤ 9 := by
  rw [addressee_rule]
  by_cases short : request.datapath < 10
  · rw [emittedDpid_short request.datapath short]
    split <;> simp <;> omega
  · simp [emittedDpid_long request.datapath short]
    omega

def AddressedTo (dpid : Nat) (message : Str) : Prop :=
  ∃ rule host, unpack (split '#' message) = .ok (rule,host) ∧ addressee rule = some (dpid : Int)

theorem message_addressed (request : Request) (host : Nat) :
    AddressedTo request.datapath (request.message (str host)) ↔ 1 ≤ request.datapath ∧ request.datapath ≤ 9 := by
  have parts : unpack (split '#' (request.message (str host))) = .ok (request.rule,str host) := by
    rw [Request.message,split_first _ _ _ request.rule_no_hash,split_absent _ _ (str_absent host '#')]
    rfl
  rw [← addressee_own]
  constructor
  · rintro ⟨rule,_,unpacked,addressed⟩
    rw [parts] at unpacked
    cases unpacked
    exact addressed
  · intro addressed
    exact ⟨_,_,parts,addressed⟩

def RulesAddressed (host : Nat) (events : List PacketIn) : Prop :=
  ∀ before msg after, events = before ++ msg :: after → ∃ effects,
    (runHandler (packetInHandler (str host)) ∅ events).2[before.length]? = some effects ∧
      ∀ size message, sends effects = [size,message] → AddressedTo msg.datapath message

theorem handled_addressed (host : Nat) (before : List PacketIn) (macToPort : MacTable) (msg : PacketIn)
    (recalls : Recalls before macToPort) :
    (∀ size message, sends (packetInHandler (str host) macToPort msg).2 = [size,message] → AddressedTo msg.datapath message) ↔
      (Learned before msg → 1 ≤ msg.datapath ∧ msg.datapath ≤ 9) := by
  rw [handled_sends]
  constructor
  · intro addressed learned
    obtain ⟨port,last,known⟩ := learned
    have asked := (requested_recalled before macToPort msg _ recalls).mpr ⟨port,last,known,rfl⟩
    rw [asked] at addressed
    exact (message_addressed (request msg port) host).mp (addressed _ _ rfl)
  · intro small size message written
    cases asked : requested macToPort msg with
    | none =>
      rw [asked] at written
      contradiction
    | some made =>
      obtain ⟨port,last,known,same⟩ := (requested_recalled before macToPort msg made recalls).mp asked
      rw [asked,← same] at written
      obtain ⟨_,rfl⟩ : _ ∧ (request msg port).message (str host) = message := by simpa using written
      exact (message_addressed (request msg port) host).mpr (small ⟨port,last,known⟩)

/-- Every rule is addressed to its own datapath exactly when rules are asked for on the
datapaths 1 to 9 only. -/
theorem rules_addressed_iff (host : Nat) (events : List PacketIn) : RulesAddressed host events ↔
    ∀ before msg after, events = before ++ msg :: after → Learned before msg → 1 ≤ msg.datapath ∧ msg.datapath ≤ 9 := by
  apply forall₄_congr
  intro before msg after order
  obtain ⟨reached,recalls,output⟩ := handler_at (str host) events before msg after order
  rw [← handled_addressed host before reached msg recalls,output]
  constructor
  · rintro ⟨_,same,addressed⟩
    cases same
    exact addressed
  · intro addressed
    exact ⟨_,rfl,addressed⟩

-- The two packets of the sample, on datapath 16.
def onSixteen (msg : PacketIn) : PacketIn := { msg with datapath := 16 }

def sixteen : List PacketIn := [onSixteen teaching,onSixteen asking]

theorem sixteen_learned : Learned [onSixteen teaching] (onSixteen asking) := by
  refine ⟨2,?_,by decide⟩
  have first : lastPort [onSixteen teaching] 16 (onSixteen asking).eth.dst = some 2 := by
    rw [← List.nil_append [onSixteen teaching],lastPort_append,if_pos ⟨rfl,rfl⟩]
    rfl
  rw [lastPort_append,if_neg fun same => sample_macs same.2]
  exact first

/-- The rule of datapath 16 is addressed to datapath 1. -/
theorem addressed_to_first : (∃ rule, (runHandler (packetInHandler (str 2)) ∅ sixteen).2[1]?.map sends =
      some [str (rule ++ '#' :: str 2).length,rule ++ '#' :: str 2] ∧ addressee rule = some 1) ∧
    ¬RulesAddressed 2 sixteen := by
  obtain ⟨reached,recalls,output⟩ := handler_at (str 2) sixteen [onSixteen teaching] (onSixteen asking) [] rfl
  obtain ⟨port,last,known⟩ := sixteen_learned
  have asked := (requested_recalled _ reached _ _ recalls).mpr ⟨port,last,known,rfl⟩
  have written := handled_sends (str 2) reached (onSixteen asking)
  rw [asked] at written
  constructor
  · refine ⟨(request (onSixteen asking) port).rule,(congrArg (Option.map sends) output).trans (congrArg some written),?_⟩
    have one : emittedDpid (request (onSixteen asking) port).datapath = 1 := emittedDpid_long 16 (by decide)
    rw [addressee_rule,one]
    rfl
  · intro addressed
    obtain ⟨_,same,own⟩ := addressed [onSixteen teaching] (onSixteen asking) [] rfl
    obtain rfl := Option.some.inj (output.symm.trans same)
    have small := (message_addressed (request (onSixteen asking) port) 2).mp (own _ _ written)
    exact absurd (show 16 ≤ 9 from small.2) (by decide)

end NfvConsensus.OfctlRest
