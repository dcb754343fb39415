import NfvConsensus.OfctlRest
import NfvConsensus.RuleValue
import NfvConsensus.Domains

/-! What becomes of a posted rule. The rule keeps the single quotes that were meant for a
shell, so it denotes a string, and a string has no `get`; the text between the quotes
would be accepted. -/
namespace NfvConsensus.OfctlRest
open Python Foundation.Text ConsensusSwitch

theorem flowentry_quoted {ρ : Type} (env : Environment ρ) (cmd : Str) (request : Request) :
    flowentry env cmd request.rule = ⟨[],.error .attributeError⟩ := by
  have present : request.rule.isEmpty = false := by
    rw [Request.rule,buildRule_quoted]
    rfl
  simp only [flowentry,commandWrapper,parseCommand,parseBody,present,Bool.false_eq_true,if_false,literalEval_rule]
  rfl

/-- The flow asked for is added on the datapath it is for, and nothing raises. -/
def Accepted (request : Request) (answer : Answer) : Prop :=
  ∃ dp flow, answer.calls = [⟨dp,.modFlowEntry flow OFPFC_ADD⟩] ∧ answer.response = .ok 200 ∧
    dp.id = emittedDpid request.datapath ∧ Carries request flow

theorem emittedDpid_small (datapathId : Nat) : emittedDpid datapathId < 10 :=
  (decimal_length_one _).mp (emittedDpid_length datapathId)

theorem intPrefixed_digit : ∀ n < 10, intPrefixed (str n) = .ok (n : Int) := by decide

/-- Without the outer quotes a rule for a registered datapath would be accepted. -/
theorem unquoted_accepted {ρ : Type} (env : Environment ρ) (request : Request)
    (numbered : emittedDpid request.datapath ≠ 0) (dp : Datapath)
    (registered : env.dpset (emittedDpid request.datapath) = some dp) (own : dp.id = emittedDpid request.datapath)
    (supported : dp.ofpVersion ∈ supportedOfctl)
    (installs : ∀ made, ∃ result, env.library dp.ofpVersion made = .ok result) :
    Accepted request (flowentry env "add".toList
      (ruleBody request.datapath request.inPort request.outPort request.dst.text)) := by
  have denoted := literalEval_body request.datapath request.inPort request.outPort request.dst.text request.dst.chars
  have carries := flowValue_carries request
  generalize flowValue (emittedDpid request.datapath) OFP_DEFAULT_PRIORITY request.inPort request.outPort
    request.dst.text = flow at denoted carries
  have present : (ruleBody request.datapath request.inPort request.outPort request.dst.text).isEmpty = false := by
    rw [List.isEmpty_eq_false_iff,← List.length_pos_iff,ruleBody_length]
    omega
  have truthy : (Value.int (emittedDpid request.datapath)).falsy = false := by simpa [Value.falsy] using numbered
  have id : (Value.int (emittedDpid request.datapath)).intOfStr = .ok (emittedDpid request.datapath : Int) :=
    intPrefixed_digit _ (emittedDpid_small request.datapath)
  have parsed : parseCommand literalEval [("cmd".toList,"add".toList)]
      (ruleBody request.datapath request.inPort request.outPort request.dst.text) =
        .ok (flow,some (.int (emittedDpid request.datapath))) := by
    simp only [parseCommand,parseBody,present,Bool.false_eq_true,if_false,denoted,bind,Except.bind,carries.dpid,truthy]
  have chosen : commandCall env.portState .modFlowEntry dp flow [("cmd".toList,"add".toList)] =
      .ok (.modFlowEntry flow OFPFC_ADD) := by
    simp [commandCall,required,cmdConvert,flowCommands,bind,Except.bind]
  obtain ⟨result,returned⟩ := installs ⟨dp,.modFlowEntry flow OFPFC_ADD⟩
  have answered : flowentry env "add".toList (ruleBody request.datapath request.inPort request.outPort request.dst.text) =
      ⟨[⟨dp,.modFlowEntry flow OFPFC_ADD⟩],.ok 200⟩ := by
    simp only [flowentry,commandWrapper,parsed,withDatapath,id,registered,invoke,chosen,supported,if_true,returned]
    rfl
  rw [answered]
  exact ⟨dp,flow,rfl,rfl,own,carries⟩

theorem refused_unaccepted (request : Request) : ¬Accepted request ⟨[],.error .attributeError⟩ := by
  intro accepted
  obtain ⟨_,_,calls,_⟩ := accepted
  exact List.cons_ne_nil _ _ calls.symm

/-- At every known destination the handler sends a message, the manager of the domain posts its
rule, and the wrapper raises before it calls anything. -/
theorem posted_refused (macToPort : MacTable) (msg : PacketIn) (known : target macToPort msg ≠ OFPP_FLOOD)
    (domain : List Int) (host : Nat) (member : (host : Int) ∈ domain) {ρ : Type} (env : Environment ρ) :
    ∃ request post, requested macToPort msg = some request ∧
      .send (request.message (str host)) ∈ (packetInHandler (str host) macToPort msg).2 ∧
      Manager.handleRequest domain (request.message (str host)) = .ok (some post) ∧
      flowentry env "add".toList post.data = ⟨[],.error .attributeError⟩ ∧
      ¬Accepted request (flowentry env "add".toList post.data) := by
  obtain ⟨request,asked⟩ : ∃ request, requested macToPort msg = some request := ⟨_,if_pos known⟩
  refine ⟨request,⟨Manager.url host,request.rule⟩,asked,?_,?_,?_⟩
  · simp [packetInHandler_effects,asked,writes]
  · rw [Manager.handleRequest_message,if_pos member]
  · rw [flowentry_quoted]
    exact ⟨rfl,refused_unaccepted request⟩

/-- A controller with datapath 1, whose library takes every call. -/
def sampleEnvironment : Environment Unit where
  dpset id := if id = 1 then some ⟨1,1⟩ else none
  portState _ _ := none
  json _ := .error .valueError
  library _ _ := .ok ()
  dumps _ := .ok ()

def samplePost : Manager.Post := ⟨Manager.url 2,Request.sample.rule⟩

theorem sample_posts : Manager.handleRequest [2] (Request.sample.message (str 2)) = .ok (some samplePost) := by
  rw [Manager.handleRequest_message]
  rfl

theorem asking_known : target (learned ∅ teaching) asking ≠ OFPP_FLOOD :=
  (requested_some _ _ _ asking_requested).1

theorem posted_refused_sample : ∃ request post, requested (learned ∅ teaching) asking = some request ∧
    .send (request.message (str 2)) ∈ (packetInHandler (str 2) (learned ∅ teaching) asking).2 ∧
    Manager.handleRequest [2] (request.message (str 2)) = .ok (some post) ∧
    flowentry sampleEnvironment "add".toList post.data = ⟨[],.error .attributeError⟩ ∧
    ¬Accepted request (flowentry sampleEnvironment "add".toList post.data) :=
  posted_refused _ _ asking_known [2] 2 (by decide) sampleEnvironment

theorem sample_refused : requested (learned ∅ teaching) asking = some Request.sample ∧
    Manager.handleRequest [2] (Request.sample.message (str 2)) = .ok (some samplePost) ∧
      sampleEnvironment.dpset (emittedDpid Request.sample.datapath) = some ⟨1,1⟩ ∧
        ¬Accepted Request.sample (flowentry sampleEnvironment "add".toList samplePost.data) := by
  refine ⟨asking_requested,sample_posts,rfl,?_⟩
  rw [samplePost,flowentry_quoted]
  exact refused_unaccepted Request.sample

end NfvConsensus.OfctlRest
