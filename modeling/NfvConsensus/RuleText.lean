import NfvConsensus.ConsensusSwitch

/-! The text a request consists of: how long it is, which characters can occur in it,
and what is left of it in the first 179 characters. -/
namespace NfvConsensus
open Python Foundation.Text

structure Request where
  datapath : Nat
  inPort : Port
  outPort : Port
  dst : Mac
  deriving DecidableEq

namespace Request

def rule (request : Request) : Str :=
  ConsensusSwitch.buildRule request.datapath request.inPort request.outPort request.dst.text

def message (request : Request) (host : Str) : Str := request.rule ++ '#' :: host

end Request

namespace ConsensusSwitch

def emittedDpid (datapathId : Nat) : Nat := if 2 ≤ (str datapathId).length then 1 else datapathId

/-- The text between the two outer quotes. -/
def ruleBody (datapathId inPort outPort : Nat) (dst : Str) : Str :=
  join [] [
    "\x7b\"dpid\": ".toList ++ str (emittedDpid datapathId) ++ ",".toList,
    "\"cookie\": 1,".toList,
    "\"idle_timeout\": 0,".toList,
    "\"hard_timeout\": 0,".toList,
    "\"priority\": ".toList ++ str OFP_DEFAULT_PRIORITY ++ ",".toList,
    "\"match\": \x7b\"in_port\": ".toList ++ str inPort ++ ", \"dl_dst\": \"".toList ++ dst ++ "\"\x7d,".toList,
    "\"actions\": [\x7b\"type\": \"OUTPUT\", \"port\": ".toList ++ str outPort ++ "\x7d]".toList,
    "\x7d".toList]

theorem buildRule_quoted (datapathId inPort outPort : Nat) (dst : Str) :
    buildRule datapathId inPort outPort dst = '\'' :: ruleBody datapathId inPort outPort dst ++ ['\''] := by
  have opening : "'\x7b\"dpid\": ".toList = "'".toList ++ "\x7b\"dpid\": ".toList := literal_append
  have closing : "\x7d'".toList = "\x7d".toList ++ "'".toList := literal_append
  have quote : "'".toList = ['\''] := String.toList_ofList
  simp only [buildRule,ruleBody,emittedDpid,join_nil]
  rw [opening,closing,quote]
  simp only [List.flatten_cons,List.flatten_nil,List.append_assoc,List.append_nil,List.cons_append,
    List.nil_append]

theorem emittedDpid_length (datapathId : Nat) : (str (emittedDpid datapathId)).length = 1 := by
  unfold emittedDpid
  split
  · rfl
  · have positive := decimal_length_pos datapathId
    simp only [str] at *
    omega

theorem ruleBody_length (datapathId inPort outPort : Nat) (dst : Str) :
    (ruleBody datapathId inPort outPort dst).length =
      156 + (str inPort).length + (str outPort).length + dst.length := by
  have priority : (str OFP_DEFAULT_PRIORITY).length = 5 := rfl
  have dpid := emittedDpid_length datapathId
  simp only [ruleBody,join_nil,List.flatten_cons,List.flatten_nil,List.length_append,List.length_nil,priority,dpid]
  have dpidText : "\x7b\"dpid\": ".toList.length = 9 := literal_length
  have cookieText : "\"cookie\": 1,".toList.length = 12 := literal_length
  have idleText : "\"idle_timeout\": 0,".toList.length = 18 := literal_length
  have hardText : "\"hard_timeout\": 0,".toList.length = 18 := literal_length
  have priorityText : "\"priority\": ".toList.length = 12 := literal_length
  have inPortText : "\"match\": \x7b\"in_port\": ".toList.length = 21 := literal_length
  have dstText : ", \"dl_dst\": \"".toList.length = 13 := literal_length
  have matchText : "\"\x7d,".toList.length = 3 := literal_length
  have actionsText : "\"actions\": [\x7b\"type\": \"OUTPUT\", \"port\": ".toList.length = 39 := literal_length
  have outPortText : "\x7d]".toList.length = 2 := literal_length
  have comma : ",".toList.length = 1 := literal_length
  have brace : "\x7d".toList.length = 1 := literal_length
  omega

theorem buildRule_length (datapathId inPort outPort : Nat) (dst : Str) :
    (buildRule datapathId inPort outPort dst).length =
      158 + (str inPort).length + (str outPort).length + dst.length := by
  rw [buildRule_quoted,List.length_append,List.length_cons,ruleBody_length,List.length_singleton]
  omega

/-- Characters other than the delimiters of the formats a rule is embedded in. -/
def plain (c : Char) : Bool := !(['\'','\\','\n','#','\x00'].contains c)

theorem plain_of (allowed : Char → Bool) (excludes : (['\'','\\','\n','#','\x00'].all fun d => !allowed d) = true)
    (c : Char) (holds : allowed c = true) : plain c = true := by
  rw [plain,Bool.not_eq_true',← Bool.not_eq_true,List.contains_iff_mem]
  intro special
  have excluded := List.all_eq_true.mp excludes c special
  rw [holds] at excluded
  contradiction

theorem plain_digit (c : Char) (digit : c.isDigit = true) : plain c = true :=
  plain_of Char.isDigit (by decide) c digit

theorem plain_macChar (c : Char) (hex : macChar c = true) : plain c = true :=
  plain_of macChar (by decide) c hex

theorem ruleBody_plain (datapathId inPort outPort : Nat) (dst : Str) (hex : ∀ c ∈ dst, macChar c = true) :
    ∀ c ∈ ruleBody datapathId inPort outPort dst, plain c = true := by
  have digits (n : Nat) : ∀ c ∈ str n, plain c = true := fun c member => plain_digit c (decimal_digit n c member)
  simp only [ruleBody,join_nil,List.flatten_cons,List.flatten_nil,List.forall_mem_append]
  refine ⟨⟨⟨?_,?_⟩,?_⟩,?_,?_,?_,⟨⟨?_,?_⟩,?_⟩,⟨⟨⟨⟨?_,?_⟩,?_⟩,?_⟩,?_⟩,⟨⟨?_,?_⟩,?_⟩,?_,List.forall_mem_nil _⟩
  all_goals first
    | exact digits _
    | exact fun c member => plain_macChar c (hex c member)
    | exact literal_all plain

theorem buildRule_absent (datapathId inPort outPort : Nat) (dst : Str) (hex : ∀ c ∈ dst, macChar c = true)
    (c : Char) (delimiter : plain c = false := by decide) (quote : c ≠ '\'' := by decide) :
    c ∉ buildRule datapathId inPort outPort dst := by
  have body := check_absent (ruleBody_plain datapathId inPort outPort dst hex) delimiter
  rw [buildRule_quoted]
  simp [body,quote]

end ConsensusSwitch

namespace Request
open ConsensusSwitch

theorem rule_length (request : Request) :
    request.rule.length = 175 + (str request.inPort).length + (str request.outPort).length := by
  rw [rule,buildRule_length,request.dst.size]
  omega

theorem rule_no_hash (request : Request) : '#' ∉ request.rule :=
  buildRule_absent _ _ _ _ request.dst.chars '#'

theorem rule_no_nul (request : Request) : '\x00' ∉ request.rule :=
  buildRule_absent _ _ _ _ request.dst.chars '\x00'

theorem port_digits (port : Port) : 1 ≤ (str port).length ∧ (str port).length ≤ 5 :=
  ⟨decimal_length_pos _,(decimal_length_le _ 5 (by decide)).mpr (by omega)⟩

theorem message_length (request : Request) (host : Str) :
    (request.message host).length = 176 + (str request.inPort).length + (str request.outPort).length + host.length := by
  rw [message,List.length_append,List.length_cons,rule_length]
  omega

/-- Both ports are written with one digit. -/
def Short (request : Request) : Prop := (request.inPort : Nat) < 10 ∧ (request.outPort : Nat) < 10

instance (request : Request) : Decidable request.Short := by
  unfold Short
  infer_instance

theorem short_iff (request : Request) : request.Short ↔ request.rule.length = 177 := by
  have ⟨inLow,_⟩ := port_digits request.inPort
  have ⟨outLow,_⟩ := port_digits request.outPort
  have inOne := decimal_length_one (request.inPort : Nat)
  have outOne := decimal_length_one (request.outPort : Nat)
  rw [rule_length,Short,← inOne,← outOne]
  simp only [str] at *
  omega

theorem rule_long (request : Request) (long : ¬request.Short) : 178 ≤ request.rule.length := by
  have ⟨inLow,_⟩ := port_digits request.inPort
  have ⟨outLow,_⟩ := port_digits request.outPort
  have exact := mt request.short_iff.mpr long
  rw [rule_length] at exact ⊢
  omega

def sample : Request where
  datapath := 1
  inPort := 1
  outPort := 2
  dst := ⟨"00:00:00:00:00:02".toList,literal_length,literal_all macChar⟩

end Request

namespace ConsensusSwitch

def learned (macToPort : MacTable) (msg : PacketIn) : MacTable :=
  macToPort.learn msg.datapath msg.eth.src msg.inPort

def target (macToPort : MacTable) (msg : PacketIn) : Port :=
  (learned macToPort msg).outPort msg.datapath msg.eth.dst

/-- The request the handler makes: one when the destination is known, none otherwise. -/
def requested (macToPort : MacTable) (msg : PacketIn) : Option Request :=
  if target macToPort msg ≠ OFPP_FLOOD then
    some {
      datapath := msg.datapath
      inPort := msg.inPort
      outPort := target macToPort msg
      dst := msg.eth.dst }
  else none

def writes (host : Str) (request : Request) : List Effect :=
  [.send (str (request.message host).length),.send (request.message host)]

theorem packetInHandler_effects (host : Str) (macToPort : MacTable) (msg : PacketIn) :
    packetInHandler host macToPort msg =
      (learned macToPort msg,
        (requested macToPort msg).toList.flatMap (writes host) ++ [.packetOut (msg.reply (target macToPort msg))]) := by
  let message := Request.message {
    datapath := msg.datapath
    inPort := msg.inPort
    outPort := target macToPort msg
    dst := msg.eth.dst } host
  have handled : packetInHandler host macToPort msg =
      (learned macToPort msg,
        (if target macToPort msg ≠ OFPP_FLOOD then [.send (str message.length),.send message] else []) ++
          [.packetOut (msg.reply (target macToPort msg))]) := rfl
  rw [handled,requested]
  by_cases known : target macToPort msg ≠ OFPP_FLOOD
  · rw [if_pos known,if_pos known]
    rfl
  · rw [if_neg known,if_neg known]
    rfl

theorem requested_some (macToPort : MacTable) (msg : PacketIn) (request : Request)
    (asked : requested macToPort msg = some request) :
    target macToPort msg ≠ OFPP_FLOOD ∧ request.inPort = msg.inPort ∧ request.outPort = target macToPort msg ∧
      request.dst = msg.eth.dst := by
  unfold requested at asked
  split at asked
  · rename_i known
    obtain rfl := Option.some.inj asked
    exact ⟨known,rfl,rfl,rfl⟩
  · contradiction

-- Two hosts on one switch: the first packet teaches the port that the second asks for.
def otherMac : Mac := ⟨"00:00:00:00:00:01".toList,literal_length,literal_all macChar⟩

def samplePacket (inPort : Port) (dst src : Mac) : PacketIn where
  datapath := 1
  inPort := inPort
  bufferId := OFP_NO_BUFFER
  data := []
  eth := { dst := dst,src := src,ethertype := 0x0800 }

def teaching : PacketIn := samplePacket 2 otherMac Request.sample.dst
def asking : PacketIn := samplePacket 1 Request.sample.dst otherMac

theorem sample_macs : Request.sample.dst ≠ otherMac := by
  intro same
  exact absurd (String.toList_inj.mp (congrArg Mac.text same)) (by decide)

theorem teaching_unasked : requested ∅ teaching = none := by
  have unknown : target ∅ teaching = OFPP_FLOOD := by
    simp [target,learned,MacTable.outPort_learn,teaching,samplePacket,sample_macs.symm]
    rfl
  simp [requested,unknown]

theorem asking_requested : requested (learned ∅ teaching) asking = some Request.sample := by
  have known : target (learned ∅ teaching) asking = 2 := by
    simp [target,learned,MacTable.outPort_learn,teaching,asking,samplePacket,sample_macs]
  have other : (2 : Port) ≠ OFPP_FLOOD := by decide
  rw [requested,known,if_pos other]
  rfl

end ConsensusSwitch
end NfvConsensus
