import NfvConsensus.PythonLiteral
import NfvConsensus.RuleText

/-! What the text of a rule denotes. With its quotes it is a string, and the text between them is a
flow with the values that `build_rule` has put into it. -/
namespace NfvConsensus.ConsensusSwitch
open Python Foundation.Text

theorem scanText_append (lexer : Lexer) (first second : Str) :
    lexer.scanText (first ++ second) = (lexer.scanText first).bind fun middle => middle.scanText second := by
  rw [Lexer.scanText,List.foldlM_append]
  rfl

theorem scan_quoted (quote : Char) (read text : Str) (tokens : List Token)
    (ordinary : ∀ c ∈ text, c ≠ quote ∧ c ≠ '\\' ∧ c ≠ '\n') :
    (Lexer.mk (.quoted quote read) tokens).scanText text = .ok ⟨.quoted quote (read ++ text),tokens⟩ := by
  induction text generalizing read with
  | nil => simp [Lexer.scanText,pure,Except.pure]
  | cons c text ih =>
    obtain ⟨unquoted,unescaped,single⟩ := ordinary c (by simp)
    have later := ih (read ++ [c]) fun other member => ordinary other (by simp [member])
    rw [Lexer.scanText] at later
    simp only [Lexer.scanText,List.foldlM_cons,Lexer.step,unquoted,unescaped,single,if_false,bind,Except.bind,later]
    simp

theorem scan_number (read digits : Str) (tokens : List Token) (decimal : ∀ c ∈ digits, c.isDigit = true) :
    (Lexer.mk (.number read) tokens).scanText digits = .ok ⟨.number (read ++ digits),tokens⟩ := by
  induction digits generalizing read with
  | nil => simp [Lexer.scanText,pure,Except.pure]
  | cons c digits ih =>
    have digit := decimal c (by simp)
    have later := ih (read ++ [c]) fun other member => decimal other (by simp [member])
    rw [Lexer.scanText] at later
    simp only [Lexer.scanText,List.foldlM_cons,Lexer.step,digit,if_true,bind,Except.bind,later]
    simp

theorem scan_numeral (n : Nat) (tokens : List Token) :
    (Lexer.mk .between tokens).scanText (str n) = .ok ⟨.number (str n),tokens⟩ := by
  have digits := decimal_digit n
  rw [str]
  cases shape : decimal n with
  | nil => exact absurd shape (decimal_ne_nil n)
  | cons c rest =>
    rw [shape] at digits
    have digit := digits c (by simp)
    have unquoted : ¬(c = '\'' ∨ c = '"') := not_or.mpr ⟨apart digit,apart digit⟩
    have later := scan_number [c] rest tokens fun other member => digits other (by simp [member])
    rw [Lexer.scanText] at later
    simp only [Lexer.scanText,List.foldlM_cons,Lexer.step,Lexer.begin,unquoted,digit,if_false,if_true,bind,Except.bind,later]
    simp

theorem literalEval_quoted (text : Str) (ordinary : ∀ c ∈ text, plain c = true) :
    literalEval ('\'' :: text ++ ['\'']) = .ok (.str text) := by
  have inner := scan_quoted '\'' [] text [] fun c member =>
    have allowed := ordinary c member
    ⟨apart allowed,apart allowed,apart allowed⟩
  have scanned : Lexer.start.scanText ('\'' :: text ++ ['\'']) = .ok ⟨.between,[.text text]⟩ := by
    have opened : Lexer.start.scanText ['\''] = .ok ⟨.quoted '\'' [],[]⟩ := rfl
    have closed : (Lexer.mk (.quoted '\'' text) []).scanText ['\''] = .ok ⟨.between,[.text text]⟩ := rfl
    rw [← List.singleton_append,List.append_assoc,scanText_append,opened]
    simp only [Except.bind]
    rw [scanText_append,inner]
    exact closed
  have tokens : tokenize ('\'' :: text ++ ['\'']) = .ok [.text text] := by
    rw [tokenize,scanned]
    rfl
  rw [literalEval,tokens]
  simp [isSpace,bind,Except.bind,parseValue,adjacent]

theorem literalEval_rule (request : Request) : literalEval request.rule =
    .ok (.str (ruleBody request.datapath request.inPort request.outPort request.dst.text)) := by
  have ordinary := ruleBody_plain request.datapath request.inPort request.outPort request.dst.text request.dst.chars
  rw [Request.rule,buildRule_quoted,literalEval_quoted _ ordinary]

theorem numeral_str (n : Nat) : numeral (str n) = .ok (n : Int) := by
  have value : Nat.ofDigitChars 10 (str n) 0 = n := decimal_value n
  rcases Nat.eq_zero_or_pos n with rfl | positive
  · rfl
  · unfold numeral
    split
    · rename_i shape
      have head := decimal_head n positive
      rw [← str,shape] at head
      simp at head
    · rw [value]

def Scans (first : Lexer) (text : Str) (second : Lexer) : Prop := first.scanText text = .ok second

theorem Scans.append {first middle last : Lexer} {text more : Str} (before : Scans first text middle)
    (after : Scans middle more last) : Scans first (text ++ more) last := by
  rw [Scans,scanText_append,before]
  exact after

theorem scans_literal {first second : Lexer} {text : List Char} (scanned : text.foldlM Lexer.step first = .ok second) :
    Scans first (String.ofList text).toList second := by
  rw [Scans,String.toList_ofList]
  exact scanned

/-- A key, a number and what closes the field. -/
theorem scans_field {first second : Lexer} {tokens : List Token} {key closing : List Char} (n : Nat)
    (before : key.foldlM Lexer.step first = .ok ⟨.between,tokens⟩)
    (after : closing.foldlM Lexer.step ⟨.number (str n),tokens⟩ = .ok second) :
    Scans first ((String.ofList key).toList ++ str n ++ (String.ofList closing).toList) second :=
  ((scans_literal before).append (scan_numeral n tokens)).append (scans_literal after)

def bodyTokens (dpid priority inPort outPort : Nat) (dst : Str) : List Token := [
  .mark '{',.text "dpid".toList,.mark ':',.number (str dpid),.mark ',',
  .text "cookie".toList,.mark ':',.number (str 1),.mark ',',
  .text "idle_timeout".toList,.mark ':',.number (str 0),.mark ',',
  .text "hard_timeout".toList,.mark ':',.number (str 0),.mark ',',
  .text "priority".toList,.mark ':',.number (str priority),.mark ',',
  .text "match".toList,.mark ':',.mark '{',
  .text "in_port".toList,.mark ':',.number (str inPort),.mark ',',
  .text "dl_dst".toList,.mark ':',.text dst,.mark '}',.mark ',',
  .text "actions".toList,.mark ':',.mark '[',.mark '{',
  .text "type".toList,.mark ':',.text "OUTPUT".toList,.mark ',',
  .text "port".toList,.mark ':',.number (str outPort),.mark '}',.mark ']',.mark '}']

theorem scans_body (datapathId inPort outPort : Nat) (dst : Str) (hex : ∀ c ∈ dst, macChar c = true) :
    Scans .start (ruleBody datapathId inPort outPort dst)
      ⟨.between,(bodyTokens (emittedDpid datapathId) OFP_DEFAULT_PRIORITY inPort outPort dst).reverse⟩ := by
  have address (tokens : List Token) : Scans ⟨.quoted '"' [],tokens⟩ dst ⟨.quoted '"' dst,tokens⟩ := by
    apply scan_quoted
    intro c member
    have allowed := hex c member
    exact ⟨apart allowed,apart allowed,apart allowed⟩
  simp only [ruleBody,join_nil,List.flatten_cons,List.flatten_nil]
  apply Scans.append (scans_field _ rfl rfl)
  apply Scans.append (scans_literal rfl)
  apply Scans.append (scans_literal rfl)
  apply Scans.append (scans_literal rfl)
  apply Scans.append (scans_field _ rfl rfl)
  apply Scans.append (((scans_field _ rfl rfl).append (address _)).append (scans_literal rfl))
  apply Scans.append (scans_field _ rfl rfl)
  apply Scans.append (scans_literal rfl)
  rfl

def flowValue (dpid priority inPort outPort : Nat) (dst : Str) : Value := .dict [
  (.str "dpid".toList,.int dpid),
  (.str "cookie".toList,.int 1),
  (.str "idle_timeout".toList,.int 0),
  (.str "hard_timeout".toList,.int 0),
  (.str "priority".toList,.int priority),
  (.str "match".toList,.dict [(.str "in_port".toList,.int inPort),(.str "dl_dst".toList,.str dst)]),
  (.str "actions".toList,.list [.dict [(.str "type".toList,.str "OUTPUT".toList),(.str "port".toList,.int outPort)]])]

theorem parseValue_text (fuel : Nat) (text : Str) (c : Char) (rest : List Token) :
    parseValue (fuel + 1) (.text text :: .mark c :: rest) = .ok (.str text,.mark c :: rest) := by
  simp [parseValue,adjacent]

theorem parseValue_number (fuel n : Nat) (rest : List Token) :
    parseValue (fuel + 1) (.number (str n) :: rest) = .ok (.int n,rest) := by
  simp [parseValue,numeral_str,bind,Except.bind]

theorem parseValue_dict {fuel : Nat} {tokens rest : List Token} {items : List (Value × Value)}
    (pairs : parsePairs fuel tokens = .ok (items,rest)) :
    parseValue (fuel + 1) (.mark '{' :: tokens) = .ok (.dict items,rest) := by
  simp [parseValue,pairs,bind,Except.bind]

theorem parseValue_single {fuel : Nat} {tokens rest : List Token} {item : Value}
    (open_item : tokens.head? ≠ some (.mark ']')) (value : parseValue fuel tokens = .ok (item,.mark ']' :: rest)) :
    parseValue (fuel + 2) (.mark '[' :: tokens) = .ok (.list [item],rest) := by
  simp [parseValue,parseItems,open_item,value,bind,Except.bind]

theorem parsePairs_more {fuel : Nat} {key : Str} {tokens rest left : List Token} {value : Value}
    {items : List (Value × Value)} (first : parseValue (fuel + 1) tokens = .ok (value,.mark ',' :: rest))
    (others : parsePairs (fuel + 1) rest = .ok (items,left)) :
    parsePairs (fuel + 2) (.text key :: .mark ':' :: tokens) = .ok ((.str key,value) :: items,left) := by
  rw [parsePairs]
  simp [parseValue_text,first,others,bind,Except.bind]

theorem parsePairs_last {fuel : Nat} {key : Str} {tokens rest : List Token} {value : Value}
    (last : parseValue (fuel + 1) tokens = .ok (value,.mark '}' :: rest)) :
    parsePairs (fuel + 2) (.text key :: .mark ':' :: tokens) = .ok ([(.str key,value)],rest) := by
  simp [parsePairs,parseValue_text,last,bind,Except.bind]

theorem parse_body (dpid priority inPort outPort : Nat) (dst : Str) :
    parseValue 48 (bodyTokens dpid priority inPort outPort dst) = .ok (flowValue dpid priority inPort outPort dst,[]) := by
  apply parseValue_dict
  apply parsePairs_more (parseValue_number _ _ _)
  apply parsePairs_more (parseValue_number _ _ _)
  apply parsePairs_more (parseValue_number _ _ _)
  apply parsePairs_more (parseValue_number _ _ _)
  apply parsePairs_more (parseValue_number _ _ _)
  apply parsePairs_more (parseValue_dict (parsePairs_more (parseValue_number _ _ _)
    (parsePairs_last (parseValue_text _ _ _ _))))
  apply parsePairs_last
  apply parseValue_single (by simp)
  apply parseValue_dict
  exact parsePairs_more (parseValue_text _ _ _ _) (parsePairs_last (parseValue_number _ _ _))

theorem literalEval_body (datapathId inPort outPort : Nat) (dst : Str) (hex : ∀ c ∈ dst, macChar c = true) :
    literalEval (ruleBody datapathId inPort outPort dst) =
      .ok (flowValue (emittedDpid datapathId) OFP_DEFAULT_PRIORITY inPort outPort dst) := by
  have tokens : tokenize (ruleBody datapathId inPort outPort dst) =
      .ok (bodyTokens (emittedDpid datapathId) OFP_DEFAULT_PRIORITY inPort outPort dst) := by
    have scanned := scans_body datapathId inPort outPort dst hex
    rw [Scans] at scanned
    rw [tokenize,scanned]
    simp only [bind,Except.bind,Lexer.flush,List.reverse_reverse]
  have opening : (ruleBody datapathId inPort outPort dst).head? = some '{' := by
    have text : "\x7b\"dpid\": ".toList = "\x7b".toList ++ "\"dpid\": ".toList := literal_append
    have brace : "\x7b".toList = ['{'] := String.toList_ofList
    simp only [ruleBody,join_nil,List.flatten_cons,List.append_assoc]
    rw [text,brace]
    rfl
  have length : (bodyTokens (emittedDpid datapathId) OFP_DEFAULT_PRIORITY inPort outPort dst).length + 1 = 48 := rfl
  have unspaced : isSpace '{' = false := by decide
  rw [literalEval,opening,Option.any_some,unspaced,tokens]
  simp only [Bool.false_eq_true,if_false,bind,Except.bind,length,parse_body]
  rfl

/-- The flow has the values that `build_rule` put into the text. -/
structure Carries (request : Request) (flow : Value) : Prop where
  dpid : flow.get "dpid".toList = .ok (.int (emittedDpid request.datapath))
  cookie : flow.get "cookie".toList = .ok (.int 1)
  idleTimeout : flow.get "idle_timeout".toList = .ok (.int 0)
  hardTimeout : flow.get "hard_timeout".toList = .ok (.int 0)
  priority : flow.get "priority".toList = .ok (.int OFP_DEFAULT_PRIORITY)
  ofpMatch : flow.get "match".toList = .ok (.dict [
    (.str "in_port".toList,.int (request.inPort : Nat)),(.str "dl_dst".toList,.str request.dst.text)])
  actions : flow.get "actions".toList = .ok (.list [.dict [
    (.str "type".toList,.str "OUTPUT".toList),(.str "port".toList,.int (request.outPort : Nat))]])

theorem flowValue_carries (request : Request) :
    Carries request (flowValue (emittedDpid request.datapath) OFP_DEFAULT_PRIORITY request.inPort request.outPort
      request.dst.text) := by
  constructor <;> rfl

/-- The text between the quotes of a rule denotes a flow from one port, and its only action is an
output to the other. -/
def RuleFor (rule : Str) (inPort outPort : Port) : Prop :=
  ∃ text flow ofpMatch action, literalEval rule = .ok (.str text) ∧ literalEval text = .ok flow ∧
    flow.get "match".toList = .ok ofpMatch ∧ ofpMatch.get "in_port".toList = .ok (.int (inPort : Nat)) ∧
    flow.get "actions".toList = .ok (.list [action]) ∧ action.get "type".toList = .ok (.str "OUTPUT".toList) ∧
    action.get "port".toList = .ok (.int (outPort : Nat))

theorem rule_for (request : Request) : RuleFor request.rule request.inPort request.outPort := by
  have denoted := literalEval_body request.datapath request.inPort request.outPort request.dst.text request.dst.chars
  have carries := flowValue_carries request
  exact ⟨_,_,_,_,literalEval_rule request,denoted,carries.ofpMatch,rfl,carries.actions,rfl,rfl⟩

end NfvConsensus.ConsensusSwitch
