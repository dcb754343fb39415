import NfvConsensus.Python

/-! `ast.literal_eval` on the text of a rule, which is one line: strings with the one-letter escapes,
decimal and octal integers, lists, tuples, dicts, `None`, `True` and `False`. Prefixed
strings, numeric escapes, other numbers and top-level tuples are left out, and refused;
what is shown for every body of a request takes its parser as a parameter. -/
namespace NfvConsensus.Python
open Foundation.Text

/-- A `number` is one that is no integer. -/
inductive Value
  | none
  | bool (b : Bool)
  | int (n : Int)
  | number (text : Str) (zero : Bool)
  | str (s : Str)
  | list (items : List Value)
  | tuple (items : List Value)
  | dict (items : List (Value × Value))

inductive Token
  | text (s : Str)
  | number (digits : Str)
  | name (word : Str)
  | mark (c : Char)
  deriving DecidableEq

inductive Scan
  | between
  | number (digits : Str)
  | name (word : Str)
  | quoted (quote : Char) (read : Str)
  | escaped (quote : Char) (read : Str)

/-- The tokens already complete come last one first. -/
structure Lexer where
  scan : Scan
  tokens : List Token

namespace Lexer

def start : Lexer := ⟨.between,[]⟩

def flush (lexer : Lexer) : List Token :=
  match lexer.scan with
  | .number digits => .number digits :: lexer.tokens
  | .name word => .name word :: lexer.tokens
  | _ => lexer.tokens

def isWord (c : Char) : Bool := c.isAlphanum || c == '_'

def begin (tokens : List Token) (c : Char) : Except Error Lexer :=
  if c = '\'' ∨ c = '"' then .ok ⟨.quoted c [],tokens⟩
  else if c.isDigit then .ok ⟨.number [c],tokens⟩
  else if isWord c then .ok ⟨.name [c],tokens⟩
  else if c = ' ' ∨ c = '\t' then .ok ⟨.between,tokens⟩
  else if c ∈ ['{','}','[',']','(',')',':',',','-'] then .ok ⟨.between,.mark c :: tokens⟩
  else .error .syntaxError

/-- What an escape stands for; a backslash before any other character is kept. -/
def unescape (c : Char) : Except Error Str :=
  match c with
  | '\\' => .ok ['\\']
  | '\'' => .ok ['\'']
  | '"' => .ok ['"']
  | 'n' => .ok ['\n']
  | 't' => .ok ['\t']
  | 'r' => .ok ['\r']
  | 'a' => .ok ['\x07']
  | 'b' => .ok ['\x08']
  | 'f' => .ok ['\x0c']
  | 'v' => .ok ['\x0b']
  | '\n' => .ok []
  | c => if c = 'x' ∨ c.isDigit then .error .syntaxError else .ok ['\\',c]

def step (lexer : Lexer) (c : Char) : Except Error Lexer :=
  match lexer.scan with
  | .between => begin lexer.tokens c
  | .number digits =>
    if c.isDigit then .ok ⟨.number (digits ++ [c]),lexer.tokens⟩ else begin (.number digits :: lexer.tokens) c
  | .name word =>
    if isWord c then .ok ⟨.name (word ++ [c]),lexer.tokens⟩ else begin (.name word :: lexer.tokens) c
  | .quoted quote read =>
    if c = quote then .ok ⟨.between,.text read :: lexer.tokens⟩
    else if c = '\\' then .ok ⟨.escaped quote read,lexer.tokens⟩
    else if c = '\n' then .error .syntaxError
    else .ok ⟨.quoted quote (read ++ [c]),lexer.tokens⟩
  | .escaped quote read => do
    let meant ← unescape c
    .ok ⟨.quoted quote (read ++ meant),lexer.tokens⟩

def scanText (lexer : Lexer) (text : Str) : Except Error Lexer := text.foldlM step lexer

end Lexer

def tokenize (text : Str) : Except Error (List Token) := do
  let lexer ← Lexer.start.scanText text
  match lexer.scan with
  | .quoted _ _ => .error .syntaxError
  | .escaped _ _ => .error .syntaxError
  | _ => .ok lexer.flush.reverse

/-- A numeral with a leading zero is octal. -/
def numeral : Str → Except Error Int
  | '0' :: c :: digits =>
    if (c :: digits).all (· < '8') then .ok (Nat.ofDigitChars 8 (c :: digits) 0 : Nat) else .error .syntaxError
  | digits => .ok (Nat.ofDigitChars 10 digits 0 : Nat)

def adjacent : List Token → Str × List Token
  | .text s :: rest => (s ++ (adjacent rest).1,(adjacent rest).2)
  | rest => ([],rest)

def constant (word : Str) : Except Error Value :=
  if word = ['N','o','n','e'] then .ok .none
  else if word = ['T','r','u','e'] then .ok (.bool true)
  else if word = ['F','a','l','s','e'] then .ok (.bool false)
  else .error .valueError

mutual

def parseValue : Nat → List Token → Except Error (Value × List Token)
  | 0,_ => .error .syntaxError
  | _ + 1,.text s :: rest => .ok (.str (s ++ (adjacent rest).1),(adjacent rest).2)
  | _ + 1,.number digits :: rest => do
    let n ← numeral digits
    .ok (.int n,rest)
  | _ + 1,.mark '-' :: .number digits :: rest => do
    let n ← numeral digits
    .ok (.int (-n),rest)
  | _ + 1,.name word :: rest => do
    let value ← constant word
    .ok (value,rest)
  | fuel + 1,.mark '[' :: rest => do
    let (items,_,rest) ← parseItems fuel ']' rest
    .ok (.list items,rest)
  | fuel + 1,.mark '(' :: rest => do
    let (items,comma,rest) ← parseItems fuel ')' rest
    match items,comma with
    | [item],false => .ok (item,rest)
    | items,_ => .ok (.tuple items,rest)
  | fuel + 1,.mark '{' :: rest => do
    let (items,rest) ← parsePairs fuel rest
    .ok (.dict items,rest)
  | _ + 1,_ => .error .syntaxError

/-- The items up to `close`, and whether a comma comes last. -/
def parseItems : Nat → Char → List Token → Except Error (List Value × Bool × List Token)
  | 0,_,_ => .error .syntaxError
  | fuel + 1,close,tokens =>
    if tokens.head? = some (.mark close) then .ok ([],false,tokens.tail)
    else do
      let (item,rest) ← parseValue fuel tokens
      match rest with
      | .mark c :: rest =>
        if c = close then .ok ([item],false,rest)
        else if c = ',' then do
          let (items,comma,rest) ← parseItems fuel close rest
          .ok (item :: items,items.isEmpty || comma,rest)
        else .error .syntaxError
      | _ => .error .syntaxError

def parsePairs : Nat → List Token → Except Error (List (Value × Value) × List Token)
  | 0,_ => .error .syntaxError
  | fuel + 1,tokens =>
    if tokens.head? = some (.mark '}') then .ok ([],tokens.tail)
    else do
      let (key,rest) ← parseValue fuel tokens
      match rest with
      | .mark ':' :: rest => do
        let (value,rest) ← parseValue fuel rest
        match rest with
        | .mark '}' :: rest => .ok ([(key,value)],rest)
        | .mark ',' :: rest => do
          let (items,rest) ← parsePairs fuel rest
          .ok ((key,value) :: items,rest)
        | _ => .error .syntaxError
      | _ => .error .syntaxError

end

/-- White space in front of an expression is an unexpected indent. -/
def literalEval (text : Str) : Except Error Value :=
  if text.head?.any isSpace then .error .syntaxError
  else do
    let tokens ← tokenize text
    let (value,rest) ← parseValue (tokens.length + 1) tokens
    if rest.isEmpty then .ok value else .error .syntaxError

/-- `body.get(key, None)` with a string for a key: only a dict has the method, and of equal
keys the last one counts. -/
def Value.get (body : Value) (key : Str) : Except Error Value :=
  match body with
  | .dict items =>
    let found := items.reverse.find? fun item => match item.1 with
      | .str s => s = key
      | _ => false
    .ok ((found.map Prod.snd).getD .none)
  | _ => .error .attributeError

def Value.falsy : Value → Bool
  | .none => true
  | .bool b => !b
  | .int n => n = 0
  | .number _ zero => zero
  | .str s => s.isEmpty
  | .list items => items.isEmpty
  | .tuple items => items.isEmpty
  | .dict items => items.isEmpty

/-- `int(s, 0)`: the prefix gives the base. -/
def intPrefixed (s : Str) : Except Error Int :=
  let digit (c : Char) : Nat :=
    if c.isDigit then c.toNat - '0'.toNat else if c.isLower then c.toNat - 'a'.toNat + 10
    else if c.isUpper then c.toNat - 'A'.toNat + 10 else 36
  let read (base : Nat) (digits : Str) : Except Error Nat :=
    if digits ≠ [] ∧ digits.all (fun c => digit c < base) then
      .ok (digits.foldl (fun value c => value * base + digit c) 0)
    else .error .valueError
  let unsigned : Str → Except Error Nat
    | '0' :: 'x' :: digits => read 16 digits
    | '0' :: 'X' :: digits => read 16 digits
    | '0' :: 'o' :: digits => read 8 digits
    | '0' :: 'O' :: digits => read 8 digits
    | '0' :: 'b' :: digits => read 2 digits
    | '0' :: 'B' :: digits => read 2 digits
    | '0' :: c :: digits => read 8 (c :: digits)
    | digits => read 10 digits
  match strip s with
  | '-' :: digits => (unsigned digits).map fun n => -(n : Int)
  | '+' :: digits => (unsigned digits).map fun n => (n : Int)
  | digits => (unsigned digits).map fun n => (n : Int)

/-- `int(str(value), 0)`: the text of a value that is neither a number nor a string is no numeral. -/
def Value.intOfStr : Value → Except Error Int
  | .int n => intPrefixed (strInt n)
  | .number text _ => intPrefixed text
  | .str s => intPrefixed s
  | _ => .error .valueError

theorem intPrefixed_error (s : Str) (error : Error) (raised : intPrefixed s = .error error) : error = .valueError := by
  have cast_error (first : Except Error Nat) (f : Int → Int)
      (raised : Except.map f (do let n ← first; pure (n : Int)) = .error error) : first = .error error := by
    cases first with
    | error other => exact congrArg _ (Except.error.inj raised)
    | ok n => contradiction
  unfold intPrefixed at raised
  extract_lets digit read unsigned at raised
  have read_error (base : Nat) (digits : Str) (raised : read base digits = .error error) : error = .valueError := by
    simp only [read] at raised
    split at raised
    · contradiction
    · exact (Except.error.inj raised).symm
  have unsigned_error (digits : Str) (raised : unsigned digits = .error error) : error = .valueError := by
    simp only [unsigned] at raised
    split at raised <;> exact read_error _ _ raised
  split at raised <;> exact unsigned_error _ (cast_error _ _ raised)

theorem Value.intOfStr_error (value : Value) (error : Error) (raised : value.intOfStr = .error error) :
    error = .valueError := by
  unfold Value.intOfStr at raised
  split at raised
  · exact intPrefixed_error _ error raised
  · exact intPrefixed_error _ error raised
  · exact intPrefixed_error _ error raised
  · exact (Except.error.inj raised).symm

theorem Value.get_error (value : Value) (key : Str) (error : Error) (raised : value.get key = .error error) :
    error = .attributeError := by
  unfold Value.get at raised
  split at raised
  · contradiction
  · exact (Except.error.inj raised).symm

end NfvConsensus.Python
