import NfvConsensus.Foundation.Text

/-! The built-ins of Python 2 that the scripts use. A `str` is a list of characters,
which is also what a C `char` array holds; a raised exception is an `Error`. -/
namespace NfvConsensus.Python
open Foundation.Text

abbrev Str := Chars

inductive Error
  | valueError
  | indexError
  | nameError
  | keyError
  | attributeError
  | syntaxError
  | typeError
  | zeroDivisionError
  | other (name : Str)
  deriving DecidableEq, Repr

/-- `str(n)`, and `'%d' % n`, of a nonnegative integer. -/
def str (n : Nat) : Str := decimal n

def strInt : Int → Str
  | .ofNat n => str n
  | .negSucc n => '-' :: str (n + 1)

def split (sep : Char) (s : Str) : List Str := s.splitOn sep

def join (sep : Str) (parts : List Str) : Str := sep.intercalate parts

def unpack : List Str → Except Error (Str × Str)
  | [first,second] => .ok (first,second)
  | _ => .error .valueError

def readlines (file : Str) : List Str := lines file

/-- `s[:-1]` -/
def chop (s : Str) : Str := s.dropLast

def contains (part s : Str) : Bool := decide (part <:+: s)

def isSpace (c : Char) : Bool := c ∈ [' ','\t','\n','\r','\x0b','\x0c']

def strip (s : Str) : Str := ((s.dropWhile isSpace).reverse.dropWhile isSpace).reverse

/-- `int(s)`: an optional sign and decimal digits, between optional white space. -/
def int (s : Str) : Except Error Int :=
  let unsigned (digits : Str) : Except Error Nat :=
    match readDecimal digits with
    | some n => .ok n
    | none => .error .valueError
  match strip s with
  | '-' :: digits => (unsigned digits).map fun n => -(n : Int)
  | '+' :: digits => (unsigned digits).map fun n => (n : Int)
  | digits => (unsigned digits).map fun n => (n : Int)

def range (low high : Int) : List Int := (List.range (high - low).toNat).map fun (i : Nat) => low + (i : Int)

@[simp] theorem mem_range (low high x : Int) : x ∈ range low high ↔ low ≤ x ∧ x < high := by
  simp only [range,List.mem_map,List.mem_range]
  constructor
  · intro member
    obtain ⟨i,bound,rfl⟩ := member
    omega
  · intro between
    obtain ⟨above,below⟩ := between
    exact ⟨(x - low).toNat,by omega,by omega⟩

theorem dropWhile_none (p : Char → Bool) (s : Str) (none : ∀ c ∈ s, p c = false) : s.dropWhile p = s := by
  cases s with
  | nil => rfl
  | cons c rest => simp [List.dropWhile,none c (by simp)]

theorem strip_spaceless (s : Str) (spaceless : ∀ c ∈ s, isSpace c = false) : strip s = s := by
  rw [strip,dropWhile_none isSpace s spaceless,
    dropWhile_none isSpace s.reverse (by simpa using spaceless),List.reverse_reverse]

theorem digit_not_space (c : Char) (digit : c.isDigit = true) : isSpace c = false := by
  have digitless : [' ','\t','\n','\r','\x0b','\x0c'].all (fun space => !space.isDigit) = true := by decide
  rw [isSpace,decide_eq_false_iff_not]
  intro space
  have excluded := List.all_eq_true.mp digitless c space
  rw [digit] at excluded
  contradiction

theorem int_digits (s : Str) (present : s ≠ []) (digits : ∀ c ∈ s, c.isDigit = true) :
    int s = .ok (Nat.ofDigitChars 10 s 0 : Nat) := by
  have same := strip_spaceless s fun c member => digit_not_space c (digits c member)
  have value : readDecimal s = some (Nat.ofDigitChars 10 s 0) := by
    simp [readDecimal,present,List.all_eq_true.mpr digits]
  have minus : '-' ∉ s := check_absent digits
  have plus : '+' ∉ s := check_absent digits
  unfold int
  rw [same]
  split
  · simp at minus
  · simp at plus
  · simp [value,Except.map]

@[simp] theorem int_str (n : Nat) : int (str n) = .ok (n : Int) := by
  rw [str,int_digits _ (decimal_ne_nil n) (decimal_digit n),decimal_value]

theorem str_absent (n : Nat) (c : Char) (other : c.isDigit = false := by decide) : c ∉ str n := decimal_absent n c other

theorem str_inj (n m : Nat) : str n = str m ↔ n = m := decimal_inj n m

theorem split_absent (sep : Char) (s : Str) (absent : sep ∉ s) : split sep s = [s] := splitOn_absent sep s absent

theorem split_first (sep : Char) (field rest : Str) (absent : sep ∉ field) :
    split sep (field ++ sep :: rest) = field :: split sep rest :=
  splitOn_first sep field rest absent

@[simp] theorem join_singleton (sep part : Str) : join sep [part] = part := List.intercalate_singleton

theorem join_cons (sep first second : Str) (parts : List Str) :
    join sep (first :: second :: parts) = first ++ sep ++ join sep (second :: parts) :=
  List.intercalate_cons_cons

theorem join_pair (sep : Char) (first second : Str) : join [sep] [first,second] = first ++ sep :: second := by
  rw [join_cons,join_singleton,List.append_assoc,List.singleton_append]

@[simp] theorem join_nil (parts : List Str) : join [] parts = parts.flatten := by
  induction parts with
  | nil => rfl
  | cons part parts ih =>
    cases parts with
    | nil => simp
    | cons next parts =>
      rw [join_cons,ih,List.append_nil]
      rfl

-- A string literal is the list of its characters; these state it for a check or a
-- length, so that neither has to decode the literal.
theorem literal_all (p : Char → Bool) {text : List Char} (checked : text.all p = true := by decide) :
    ∀ c ∈ (String.ofList text).toList, p c = true := by
  rw [String.toList_ofList]
  exact List.all_eq_true.mp checked

theorem literal_length {text : List Char} {n : Nat} (counted : text.length = n := by decide) :
    (String.ofList text).toList.length = n := by
  rw [String.toList_ofList,counted]

theorem literal_append {first second whole : List Char} (joined : first ++ second = whole := by rfl) :
    (String.ofList whole).toList = (String.ofList first).toList ++ (String.ofList second).toList := by
  simp only [String.toList_ofList,joined]

theorem split_join (sep : Char) (fields : List Str) (present : fields ≠ []) (absent : ∀ field ∈ fields, sep ∉ field) :
    split sep (join [sep] fields) = fields :=
  List.splitOn_intercalate sep absent present

end NfvConsensus.Python
