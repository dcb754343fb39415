import Mathlib.Algebra.Group.Int.Defs
import Mathlib.Algebra.GroupWithZero.Nat
import Mathlib.Data.List.Infix

/-! Decimal numerals, delimited fields and newline-terminated lines over lists of
characters. Every reader here is stated against the writer it undoes: a numeral
read back, a field cut at its first delimiter, a file cut into its lines. -/
namespace NfvConsensus.Foundation.Text

abbrev Chars := List Char

def decimal (n : Nat) : Chars := Nat.toDigits 10 n

def readDecimal (text : Chars) : Option Nat :=
  if text ≠ [] ∧ text.all Char.isDigit then some (Nat.ofDigitChars 10 text 0) else none

/-- Characters that a check tells apart are different. -/
theorem apart {check : Char → Bool} {c d : Char} (passes : check c = true) (fails : check d = false := by decide) :
    c ≠ d := by
  intro same
  rw [← same,passes] at fails
  contradiction

/-- A character that fails a check is not in a text whose characters all pass it. -/
theorem check_absent {check : Char → Bool} {text : Chars} {c : Char} (passes : ∀ d ∈ text, check d = true)
    (fails : check c = false := by decide) : c ∉ text :=
  fun member => apart (passes c member) fails rfl

theorem decimal_digit (n : Nat) (c : Char) (member : c ∈ decimal n) : c.isDigit = true :=
  Nat.isDigit_of_mem_toDigits (by decide) (by decide) member

theorem decimal_absent (n : Nat) (c : Char) (other : c.isDigit = false := by decide) : c ∉ decimal n :=
  check_absent (decimal_digit n) other

@[simp] theorem decimal_ne_nil (n : Nat) : decimal n ≠ [] := Nat.toDigits_ne_nil

@[simp] theorem decimal_value (n : Nat) : Nat.ofDigitChars 10 (decimal n) 0 = n :=
  Nat.ofDigitChars_ten_toDigits

theorem decimal_injective : Function.Injective decimal := by
  intro n m equal
  have values := congrArg (fun text => Nat.ofDigitChars 10 text 0) equal
  simpa using values

@[simp] theorem decimal_inj (n m : Nat) : decimal n = decimal m ↔ n = m :=
  decimal_injective.eq_iff

theorem decimal_length_pos (n : Nat) : 0 < (decimal n).length := Nat.length_toDigits_pos

theorem decimal_length_le (n k : Nat) (positive : 0 < k) : (decimal n).length ≤ k ↔ n < 10^k :=
  Nat.length_toDigits_le_iff (by decide) positive

theorem decimal_length_one (n : Nat) : (decimal n).length = 1 ↔ n < 10 := by
  have bound := decimal_length_le n 1 (by decide)
  have positive := decimal_length_pos n
  omega

theorem decimal_length_three (n : Nat) (low : 100 ≤ n) (high : n < 1000) :
    (decimal n).length = 3 := by
  have upper := decimal_length_le n 3 (by decide)
  have lower := decimal_length_le n 2 (by decide)
  omega

theorem decimal_step (n : Nat) (large : 10 ≤ n) :
    decimal n = decimal (n / 10) ++ [Nat.digitChar (n % 10)] :=
  Nat.toDigits_of_base_le (by decide) large

theorem decimal_single (n : Nat) (small : n < 10) : decimal n = [Nat.digitChar n] :=
  Nat.toDigits_of_lt_base small

theorem decimal_head (n : Nat) (positive : 0 < n) : (decimal n).head? ≠ some '0' := by
  induction n using Nat.strongRecOn with
  | _ n ih =>
    rcases Nat.lt_or_ge n 10 with small | large
    · rw [decimal_single n small]
      have digits : ∀ d < 10, 0 < d → [Nat.digitChar d].head? ≠ some '0' := by decide
      exact digits n small positive
    · rw [decimal_step n large,List.head?_append_of_ne_nil _ (decimal_ne_nil _)]
      exact ih (n / 10) (by omega) (by omega)

theorem splitOn_absent (sep : Char) (text : Chars) (absent : sep ∉ text) :
    text.splitOn sep = [text] := List.splitOn_eq_singleton absent

theorem splitOn_first (sep : Char) (field rest : Chars) (absent : sep ∉ field) :
    (field ++ sep :: rest).splitOn sep = field :: rest.splitOn sep :=
  List.splitOn_append_cons_self_of_not_mem absent rest

/-- The lines of a file, each with its terminating newline when it has one. -/
def lines : Chars → List Chars
  | [] => []
  | c :: rest =>
    if c = '\n' then ['\n'] :: lines rest
    else match lines rest with
      | [] => [[c]]
      | line :: following => (c :: line) :: following

@[simp] theorem lines_nil : lines [] = [] := rfl

theorem lines_newline (rest : Chars) : lines ('\n' :: rest) = ['\n'] :: lines rest := by
  simp [lines]

theorem lines_first (line rest : Chars) (single : '\n' ∉ line) :
    lines (line ++ '\n' :: rest) = (line ++ ['\n']) :: lines rest := by
  induction line with
  | nil => exact lines_newline rest
  | cons c line ih =>
    obtain ⟨other,single⟩ : c ≠ '\n' ∧ '\n' ∉ line := by
      simpa [eq_comm] using single
    simp only [List.cons_append,lines,other,if_false,ih single]

theorem lines_ne_nil (text : Chars) (present : text ≠ []) : lines text ≠ [] := by
  cases text with
  | nil => contradiction
  | cons c rest =>
    unfold lines
    split
    · exact List.cons_ne_nil _ _
    · split <;> exact List.cons_ne_nil _ _

theorem lines_append (before after : Chars) :
    lines (before ++ '\n' :: after) = lines (before ++ ['\n']) ++ lines after := by
  induction before with
  | nil => simp [lines_newline]
  | cons c before ih =>
    by_cases newline : c = '\n'
    · subst c
      simp only [List.cons_append,lines_newline,ih]
    · simp only [List.cons_append,lines,newline,if_false,ih]
      cases cut : lines (before ++ ['\n']) with
      | nil => exact absurd cut (lines_ne_nil _ (by simp))
      | cons line following => rfl

theorem lines_records (records : List Chars) (single : ∀ record ∈ records, '\n' ∉ record) :
    lines (records.flatMap (· ++ ['\n'])) = records.map (· ++ ['\n']) := by
  induction records with
  | nil => rfl
  | cons record records ih =>
    rw [List.flatMap_cons,List.append_assoc,List.singleton_append,
      lines_first record _ (single record (by simp)),
      ih (fun other member => single other (by simp [member])),List.map_cons]

end NfvConsensus.Foundation.Text
