import NfvConsensus.Manager
import NfvConsensus.RuleText

/-! What `handle_request` makes of a message, and of the 179 characters that the learner
writes of it. A rule between ports of one digit leaves room for one digit of the host;
a longer rule leaves no room for any. -/
namespace NfvConsensus.Manager
open Python Foundation.Text

theorem handleRequest_message (domain : List Int) (request : Request) (host : Nat) :
    handleRequest domain (request.message (str host)) =
      .ok (if (host : Int) ∈ domain then some { url := url host,data := request.rule } else none) := by
  have unhashed := str_absent host '#'
  rw [handleRequest,Request.message,split_first _ _ _ request.rule_no_hash,split_absent _ _ unhashed]
  simp only [unpack,bind,Except.bind,int_str]
  split <;> rfl

def lead (host : Nat) : Nat := if host < 10 then host else if host < 100 then host / 10 else host / 100

theorem str_first (host : Nat) (octet : host < 1000) : (str host).take 1 = str (lead host) := by
  have single (n : Nat) (small : n < 10) : (str n).length = 1 := (decimal_length_one n).mpr small
  unfold lead
  split
  · rename_i small
    rw [List.take_of_length_le (Nat.le_of_eq (single host small))]
  · rename_i large
    have shape : str host = str (host / 10) ++ [Nat.digitChar (host % 10)] := decimal_step host (by omega)
    split
    · rename_i two
      rw [shape,List.take_left' (single (host / 10) (by omega))]
    · rename_i three
      have inner : str (host / 10) = str (host / 10 / 10) ++ [Nat.digitChar (host / 10 % 10)] :=
        decimal_step (host / 10) (by omega)
      rw [shape,inner,List.append_assoc,List.take_left' (single (host / 10 / 10) (by omega)),Nat.div_div_eq_div_mul]

/-- Of a message with a short rule everything is left but the later digits of the host. -/
theorem window_short (request : Request) (short : request.Short) (host : Nat) (octet : host < 1000) :
    (request.message (str host)).take 179 = request.message (str (lead host)) := by
  have size := request.short_iff.mp short
  rw [Request.message,List.take_append,size,List.take_of_length_le (by omega),List.take_succ_cons,
    str_first host octet]
  rfl

/-- A part of a message that ends before the host has no integer behind the rule. -/
theorem handleRequest_cut (request : Request) (host : Str) (count : Nat) (before : count ≤ request.rule.length + 1)
    (domain : List Int) : handleRequest domain ((request.message host).take count) = .error .valueError := by
  have unhashed := request.rule_no_hash
  rcases Nat.eq_or_lt_of_le before with exact_fit | earlier
  · have part : (request.message host).take count = request.rule ++ ['#'] := by
      rw [Request.message,List.take_append,exact_fit,List.take_of_length_le (by omega),Nat.add_sub_cancel_left]
      rfl
    rw [part,handleRequest,split_first '#' request.rule [] unhashed]
    rfl
  · have part : (request.message host).take count = request.rule.take count := by
      rw [Request.message,List.take_append_of_le_length (by omega)]
    rw [part,handleRequest,split_absent '#' _ fun member => unhashed (List.mem_of_mem_take member)]
    rfl

/-- Of a message with a longer rule no digit of the host is left. -/
theorem window_long (request : Request) (long : ¬request.Short) (host : Str) (domain : List Int) :
    ∃ error, handleRequest domain ((request.message host).take 179) = .error error := by
  have size := request.rule_long long
  exact ⟨.valueError,handleRequest_cut request host 179 (by omega) domain⟩

end NfvConsensus.Manager
