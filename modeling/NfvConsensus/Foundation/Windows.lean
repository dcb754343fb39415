import Mathlib.Data.List.Basic

/-! A stream of messages that all have one length carries no delimiter: a reader finds
the boundaries again exactly when every read returns a whole message. -/
namespace NfvConsensus.Foundation.Windows

variable {α : Type*} (width : Nat)

def Uniform (messages : List (List α)) : Prop := ∀ message ∈ messages, message.length = width

variable {width}

theorem Uniform.tail {message : List α} {messages : List (List α)} (uniform : Uniform width (message :: messages)) :
    Uniform width messages :=
  fun other member => uniform other (List.mem_cons_of_mem _ member)

theorem Uniform.flatten_length {messages : List (List α)} (uniform : Uniform width messages) :
    messages.flatten.length = width * messages.length := by
  induction messages with
  | nil => simp
  | cons message messages ih =>
    rw [List.flatten_cons,List.length_append,uniform message (by simp),ih uniform.tail,List.length_cons,
      Nat.mul_succ,Nat.add_comm]

theorem Uniform.cut_prefix {reads messages : List (List α)} {unread : List α} (positive : 0 < width)
    (whole : Uniform width reads) (uniform : Uniform width messages)
    (stream : reads.flatten ++ unread = messages.flatten) :
    reads = messages.take reads.length ∧ unread = (messages.drop reads.length).flatten := by
  induction reads generalizing messages with
  | nil => exact ⟨rfl,by simpa using stream⟩
  | cons read reads ih =>
    have size := whole read (by simp)
    cases messages with
    | nil =>
      have empty : read = [] := by
        simp only [List.flatten_cons,List.flatten_nil,List.append_assoc,List.append_eq_nil_iff] at stream
        exact stream.1
      subst empty
      simp only [List.length_nil] at size
      omega
    | cons message messages =>
      simp only [List.flatten_cons,List.append_assoc] at stream
      obtain ⟨rfl,rest⟩ := List.append_inj stream (by rw [size,uniform message (by simp)])
      obtain ⟨reads_eq,unread_eq⟩ := ih whole.tail uniform.tail rest
      exact ⟨by rw [List.length_cons,List.take_succ_cons,← reads_eq],by simpa using unread_eq⟩

theorem Uniform.cut_eq {reads messages : List (List α)} (positive : 0 < width)
    (whole : Uniform width reads) (uniform : Uniform width messages)
    (stream : reads.flatten = messages.flatten) : reads = messages := by
  obtain ⟨reads_eq,left⟩ := Uniform.cut_prefix positive whole uniform ((List.append_nil _).trans stream)
  have lengths := congrArg List.length stream
  rw [whole.flatten_length,uniform.flatten_length] at lengths
  have same := Nat.eq_of_mul_eq_mul_left positive lengths
  rw [reads_eq,same,List.take_length]

end NfvConsensus.Foundation.Windows
