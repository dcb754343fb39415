import Mathlib.Algebra.GroupWithZero.Nat
import Mathlib.Data.List.Induction
import Mathlib.Data.List.Perm.Subperm
import Mathlib.Logic.Function.Basic

/-! Length-prefixed framing of a stream. A header of fixed width announces the size
of the body that follows it. The decoder takes every complete frame off the front
of its input and keeps the rest, so its results do not depend on how the stream was
cut into arrivals, nor on the arrivals of other channels in between. -/
namespace NfvConsensus.Foundation.Framing

structure Format (α : Type*) where
  width : Nat
  width_pos : 0 < width
  size : List α → Nat

structure Frame (α : Type*) where
  head : List α
  body : List α

namespace Format
variable {α : Type*} (format : Format α)

def head (input : List α) : List α := input.take format.width

def body (input : List α) : List α := (input.drop format.width).take (format.size (format.head input))

def after (input : List α) : List α := (input.drop format.width).drop (format.size (format.head input))

def Ready (input : List α) : Prop :=
  format.width ≤ input.length ∧ format.size (format.head input) ≤ input.length - format.width

instance (input : List α) : Decidable (format.Ready input) := by
  unfold Ready
  infer_instance

theorem after_shorter (input : List α) (ready : format.Ready input) :
    (format.after input).length < input.length := by
  have positive := format.width_pos
  have wide := ready.1
  simp only [after,List.length_drop]
  omega

def decode (input : List α) : List (Frame α) × List α :=
  if ready : format.Ready input then
    have := format.after_shorter input ready
    let rest := decode (format.after input)
    (⟨format.head input,format.body input⟩ :: rest.1,rest.2)
  else ([],input)
termination_by input.length

theorem decode_ready (input : List α) (ready : format.Ready input) :
    format.decode input =
      (⟨format.head input,format.body input⟩ :: (format.decode (format.after input)).1,
        (format.decode (format.after input)).2) := by
  rw [decode,dif_pos ready]

theorem decode_unready (input : List α) (unready : ¬format.Ready input) :
    format.decode input = ([],input) := by
  rw [decode,dif_neg unready]

@[simp] theorem decode_nil : format.decode [] = ([],[]) := by
  have positive := format.width_pos
  apply format.decode_unready
  intro ready
  have wide := ready.1
  simp only [List.length_nil] at wide
  omega

theorem head_append (input more : List α) (wide : format.width ≤ input.length) :
    format.head (input ++ more) = format.head input := by
  simp [head,List.take_append_of_le_length wide]

theorem ready_append (input more : List α) (ready : format.Ready input) :
    format.Ready (input ++ more) := by
  obtain ⟨wide,fits⟩ := ready
  refine ⟨by simp; omega,?_⟩
  rw [format.head_append input more wide]
  simp only [List.length_append]
  omega

theorem body_append (input more : List α) (ready : format.Ready input) :
    format.body (input ++ more) = format.body input := by
  obtain ⟨wide,fits⟩ := ready
  simp only [body,format.head_append input more wide]
  rw [List.drop_append_of_le_length wide,List.take_append_of_le_length (by simpa using fits)]

theorem after_append (input more : List α) (ready : format.Ready input) :
    format.after (input ++ more) = format.after input ++ more := by
  obtain ⟨wide,fits⟩ := ready
  simp only [after,format.head_append input more wide]
  rw [List.drop_append_of_le_length wide,List.drop_append_of_le_length (by simpa using fits)]

/-- Decoding may be interrupted anywhere and resumed on the leftover. -/
theorem decode_append (input more : List α) :
    format.decode (input ++ more) =
      ((format.decode input).1 ++ (format.decode ((format.decode input).2 ++ more)).1,
        (format.decode ((format.decode input).2 ++ more)).2) := by
  fun_induction format.decode input with
  | case1 input ready _ rest ih =>
    rw [format.decode_ready _ (format.ready_append input more ready),
      format.head_append input more ready.1,format.body_append input more ready,
      format.after_append input more ready,ih]
    rfl
  | case2 input unready => simp

end Format

namespace Frame
variable {α : Type*} {format : Format α}

def bytes (frame : Frame α) : List α := frame.head ++ frame.body

structure Valid (format : Format α) (frame : Frame α) : Prop where
  wide : frame.head.length = format.width
  announced : format.size frame.head = frame.body.length

namespace Valid
variable {frame : Frame α}

theorem bytes_length (valid : frame.Valid format) :
    frame.bytes.length = format.width + frame.body.length := by
  rw [bytes,List.length_append,valid.wide]

theorem head_bytes (valid : frame.Valid format) (rest : List α) :
    format.head (frame.bytes ++ rest) = frame.head := by
  rw [Format.head,bytes,List.append_assoc,List.take_left' valid.wide]

theorem drop_head (valid : frame.Valid format) (rest : List α) :
    (frame.bytes ++ rest).drop format.width = frame.body ++ rest := by
  rw [bytes,List.append_assoc,List.drop_left' valid.wide]

theorem ready (valid : frame.Valid format) (rest : List α) : format.Ready (frame.bytes ++ rest) := by
  have size := valid.bytes_length
  refine ⟨by rw [List.length_append,size]; omega,?_⟩
  rw [valid.head_bytes,valid.announced,List.length_append,size]
  omega

theorem decode_bytes (valid : frame.Valid format) (rest : List α) :
    format.decode (frame.bytes ++ rest) = (frame :: (format.decode rest).1,(format.decode rest).2) := by
  have body : format.body (frame.bytes ++ rest) = frame.body := by
    rw [Format.body,valid.head_bytes,valid.announced,valid.drop_head,List.take_left' rfl]
  have after : format.after (frame.bytes ++ rest) = rest := by
    rw [Format.after,valid.head_bytes,valid.announced,valid.drop_head,List.drop_left' rfl]
  rw [format.decode_ready _ (valid.ready rest),valid.head_bytes,body,after]

theorem cut_unready (valid : frame.Valid format) (arrived missing : List α)
    (cut : arrived ++ missing = frame.bytes) (absent : missing ≠ []) : ¬format.Ready arrived := by
  intro ready
  obtain ⟨wide,fits⟩ := ready
  have top : format.head arrived = frame.head := by
    rw [← format.head_append arrived missing wide,cut,← List.append_nil frame.bytes,valid.head_bytes]
  have total := congrArg List.length cut
  have positive := List.length_pos_iff.mpr absent
  rw [List.length_append,valid.bytes_length] at total
  rw [top,valid.announced] at fits
  omega

end Valid
end Frame

namespace Format
variable {α : Type*} (format : Format α)

theorem decode_whole (input : List α) :
    (format.decode input).1.flatMap Frame.bytes ++ (format.decode input).2 = input := by
  fun_induction format.decode input with
  | case1 input ready _ rest ih =>
    have cut : (⟨format.head input,format.body input⟩ : Frame α).bytes ++ format.after input = input := by
      rw [Frame.bytes,head,body,after,List.append_assoc,List.take_append_drop,List.take_append_drop]
    rw [List.flatMap_cons,List.append_assoc,ih,cut]
  | case2 input unready => rfl

theorem decode_leftover (input : List α) : (format.decode input).2 <:+ input := ⟨_,format.decode_whole input⟩

theorem decode_valid (input : List α) (frame : Frame α) (member : frame ∈ (format.decode input).1) :
    frame.Valid format := by
  fun_induction format.decode input with
  | case1 input ready _ rest ih =>
    rcases List.mem_cons.mp member with rfl | later
    · refine ⟨List.length_take_of_le ready.1,(List.length_take_of_le ?_).symm⟩
      rw [List.length_drop]
      exact ready.2
    · exact ih later
  | case2 input unready => contradiction

variable {format}

theorem frames_length (frames : List (Frame α)) (valid : ∀ frame ∈ frames, frame.Valid format) :
    (frames.flatMap Frame.bytes).length = (frames.map fun frame => format.width + frame.body.length).sum := by
  rw [List.length_flatMap]
  congr 1
  apply List.map_congr_left
  intro frame member
  exact (valid frame member).bytes_length

theorem decode_frames (frames : List (Frame α)) (valid : ∀ frame ∈ frames, frame.Valid format) (rest : List α) :
    format.decode (frames.flatMap Frame.bytes ++ rest) =
      (frames ++ (format.decode rest).1,(format.decode rest).2) := by
  induction frames with
  | nil => rfl
  | cons frame frames ih =>
    rw [List.flatMap_cons,List.append_assoc,(valid frame (by simp)).decode_bytes,
      ih fun other member => valid other (by simp [member])]
    rfl

/-- Of a stream of frames of which `arrived` has come in and `missing` has not, the decoder
has taken off some first frames, and its leftover continues to the others. -/
theorem decode_prefix (frames : List (Frame α)) (valid : ∀ frame ∈ frames, frame.Valid format)
    (arrived missing : List α) (stream : arrived ++ missing = frames.flatMap Frame.bytes) :
    ∃ k ≤ frames.length, (format.decode arrived).1 = frames.take k ∧
      (format.decode arrived).2 ++ missing = (frames.drop k).flatMap Frame.bytes := by
  induction frames generalizing arrived with
  | nil =>
    obtain ⟨rfl,rfl⟩ : arrived = [] ∧ missing = [] := by simpa using stream
    exact ⟨0,Nat.le_refl _,by simp,by simp⟩
  | cons frame frames ih =>
    have first := valid frame (by simp)
    have others : ∀ other ∈ frames, other.Valid format := fun other member => valid other (by simp [member])
    rw [List.flatMap_cons] at stream
    -- the cut lies within the first frame, or the first frame has come in whole
    rcases Nat.lt_or_ge arrived.length frame.bytes.length with within | beyond
    · obtain ⟨lacking,whole⟩ : arrived <+: frame.bytes :=
        List.prefix_of_prefix_length_le ⟨missing,stream⟩ ⟨_,rfl⟩ (Nat.le_of_lt within)
      have absent : lacking ≠ [] := by
        intro nothing
        rw [nothing,List.append_nil] at whole
        rw [whole] at within
        exact Nat.lt_irrefl _ within
      have unready := first.cut_unready arrived lacking whole absent
      refine ⟨0,Nat.zero_le _,by simp [format.decode_unready _ unready],?_⟩
      rw [format.decode_unready _ unready,List.drop_zero,List.flatMap_cons]
      exact stream
    · obtain ⟨more,rfl⟩ : frame.bytes <+: arrived :=
        List.prefix_of_prefix_length_le ⟨_,rfl⟩ ⟨missing,stream⟩ beyond
      rw [List.append_assoc] at stream
      obtain ⟨k,bound,taken,left⟩ := ih others more (List.append_cancel_left stream)
      refine ⟨k + 1,by simpa using bound,?_,?_⟩
      · rw [first.decode_bytes,List.take_succ_cons,taken]
      · rw [first.decode_bytes,List.drop_succ_cons,left]

end Format

/-- The entries of one channel in a log of all of them. -/
def channel {κ β : Type*} [DecidableEq κ] (k : κ) (log : List (κ × β)) : List β :=
  (log.filter fun entry => entry.1 = k).map Prod.snd

section Channel
variable {κ β γ : Type*} [DecidableEq κ]

@[simp] theorem channel_nil (k : κ) : channel k ([] : List (κ × β)) = [] := rfl

@[simp] theorem channel_append (k : κ) (first second : List (κ × β)) :
    channel k (first ++ second) = channel k first ++ channel k second := by
  simp [channel]

@[simp] theorem channel_same (k : κ) (items : List β) : channel k (items.map fun item => (k,item)) = items := by
  induction items with
  | nil => rfl
  | cons item items ih => simpa [channel] using ih

theorem channel_other (k other : κ) (different : other ≠ k) (items : List β) :
    channel k (items.map fun item => (other,item)) = [] := by
  simp [channel,different]

theorem channel_singleton (k other : κ) (item : β) :
    channel k [(other,item)] = if other = k then [item] else [] := by
  by_cases same : other = k <;> simp [channel,same]

theorem mem_channel (k : κ) (log : List (κ × β)) (item : β) : item ∈ channel k log ↔ (k,item) ∈ log := by
  simp [channel]

theorem channel_index (log : List (κ × β)) (i : Nat) (k : κ) (item : β) (entry : log[i]? = some (k,item)) :
    (channel k log)[(channel k (log.take i)).length]? = some item := by
  obtain ⟨bound,is⟩ := List.getElem?_eq_some_iff.mp entry
  have cut : log = log.take i ++ (k,item) :: log.drop (i + 1) := by
    rw [← is,← List.drop_eq_getElem_cons bound,List.take_append_drop]
  have whole := congrArg (channel k) cut
  rw [channel_append,← List.singleton_append,channel_append,channel_singleton,if_pos rfl] at whole
  rw [whole,List.getElem?_append_right (Nat.le_refl _),Nat.sub_self]
  rfl

theorem channel_place (log : List (κ × β)) (i j : Nat) (k : κ) (first second : β) (left : log[i]? = some (k,first))
    (right : log[j]? = some (k,second)) (same : (channel k (log.take i)).length = (channel k (log.take j)).length) :
    i = j := by
  have apart (i j : Nat) (item : β) (entry : log[i]? = some (k,item)) (before : i < j) :
      (channel k (log.take i)).length < (channel k (log.take j)).length := by
    obtain ⟨more,whole⟩ : log.take (i + 1) <+: log.take j := List.take_prefix_take_left (by omega)
    rw [← whole,List.take_add_one,entry,Option.toList_some,channel_append,channel_append,channel_singleton,if_pos rfl]
    simp only [List.length_append,List.length_singleton]
    omega
  rcases Nat.lt_trichotomy i j with before | equal | after
  · have shorter := apart i j first left before
    omega
  · exact equal
  · have shorter := apart j i second right after
    omega

theorem channel_found (log : List (κ × β)) (k : κ) (j : Nat) (inside : j < (channel k log).length) :
    ∃ i item, log[i]? = some (k,item) ∧ (channel k (log.take i)).length = j := by
  induction log using List.reverseRecOn with
  | nil => simp at inside
  | append_singleton log entry ih =>
    obtain ⟨source,last⟩ := entry
    rw [channel_append,channel_singleton,List.length_append] at inside
    rcases Nat.lt_or_ge j (channel k log).length with early | late
    · obtain ⟨i,item,found,place⟩ := ih early
      have bound := (List.getElem?_eq_some_iff.mp found).1
      exact ⟨i,item,by rw [List.getElem?_append_left bound,found],
        by rw [List.take_append_of_le_length (Nat.le_of_lt bound),place]⟩
    · by_cases same : source = k
      · subst same
        rw [if_pos rfl,List.length_singleton] at inside
        exact ⟨log.length,last,List.getElem?_concat_length,by rw [List.take_left' rfl]; omega⟩
      · rw [if_neg same,List.length_nil] at inside
        omega

theorem channel_count (log : List (κ × β)) (k : κ) : (channel k log).length = (log.map Prod.fst).count k := by
  rw [channel,List.length_map,List.count,List.countP_map,List.countP_eq_length_filter]
  congr 1

/-- A log that has no more entries in any channel has no more entries. -/
theorem channels_length (first : List (κ × β)) (second : List (κ × γ))
    (fewer : ∀ k, (channel k first).length ≤ (channel k second).length) : first.length ≤ second.length := by
  have sub : (first.map Prod.fst).Subperm (second.map Prod.fst) := by
    rw [List.subperm_ext_iff]
    intro k _
    rw [← channel_count,← channel_count]
    exact fewer k
  have shorter := sub.length_le
  rwa [List.length_map,List.length_map] at shorter

theorem channel_related {relation : β → γ → Prop} {first : List (κ × β)} {second : List (κ × γ)}
    (related : List.Forall₂ (fun a b => a.1 = b.1 ∧ relation a.2 b.2) first second) (k : κ) :
    List.Forall₂ relation (channel k first) (channel k second) := by
  induction related with
  | nil => exact .nil
  | @cons a b first second agree _ ih =>
    obtain ⟨source,item⟩ := a
    obtain ⟨_,other⟩ := b
    obtain ⟨rfl,agree⟩ := agree
    by_cases same : source = k
    · simp only [channel,same,List.filter_cons,decide_true,if_true,List.map_cons]
      exact .cons agree ih
    · simp only [channel,same,List.filter_cons,decide_false,Bool.false_eq_true,if_false]
      exact ih

end Channel

/-- One buffer for each channel, and the frames taken off any of them, in order. -/
structure Receiver (κ α : Type*) where
  buffer : κ → List α
  taken : List (κ × Frame α)

namespace Receiver
variable {κ α : Type*} [DecidableEq κ] (format : Format α)

def empty : Receiver κ α := ⟨fun _ => [],[]⟩

def arrive (receiver : Receiver κ α) (arrival : κ × List α) : Receiver κ α :=
  let decoded := format.decode (receiver.buffer arrival.1 ++ arrival.2)
  { buffer := Function.update receiver.buffer arrival.1 decoded.2
    taken := receiver.taken ++ decoded.1.map fun frame => (arrival.1,frame) }

def arrivals (log : List (κ × List α)) : Receiver κ α := log.foldl (arrive format) empty

theorem arrivals_snoc (log : List (κ × List α)) (arrival : κ × List α) :
    arrivals format (log ++ [arrival]) = arrive format (arrivals format log) arrival := by
  simp [arrivals]

/-- After any interleaved arrivals, one channel stands as if its bytes had come in alone
and at once. -/
theorem arrivals_channel (log : List (κ × List α)) (k : κ) :
    (channel k (arrivals format log).taken,(arrivals format log).buffer k) =
      format.decode (channel k log).flatten := by
  induction log using List.reverseRecOn with
  | nil => simp [arrivals,empty]
  | append_singleton log arrival ih =>
    obtain ⟨source,chunk⟩ := arrival
    rw [arrivals_snoc,channel_append,channel_singleton]
    by_cases same : source = k
    · subst same
      rw [if_pos rfl,List.flatten_append,List.flatten_singleton,format.decode_append,← ih]
      simp [arrive]
    · rw [if_neg same,List.append_nil,← ih]
      simp [arrive,channel_other k source same,Function.update_of_ne (Ne.symm same)]

end Receiver
end NfvConsensus.Foundation.Framing
