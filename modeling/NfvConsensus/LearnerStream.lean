import NfvConsensus.LearnerPaxos
import NfvConsensus.Manager
import NfvConsensus.LearnedRule
import NfvConsensus.Foundation.Windows

/-! From the learner to the manager's loop. Nothing in the stream marks where one
message ends, so the loop sees the messages only when every read is one of them. -/
namespace NfvConsensus.Manager
open Python Foundation.Windows ClientPaxos LearnerPaxos

/-- The counter has been raised before it divides, so an iteration stops the loop only where
`handle_request` raises. -/
theorem iterate_ok (domain : List Int) (loop : Loop) (message : Str) (tick : Tick) (post : Option Post)
    (handles : handleRequest domain message = .ok post) :
    (iterate domain loop message tick).handled = loop.handled ++ [message] ∧
      (iterate domain loop message tick).posted = loop.posted ++ [post] ∧
      (iterate domain loop message tick).stopped = loop.stopped := by
  simp [iterate,handles,Performance.updateStats,Performance.updateAvg]

theorem iterate_raises (domain : List Int) (loop : Loop) (message : Str) (tick : Tick) (error : Error)
    (raises : handleRequest domain message = .error error) :
    iterate domain loop message tick = { loop with handled := loop.handled ++ [message],stopped := true } := by
  simp [iterate,raises]

theorem mainloop_stopped (domain : List Int) (loop : Loop) (reads : List (Str × Tick)) (stopped : loop.stopped = true) :
    mainloop domain loop reads = loop := by
  cases reads with
  | nil => rfl
  | cons read reads => simp [mainloop,stopped]

/-- The messages of `reads` that the loop gets to, the first that raises included. -/
def passed (domain : List Int) : List Str → List Str
  | [] => []
  | message :: rest =>
    match handleRequest domain message with
    | .ok _ => message :: passed domain rest
    | .error _ => [message]

theorem mainloop_handled (domain : List Int) (loop : Loop) (reads : List (Str × Tick)) (running : loop.stopped = false) :
    (mainloop domain loop reads).handled = loop.handled ++ passed domain (reads.map Prod.fst) := by
  induction reads generalizing loop with
  | nil => simp [mainloop,passed]
  | cons read reads ih =>
    obtain ⟨message,tick⟩ := read
    simp only [mainloop,running,Bool.false_eq_true,if_false,List.map_cons,passed]
    cases handles : handleRequest domain message with
    | ok post =>
      obtain ⟨handled,_,stopped⟩ := iterate_ok domain loop message tick post handles
      rw [ih _ (stopped.trans running),handled,List.append_assoc,List.singleton_append]
    | error error =>
      rw [iterate_raises domain loop message tick error handles,mainloop_stopped _ _ _ rfl]

theorem passed_front (domain : List Int) (messages : List Str) : passed domain messages <+: messages := by
  induction messages with
  | nil => exact List.prefix_rfl
  | cons message messages ih =>
    unfold passed
    split
    · exact List.cons_prefix_cons.mpr ⟨rfl,ih⟩
    · exact List.cons_prefix_cons.mpr ⟨rfl,List.nil_prefix⟩

theorem passed_all (domain : List Int) (messages : List Str) :
    passed domain messages = messages ↔ ∀ message ∈ messages.dropLast, ∃ post, handleRequest domain message = .ok post := by
  induction messages with
  | nil => simp [passed]
  | cons message messages ih =>
    cases messages with
    | nil =>
      unfold passed
      split <;> simp [passed]
    | cons next messages =>
      rw [List.dropLast_cons_cons,List.forall_mem_cons,← ih,passed]
      cases handles : handleRequest domain message with
      | ok post => simp
      | error error => simp

/-- What successive calls of `recv(179)` return until the stream is used up. -/
structure Segmentation (stream : Str) (reads : List Str) : Prop where
  nonempty : ∀ read ∈ reads, read ≠ []
  bounded : ∀ read ∈ reads, read.length ≤ 179
  whole : reads.flatten = stream

theorem deliver_whole (v : ClientValue) (behind : Str) (sized : v.value.length = 179) : deliver v behind = v.value :=
  List.take_left' sized

theorem prefix_flatten {pieces first : List Str} (present : ∀ piece ∈ pieces, piece ≠ []) (front : first <+: pieces)
    (same : first.flatten = pieces.flatten) : first = pieces := by
  obtain ⟨rest,rfl⟩ := front
  rw [List.flatten_append,List.self_eq_append_right,List.flatten_eq_nil_iff] at same
  cases rest with
  | nil => rw [List.append_nil]
  | cons piece rest => exact absurd (same piece (by simp)) (present piece (by simp))

theorem passed_messages (domain : List Int) (reads messages : List Str) (nonempty : ∀ read ∈ reads, read ≠ [])
    (sized : Uniform 179 messages) (stream : reads.flatten = messages.flatten) :
    passed domain reads = messages ↔ Uniform 179 reads ∧
      ∀ message ∈ messages.dropLast, ∃ post, handleRequest domain message = .ok post := by
  constructor
  · intro same
    have all : passed domain reads = reads :=
      prefix_flatten nonempty (passed_front domain reads) (by rw [same,stream])
    obtain rfl : reads = messages := all.symm.trans same
    exact ⟨sized,(passed_all domain reads).mp all⟩
  · intro kept
    obtain ⟨whole,handles⟩ := kept
    obtain rfl : reads = messages := whole.cut_eq (by decide) sized stream
    exact (passed_all domain reads).mpr handles

/-- The loop is handed the messages delivered, each once and in order, exactly when every read
is a whole message and no message before the last raises. -/
theorem boundaries_kept_iff (domain : List Int) (now : Rat) (delivered : List (ClientValue × Str))
    (sized : ∀ delivery ∈ delivered, delivery.1.value.length = 179) (reads : List (Str × Tick))
    (segmented : Segmentation (delivered.flatMap fun delivery => deliver delivery.1 delivery.2) (reads.map Prod.fst)) :
    (mainloop domain (.start now) reads).handled = delivered.map (fun delivery => delivery.1.value) ↔
      (∀ read ∈ reads, read.1.length = 179) ∧
        ∀ message ∈ (delivered.map fun delivery => delivery.1.value).dropLast,
          ∃ post, handleRequest domain message = .ok post := by
  have stream : (reads.map Prod.fst).flatten = (delivered.map fun delivery => delivery.1.value).flatten := by
    rw [segmented.whole,List.flatMap_def]
    congr 1
    apply List.map_congr_left
    intro delivery member
    exact deliver_whole delivery.1 delivery.2 (sized delivery member)
  have uniform : Uniform 179 (delivered.map fun delivery => delivery.1.value) := by
    intro message member
    obtain ⟨delivery,present,rfl⟩ := List.mem_map.mp member
    exact sized delivery present
  have handled : (mainloop domain (.start now) reads).handled = passed domain (reads.map Prod.fst) :=
    mainloop_handled domain (.start now) reads rfl
  rw [handled,passed_messages domain _ _ segmented.nonempty uniform stream]
  simp [Uniform]

theorem segmentation_whole (delivered : List (ClientValue × Str))
    (sized : ∀ delivery ∈ delivered, delivery.1.value.length = 179) :
    Segmentation (delivered.flatMap fun delivery => deliver delivery.1 delivery.2)
      (delivered.map fun delivery => delivery.1.value) := by
  refine ⟨?_,?_,?_⟩
  · intro read member
    obtain ⟨delivery,present,rfl⟩ := List.mem_map.mp member
    exact List.ne_nil_of_length_pos (by rw [sized delivery present]; decide)
  · intro read member
    obtain ⟨delivery,present,rfl⟩ := List.mem_map.mp member
    exact Nat.le_of_eq (sized delivery present)
  · rw [List.flatMap_def]
    congr 1
    apply List.map_congr_left
    intro delivery present
    exact (deliver_whole delivery.1 delivery.2 (sized delivery present)).symm

-- Three messages of 179 characters, of which the second is for the host of another manager.
def valueOf (request : Request) (host : Nat) : ClientValue := ⟨⟨0,0⟩,179,request.message (str host)⟩

theorem valueOf_length (request : Request) (host : Nat) (short : request.Short) (digit : host < 10) :
    (valueOf request host).value.length = 179 := by
  have one : (str host).length = 1 := (Foundation.Text.decimal_length_one host).mpr digit
  change (request.message (str host)).length = 179
  rw [Request.message,List.length_append,List.length_cons,request.short_iff.mp short,one]

def sampleDeliveries : List (ClientValue × Str) :=
  [(valueOf .sample 2,[]),(valueOf { Request.sample with outPort := 5 } 3,['#']),(valueOf { Request.sample with inPort := 3 } 2,[])]

theorem sampleDeliveries_sized : ∀ delivery ∈ sampleDeliveries, delivery.1.value.length = 179 := by
  intro delivery member
  simp only [sampleDeliveries,List.mem_cons,List.not_mem_nil,or_false] at member
  rcases member with rfl | rfl | rfl
  all_goals exact valueOf_length _ _ (by decide) (by decide)

def wholeReads : List (Str × Tick) :=
  (sampleDeliveries.map fun delivery => delivery.1.value).zip [⟨1,[]⟩,⟨2,[]⟩,⟨3,[]⟩]

theorem boundaries_kept_whole : wholeReads.length = 3 ∧
    (mainloop [2] (.start 0) wholeReads).handled = sampleDeliveries.map fun delivery => delivery.1.value := by
  have cut : wholeReads.map Prod.fst = sampleDeliveries.map fun delivery => delivery.1.value := rfl
  have segmented := segmentation_whole sampleDeliveries sampleDeliveries_sized
  rw [← cut] at segmented
  refine ⟨rfl,(boundaries_kept_iff [2] 0 sampleDeliveries sampleDeliveries_sized wholeReads segmented).mpr ⟨?_,?_⟩⟩
  · intro read member
    have inside := List.mem_map_of_mem (f := Prod.fst) member
    rw [cut] at inside
    obtain ⟨delivery,present,is⟩ := List.mem_map.mp inside
    rw [← is,sampleDeliveries_sized delivery present]
  · intro message member
    obtain ⟨delivery,present,rfl⟩ := List.mem_map.mp (List.mem_of_mem_dropLast member)
    simp only [sampleDeliveries,List.mem_cons,List.not_mem_nil,or_false] at present
    rcases present with rfl | rfl | rfl
    all_goals exact ⟨_,handleRequest_message [2] _ _⟩

def sampleValue : ClientValue := valueOf .sample 2

theorem sampleValue_length : sampleValue.value.length = 179 := valueOf_length .sample 2 (by decide) (by decide)

/-- Of one message, read in two parts, the loop is handed none. -/
theorem boundaries_lost :
    Segmentation (deliver sampleValue []) [sampleValue.value.take 100,sampleValue.value.drop 100] ∧
      (mainloop [2] (.start 0) [(sampleValue.value.take 100,⟨1,[]⟩),(sampleValue.value.drop 100,⟨2,[]⟩)]).handled ≠
        [sampleValue.value] := by
  have size := sampleValue_length
  have first : (sampleValue.value.take 100).length = 100 := List.length_take_of_le (by omega)
  have second : (sampleValue.value.drop 100).length = 79 := by rw [List.length_drop,size]
  have segmented : Segmentation (deliver sampleValue []) [sampleValue.value.take 100,sampleValue.value.drop 100] := by
    refine ⟨?_,?_,?_⟩
    · rw [List.forall_mem_cons,List.forall_mem_singleton]
      exact ⟨List.ne_nil_of_length_pos (by omega),List.ne_nil_of_length_pos (by omega)⟩
    · rw [List.forall_mem_cons,List.forall_mem_singleton]
      omega
    · simp [deliver_whole _ _ size]
  refine ⟨segmented,?_⟩
  rw [mainloop_handled _ _ _ rfl]
  intro same
  have stream : [sampleValue.value.take 100,sampleValue.value.drop 100].flatten = [sampleValue.value].flatten := by simp
  have uniform : Uniform 179 [sampleValue.value] := by simpa [Uniform] using size
  have whole := ((passed_messages [2] _ _ segmented.nonempty uniform stream).mp same).1
  have full := whole (sampleValue.value.take 100) (by simp)
  omega

end NfvConsensus.Manager
