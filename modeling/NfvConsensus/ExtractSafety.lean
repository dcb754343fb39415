import NfvConsensus.ExtractLoop
import NfvConsensus.RequestFraming

/-! Whatever bytes arrive, the loop of `extract_data` ends, stays within its buffer and its arrays,
and takes the same payloads however the bytes were cut. A header is three characters, so it
says at most 999; a negative one becomes a size that no buffer in memory reaches. -/
namespace NfvConsensus.ClientPaxos
open Python Foundation.Text Foundation.Framing Foundation.Transition

theorem digits_bound (digits : Str) (all : ∀ c ∈ digits, c.isDigit = true) :
    Nat.ofDigitChars 10 digits 0 < 10^digits.length := by
  induction digits using List.reverseRecOn with
  | nil => simp [Nat.ofDigitChars]
  | append_singleton digits c ih =>
    have digit := all c (by simp)
    have before := ih fun other member => all other (by simp [member])
    have value : c.toNat - '0'.toNat < 10 := by
      have nine := (Char.isDigit_iff_toNat.mp digit).2
      have last : '9'.toNat = 57 := rfl
      have zero : '0'.toNat = 48 := rfl
      omega
    rw [Nat.ofDigitChars_append,List.length_append,List.length_singleton,Nat.pow_succ]
    simp only [Nat.ofDigitChars_cons,Nat.ofDigitChars_nil]
    omega

theorem atoi_range (dados : Str) (three : dados.length ≤ 3) : -99 ≤ atoi dados ∧ atoi dados ≤ 999 := by
  have value (digits : Str) (n : Nat) (short : digits.length ≤ n) :
      Nat.ofDigitChars 10 (digits.takeWhile Char.isDigit) 0 < 10^n := by
    have bound := digits_bound (digits.takeWhile Char.isDigit) fun c member => List.mem_takeWhile_imp member
    have size := (List.takeWhile_prefix Char.isDigit).length_le.trans short
    exact bound.trans_le (Nat.pow_le_pow_right (by decide) size)
  have short := (List.length_dropWhile_le isSpace dados).trans three
  unfold atoi
  dsimp only
  split
  · rename_i digits shape
    rw [shape] at short
    have bound := value digits 2 (Nat.le_of_succ_le_succ short)
    omega
  · rename_i digits shape
    rw [shape] at short
    have bound := value digits 2 (Nat.le_of_succ_le_succ short)
    omega
  · have bound := value _ 3 short
    omega

theorem sizeT_fits (dadosSize : Int) (range : -99 ≤ dadosSize ∧ dadosSize ≤ 999) (len : Nat)
    (memory : len + MAX_VALUE_SIZE ≤ 2^64) (fits : sizeT dadosSize ≤ len) :
    ∃ n : Nat, n ≤ 999 ∧ dadosSize = n ∧ sizeT dadosSize = n := by
  simp only [sizeT,MAX_VALUE_SIZE] at *
  exact ⟨dadosSize.toNat,by omega,by omega,by omega⟩

theorem minus_le (a b : Nat) (small : a < 2^64) (less : b ≤ a) : minus a b = a - b := by
  unfold minus
  omega

theorem overwrite_short (array bytes : Str) (covered : array.length ≤ bytes.length) : overwrite array bytes = bytes := by
  rw [overwrite,List.drop_eq_nil_of_le covered,List.append_nil]

namespace Operation

/-- A copy finds the whole header, a subtraction does not wrap, and what is removed has the
size announced and fits the array. -/
def Safe : Operation → Prop
  | .copyout found => found.length = Extraction.headerSize
  | .subtract len amount => amount ≤ len
  | .drain bytes => bytes.length = Extraction.headerSize
  | .remove dadosSize bytes =>
    0 ≤ dadosSize ∧ dadosSize ≤ 999 ∧ dadosSize < MAX_VALUE_SIZE ∧ (bytes.length : Int) = dadosSize

def consumed : Operation → Str
  | .drain bytes => bytes
  | .remove _ bytes => bytes
  | _ => []

def payload : Operation → Option Str
  | .remove _ bytes => some bytes
  | _ => none

end Operation

namespace Extraction

/-- `buffered` is what was in the buffer when the loop was entered. -/
structure Safe (buffered : Str) (state : Extraction) : Prop where
  len : state.len ≤ state.input.length
  dados : state.dados.length = headerSize
  operations : ∀ operation ∈ state.operations, operation.Safe
  conserved : state.operations.flatMap Operation.consumed ++ state.input = buffered
  payloads : state.operations.filterMap Operation.payload = state.calls.map Call.payload

def skip (state : Extraction) : Extraction := { state with
  len := state.len - headerSize
  dados := state.input.take headerSize
  operations := state.operations ++ [.copyout (state.input.take headerSize),.subtract state.len headerSize] }

def accept (state : Extraction) (n : Nat) : Extraction :=
  let removed := (state.input.drop headerSize).take n
  { input := (state.input.drop headerSize).drop n
    len := state.len - headerSize - n
    v := overwrite state.v removed
    dados := state.input.take headerSize
    calls := state.calls ++ [⟨overwrite state.v removed,n⟩]
    operations := state.operations ++ [.copyout (state.input.take headerSize),.subtract state.len headerSize,
      .drain (state.input.take headerSize),.remove n removed,.subtract (state.len - headerSize) n] }

theorem iterate_cases (state next : Extraction) (len : state.len ≤ state.input.length)
    (dados : state.dados.length = headerSize) (memory : state.len + MAX_VALUE_SIZE ≤ 2^64)
    (taken : state.iterate = some next) : headerSize ≤ state.len ∧
      ((state.len - headerSize < sizeT (atoi (state.input.take headerSize)) ∧ next = state.skip) ∨
        ∃ n : Nat, n ≤ 999 ∧ atoi (state.input.take headerSize) = n ∧ n ≤ state.len - headerSize ∧ next = state.accept n) := by
  have below : state.len < 2^64 := lt_of_lt_of_le (Nat.lt_add_of_pos_right (by decide)) memory
  unfold iterate at taken
  split at taken
  · rename_i more
    have found : (state.input.take headerSize).length = headerSize := List.length_take_of_le (more.trans len)
    have header : overwrite state.dados (state.input.take headerSize) = state.input.take headerSize :=
      overwrite_short _ _ (by omega)
    have fewer : minus state.len headerSize = state.len - headerSize := minus_le _ _ below more
    simp only [header,fewer] at taken
    refine ⟨more,?_⟩
    split at taken
    · rename_i fits
      have range := atoi_range (state.input.take headerSize) (Nat.le_of_eq found)
      obtain ⟨n,small,value,size⟩ := sizeT_fits _ range _ (by omega) fits
      rw [size] at fits taken
      have rest : minus (state.len - headerSize) n = state.len - headerSize - n := minus_le _ _ (by omega) fits
      rw [value,rest,List.append_assoc] at taken
      exact .inr ⟨n,small,value,fits,(Option.some.inj taken).symm⟩
    · rename_i lacking
      exact .inl ⟨Nat.lt_of_not_le lacking,(Option.some.inj taken).symm⟩
  · contradiction

theorem skip_safe (buffered : Str) (state : Extraction) (safe : state.Safe buffered) (more : headerSize ≤ state.len) :
    state.skip.Safe buffered := by
  have found : (state.input.take headerSize).length = headerSize := List.length_take_of_le (more.trans safe.len)
  refine ⟨(Nat.sub_le _ _).trans safe.len,found,?_,?_,?_⟩
  · simp only [skip,List.forall_mem_append,List.forall_mem_cons]
    exact ⟨safe.operations,found,more,List.forall_mem_nil _⟩
  · rw [skip,List.flatMap_append]
    exact (congrArg (· ++ state.input) (List.append_nil _)).trans safe.conserved
  · rw [skip,List.filterMap_append]
    exact (List.append_nil _).trans safe.payloads

theorem removed_length (state : Extraction) (n : Nat)
    (fits : n ≤ state.input.length - headerSize) : ((state.input.drop headerSize).take n).length = n := by
  rw [List.length_take_of_le]
  rwa [List.length_drop]

theorem accept_safe (buffered : Str) (state : Extraction) (safe : state.Safe buffered) (more : headerSize ≤ state.len)
    (n : Nat) (small : n ≤ 999) (fits : n ≤ state.len - headerSize) : (state.accept n).Safe buffered := by
  have inside := safe.len
  have found : (state.input.take headerSize).length = headerSize := List.length_take_of_le (more.trans inside)
  have body := removed_length state n (fits.trans (Nat.sub_le_sub_right inside headerSize))
  have handed : Call.payload ⟨overwrite state.v ((state.input.drop headerSize).take n),n⟩ = (state.input.drop headerSize).take n := by
    have size : sizeT n = n := sizeT_natCast n (by omega)
    rw [Call.payload,size,overwrite,List.take_left' body]
  refine ⟨?_,found,?_,?_,?_⟩
  · simp only [accept,List.length_drop]
    omega
  · simp only [accept,List.forall_mem_append,List.forall_mem_cons]
    refine ⟨safe.operations,found,more,found,⟨by omega,by omega,?_,congrArg Int.ofNat body⟩,fits,List.forall_mem_nil _⟩
    simp only [MAX_VALUE_SIZE]
    omega
  · have whole : state.input.take headerSize ++ ((state.input.drop headerSize).take n ++ (state.input.drop headerSize).drop n) =
        state.input := by
      rw [List.take_append_drop,List.take_append_drop]
    rw [accept,List.flatMap_append,List.append_assoc]
    simp only [List.flatMap_cons,List.flatMap_nil,Operation.consumed,List.nil_append,List.append_nil,List.append_assoc,whole]
    exact safe.conserved
  · rw [accept,List.filterMap_append,safe.payloads,List.map_append,List.map_singleton,handed]
    rfl

/-- A buffer of a machine with 64-bit addresses, which holds the array `v` besides. -/
def InMemory (buffered : Str) : Prop := buffered.length + MAX_VALUE_SIZE ≤ 2^64

theorem Safe.memory {buffered : Str} {state : Extraction} (safe : state.Safe buffered) (memory : InMemory buffered) :
    state.len + MAX_VALUE_SIZE ≤ 2^64 := by
  have total := congrArg List.length safe.conserved
  have inside := safe.len
  rw [List.length_append] at total
  unfold InMemory at memory
  omega

theorem iterate_safe (buffered : Str) (memory : InMemory buffered) (state next : Extraction) (safe : state.Safe buffered)
    (taken : state.iterate = some next) : next.Safe buffered ∧ next.len + headerSize ≤ state.len := by
  obtain ⟨more,cases⟩ := iterate_cases state next safe.len safe.dados (safe.memory memory) taken
  rcases cases with ⟨_,rfl⟩ | ⟨n,small,_,fits,rfl⟩
  · refine ⟨skip_safe buffered state safe more,?_⟩
    simp only [skip]
    omega
  · refine ⟨accept_safe buffered state safe more n small fits,?_⟩
    simp only [accept]
    omega

theorem enter_safe (v dados buffered : Str) (three : dados.length = headerSize) : (enter v dados buffered).Safe buffered :=
  ⟨Nat.le_refl _,three,List.forall_mem_nil _,rfl,rfl⟩

theorem reachable_safe (v dados buffered : Str) (three : dados.length = headerSize) (memory : InMemory buffered)
    (state : Extraction) (reached : (extraction v dados buffered).Reachable state) : state.Safe buffered := by
  apply reached.invariant (enter_safe v dados buffered three)
  exact fun before after _ safe _ taken => (iterate_safe buffered memory before after safe taken).1

theorem iterate_extractLoop (buffered : Str) (memory : InMemory buffered) (state next : Extraction)
    (safe : state.Safe buffered) (taken : state.iterate = some next) : ∃ made, next.calls = state.calls ++ made ∧
      extractLoop state.v state.input state.len =
        (made ++ (extractLoop next.v next.input next.len).1,(extractLoop next.v next.input next.len).2) := by
  obtain ⟨more,cases⟩ := iterate_cases state next safe.len safe.dados (safe.memory memory) taken
  have more : 3 ≤ state.len := more
  rcases cases with ⟨lacking,rfl⟩ | ⟨n,small,value,fits,rfl⟩
  · refine ⟨[],(List.append_nil _).symm,?_⟩
    have lacking : ¬sizeT (atoi (state.input.take 3)) ≤ state.len - 3 := Nat.not_le_of_lt lacking
    rw [extractLoop]
    simp only [more,lacking,dif_pos,if_false]
    rfl
  · refine ⟨_,rfl,?_⟩
    have size : sizeT (atoi (state.input.take 3)) = n := (congrArg sizeT value).trans (sizeT_natCast n (by omega))
    have fits : n ≤ state.len - 3 := fits
    have body := removed_length state n (fits.trans (Nat.sub_le_sub_right safe.len 3))
    rw [extractLoop]
    simp only [more,size,fits,dif_pos,if_true]
    rw [accept,overwrite,body]
    exact congrArg (fun value => (Call.mk _ value :: _,_)) value

theorem iterate_none (state : Extraction) (ended : state.iterate = none) : state.len < headerSize := by
  by_contra more
  unfold iterate at ended
  split at ended
  · dsimp only at ended
    split at ended
    · exact absurd ended (Option.some_ne_none _)
    · exact absurd ended (Option.some_ne_none _)
  · rename_i short
    exact more (Nat.lt_of_not_le short)

/-- The loop ends, with the calls and the leftover of `extractLoop`. -/
theorem loop_ends (buffered : Str) (memory : InMemory buffered) (v dados : Str) (state : Extraction)
    (safe : state.Safe buffered) : ∃ iterations final,
      (extraction v dados buffered).run state (List.replicate iterations ()) = some final ∧ final.iterate = none ∧
        final.calls = state.calls ++ (extractLoop state.v state.input state.len).1 ∧
        final.input = (extractLoop state.v state.input state.len).2 := by
  generalize bound : state.len = len
  induction len using Nat.strongRecOn generalizing state with
  | _ len ih =>
    subst bound
    cases taken : state.iterate with
    | none =>
      have short := iterate_none state taken
      have stuck := extractLoop_stuck state.v state.input state.len fun whole => Nat.not_le_of_lt short whole.1
      rw [stuck]
      exact ⟨0,state,rfl,taken,(List.append_nil _).symm,rfl⟩
    | some next =>
      obtain ⟨still,fewer⟩ := iterate_safe buffered memory state next safe taken
      obtain ⟨made,calls,turn⟩ := iterate_extractLoop buffered memory state next safe taken
      obtain ⟨iterations,final,ran,ended,all,left⟩ := ih next.len (by simp only [headerSize] at fewer; omega) next still rfl
      refine ⟨iterations + 1,final,?_,ended,?_,?_⟩
      · rw [List.replicate_succ,Machine.run]
        exact (congrArg (Option.bind · _) taken).trans ran
      · rw [all,calls,turn,List.append_assoc]
      · rw [left,turn]

end Extraction

/-- A call of `extract_data` is safe in every state of its loop, which ends with these calls
made and this left over, whatever the array `dados` holds at first. -/
structure ExtractsSafely (v buffered : Str) (calls : List Call) (left : Str) : Prop where
  safe : ∀ dados, dados.length = Extraction.headerSize → ∀ state,
    (extraction v dados buffered).Reachable state → state.Safe buffered
  ends : ∀ dados, dados.length = Extraction.headerSize → ∃ iterations final,
    (extraction v dados buffered).run (.enter v dados buffered) (List.replicate iterations ()) = some final ∧
      final.iterate = none ∧ final.calls = calls ∧ final.input = left

theorem extractData_safe (v buffered : Str) (memory : Extraction.InMemory buffered) :
    ExtractsSafely v buffered (extractData v buffered buffered.length).1 (extractData v buffered buffered.length).2 where
  safe dados three state reached := Extraction.reachable_safe v dados buffered three memory state reached
  ends dados three := Extraction.loop_ends buffered memory v dados _ (Extraction.enter_safe v dados buffered three)

section Serve
variable {κ : Type} [DecidableEq κ]

theorem serve_payloads (arrivals : List (Arrival κ)) (k : κ) : (channel k (serve arrivals).calls).map Call.payload =
    (requestFormat.decode (arrived arrivals k)).1.map Frame.body :=
  map_related (serve_decoded arrivals k).1 fun _ _ _ agree => agree.1

/-- A payload stands in the stream behind its header, and before it the earlier ones behind theirs. -/
theorem call_place (arrivals : List (Arrival κ)) (k : κ) (calls later : List Call) (call : Call)
    (made : channel k (serve arrivals).calls = calls ++ call :: later) :
    ∃ front head rest, arrived arrivals k = front ++ (head ++ rest) ∧
      front.length = (calls.map fun call => 3 + call.payload.length).sum ∧
      head.length = 3 ∧ sizeT (atoi head) = call.payload.length := by
  have payloads := serve_payloads arrivals k
  rw [made,List.map_append,List.map_cons] at payloads
  obtain ⟨taken,rest,decoded,first,second⟩ := List.map_eq_append_iff.mp payloads.symm
  obtain ⟨frame,frames,rfl,body,_⟩ := List.map_eq_cons_iff.mp second
  have valid : ∀ other ∈ taken ++ frame :: frames, other.Valid requestFormat := by
    rw [← decoded]
    exact requestFormat.decode_valid (arrived arrivals k)
  have reach : (taken.flatMap Frame.bytes).length = (calls.map fun call => 3 + call.payload.length).sum := by
    have sizes := congrArg (List.map fun payload => 3 + payload.length) first
    rw [List.map_map,List.map_map] at sizes
    rw [Format.frames_length taken fun other member => valid other (by simp [member])]
    exact congrArg List.sum sizes
  have whole := requestFormat.decode_whole (arrived arrivals k)
  rw [decoded,List.flatMap_append,List.flatMap_cons,Frame.bytes,List.append_assoc,List.append_assoc,List.append_assoc] at whole
  have own := valid frame (by simp)
  exact ⟨_,_,_,whole.symm,reach,own.wide,own.announced.trans (congrArg List.length body)⟩

theorem arrived_split (before : List (Arrival κ)) (arrival : Arrival κ) (after : List (Arrival κ)) :
    arrived (before ++ arrival :: after) arrival.conn =
      arrived before arrival.conn ++ arrival.bytes ++ arrived after arrival.conn := by
  simp [arrived,channel]

/-- Each callback of the connection extracts safely, and together they take the payloads, and
leave the bytes, that one callback on the whole would. -/
structure ServesSafely (arrivals : List (Arrival κ)) (k : κ) : Prop where
  each : ∀ before arrival after, arrivals = before ++ arrival :: after → arrival.conn = k → ∃ calls left,
    ExtractsSafely arrival.v ((serve before).input k ++ arrival.bytes) calls left ∧
      (serve (before ++ [arrival])).calls = (serve before).calls ++ calls.map (fun call => (k,call)) ∧
      (serve (before ++ [arrival])).input k = left
  whole : ∀ v, (channel k (serve arrivals).calls).map Call.payload =
      (extractData v (arrived arrivals k) (arrived arrivals k).length).1.map Call.payload ∧
    (serve arrivals).input k = (extractData v (arrived arrivals k) (arrived arrivals k).length).2

/-- This holds of whatever arrives, however it is cut and mixed with the bytes of others. -/
theorem extract_safe (arrivals : List (Arrival κ)) (k : κ) (memory : Extraction.InMemory (arrived arrivals k)) :
    ServesSafely arrivals k := by
  constructor
  · intro before arrival after order own
    subst own
    have buffer : ((serve before).input arrival.conn).length ≤ (arrived before arrival.conn).length := by
      rw [(serve_decoded before arrival.conn).2]
      exact (requestFormat.decode_leftover _).length_le
    have fits : Extraction.InMemory ((serve before).input arrival.conn ++ arrival.bytes) := by
      rw [order,arrived_split] at memory
      simp only [Extraction.InMemory,List.length_append] at memory ⊢
      omega
    rw [serve_append]
    exact ⟨_,_,extractData_safe arrival.v _ fits,rfl,Function.update_self ..⟩
  · intro v
    obtain ⟨calls,rest⟩ := extractData_decode v (arrived arrivals k)
    have bodies := map_related (f := Call.payload) (g := Frame.body) calls fun call frame _ agree => agree.1
    rw [serve_payloads,(serve_decoded arrivals k).2,rest,bodies]
    exact ⟨rfl,rfl⟩

end Serve

-- A negative header, one that is no number, and an incomplete frame, in two arrivals.
def strayArrivals : List (Arrival Nat) :=
  let ambient (_ : Nat) : Ambient := ⟨⟨0,0⟩,[],['\x00']⟩
  [⟨0,['x','y','z','0','1'],[],ambient⟩,⟨0,['2','a','b','c','-','9','9','d'],[],ambient⟩]

theorem extract_safe_stray : ServesSafely strayArrivals 0 := by
  apply extract_safe
  have size : (arrived strayArrivals 0).length = 13 := rfl
  rw [Extraction.InMemory,size,MAX_VALUE_SIZE]
  omega

end NfvConsensus.ClientPaxos
