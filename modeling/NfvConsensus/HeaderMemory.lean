import NfvConsensus.CopyBounds

/-! `dados` has no room for a terminator, so `atoi` reads on behind it while it finds digits. What
lies there may be another thing in each iteration of the loop; a header is read as sent exactly
if it is no digit, and only where a frame is complete does it matter. -/
namespace NfvConsensus.ClientPaxos
open Python Foundation.Text Foundation.Framing Foundation.Transition

/-- What lies behind `dados`: with more digits the number would not fit an `int`. -/
structure Behind where
  bytes : Str
  fits : (bytes.takeWhile Char.isDigit).length ≤ 6

def Behind.Stops (behind : Behind) : Prop := behind.bytes.takeWhile Char.isDigit = []

def Behind.clear : Behind := ⟨[],by decide⟩

/-- The loop of `extract_data`: each iteration with the call it makes, if any, and what stays in
the buffer. -/
def readLoop (behind : Nat → Behind) (v input : Str) (len : Nat) : List (Option Call) × Str :=
  if _more : 3 ≤ len then
    let dadosSize := atoi (input.take 3 ++ (behind 0).bytes)
    let size := sizeT dadosSize
    if size ≤ len - 3 then
      let body := input.drop 3
      let v := body.take size ++ v.drop size
      let rest := readLoop (fun k => behind (k + 1)) v (body.drop size) (len - 3 - size)
      (some ⟨v,dadosSize⟩ :: rest.1,rest.2)
    else
      let rest := readLoop (fun k => behind (k + 1)) v input (len - 3)
      (none :: rest.1,rest.2)
  else ([],input)
termination_by len

def readData (behind : Nat → Behind) (v input : Str) : List (Option Call) × Str := readLoop behind v input input.length

/-- Where nothing is read behind `dados`, the calls and the leftover are those of `extract_data`. -/
theorem readLoop_clear (v input : Str) (len : Nat) :
    ((readLoop (fun _ => .clear) v input len).1.filterMap id,(readLoop (fun _ => .clear) v input len).2) =
      extractLoop v input len := by
  induction len using Nat.strongRecOn generalizing v input with
  | _ len ih =>
    rw [readLoop,extractLoop]
    have nothing : input.take 3 ++ Behind.clear.bytes = input.take 3 := List.append_nil _
    by_cases more : 3 ≤ len
    · by_cases fits : sizeT (atoi (input.take 3)) ≤ len - 3
      · simp only [more,dif_pos,nothing,fits,if_true]
        rw [← ih (len - 3 - sizeT (atoi (input.take 3))) (by omega)]
        rfl
      · simp only [more,dif_pos,nothing,fits,if_false]
        rw [← ih (len - 3) (by omega)]
        rfl
    · simp only [more,dif_neg,not_false_eq_true,List.filterMap_nil]

theorem atoi_behind (n : Nat) (bytes : Str) :
    atoi (str n ++ bytes) = (Nat.ofDigitChars 10 (str n ++ bytes.takeWhile Char.isDigit) 0 : Nat) := by
  obtain ⟨c,digits,shape⟩ := List.exists_cons_of_ne_nil (decimal_ne_nil n)
  have all : ∀ d ∈ str n, d.isDigit = true := decimal_digit n
  have first : c.isDigit = true := all c (by rw [str,shape]; exact List.mem_cons_self)
  have unspaced : (str n ++ bytes).dropWhile isSpace = str n ++ bytes := by
    rw [str,shape,List.cons_append,List.dropWhile_cons_of_neg]
    rw [digit_not_space c first]
    exact Bool.false_ne_true
  have whole : (str n ++ bytes).takeWhile Char.isDigit = str n ++ bytes.takeWhile Char.isDigit :=
    List.takeWhile_append_of_pos all
  unfold atoi
  rw [unspaced]
  split
  · rename_i rest other
    rw [str,shape,List.cons_append] at other
    exact absurd (List.cons.inj other).1 (apart first)
  · rename_i rest other
    rw [str,shape,List.cons_append] at other
    exact absurd (List.cons.inj other).1 (apart first)
  · simp only [whole]

/-- A digit behind a header makes the number at least ten times as large. -/
theorem header_value (n : Nat) (low : 1 ≤ n) (high : n < 1000) (behind : Behind) :
    ∃ value : Nat, atoi (str n ++ behind.bytes) = value ∧ sizeT value = value ∧ n ≤ value ∧ (value = n ↔ behind.Stops) := by
  have all : ∀ c ∈ str n ++ behind.bytes.takeWhile Char.isDigit, c.isDigit = true := by
    rw [List.forall_mem_append]
    exact ⟨decimal_digit n,fun c member => List.mem_takeWhile_imp member⟩
  have bound := digits_bound _ all
  have short : (str n ++ behind.bytes.takeWhile Char.isDigit).length ≤ 9 := by
    have digits : (str n).length ≤ 3 := (decimal_length_le n 3 (by decide)).mpr high
    have fits := behind.fits
    rw [List.length_append]
    omega
  have below := bound.trans_le (Nat.pow_le_pow_right (by decide) short)
  have shifted : Nat.ofDigitChars 10 (str n ++ behind.bytes.takeWhile Char.isDigit) 0 =
      10^(behind.bytes.takeWhile Char.isDigit).length * n + Nat.ofDigitChars 10 (behind.bytes.takeWhile Char.isDigit) 0 := by
    rw [Nat.ofDigitChars_append,str,decimal_value,Nat.ofDigitChars_eq_ofDigitChars_zero]
  refine ⟨_,atoi_behind n behind.bytes,sizeT_natCast _ (by omega),?_⟩
  by_cases stops : behind.Stops
  · have same : Nat.ofDigitChars 10 (str n ++ behind.bytes.takeWhile Char.isDigit) 0 = n := by
      rw [shifted,stops]
      simp
    exact ⟨Nat.le_of_eq same.symm,iff_of_true same stops⟩
  · have more : 10^1 ≤ 10^(behind.bytes.takeWhile Char.isDigit).length :=
      Nat.pow_le_pow_right (by decide) (List.length_pos_iff.mpr stops)
    have tenfold := Nat.mul_le_mul_right n more
    exact ⟨by omega,iff_of_false (by omega) stops⟩

/-- What is in the buffer begins with a header, and behind a whole frame goes on with others. -/
theorem front_header (sent : List Sent) (input : Str) (front : input <+: sent.flatMap Sent.bytes) (wide : 3 ≤ input.length) :
    ∃ (n : Nat) (rest : List Sent), 1 ≤ n ∧ n < 1000 ∧ input.take 3 = str n ∧
      (input.drop 3).drop n <+: rest.flatMap Sent.bytes := by
  cases sent with
  | nil =>
    rw [List.prefix_nil.mp front] at wide
    contradiction
  | cons message rest =>
    have header : (str message.text.length).length = 3 := message.valid.wide
    have upper := decimal_length_le message.text.length 3 (by decide)
    have lower := decimal_length_le message.text.length 2 (by decide)
    rw [List.flatMap_cons,Sent.bytes,Sent.frame,Frame.bytes,List.append_assoc] at front
    refine ⟨message.text.length,rest,?_,?_,?_,?_⟩
    · simp only [str] at header
      omega
    · simp only [str] at header
      omega
    · have begins := front.take 3
      rw [List.take_left' header] at begins
      exact begins.eq_of_length ((List.length_take_of_le wide).trans header.symm)
    · have behind := (front.drop 3).drop message.text.length
      rwa [List.drop_left' header,List.drop_left' rfl] at behind

section Loop
variable (behind : Nat → Behind) (v input : Str) (len value : Nat)

theorem readLoop_ready (number : atoi (input.take 3 ++ (behind 0).bytes) = value) (size : sizeT value = value)
    (more : 3 ≤ len) (fits : value ≤ len - 3) : readLoop behind v input len =
      (some ⟨(input.drop 3).take value ++ v.drop value,value⟩ ::
        (readLoop (fun k => behind (k + 1)) ((input.drop 3).take value ++ v.drop value) ((input.drop 3).drop value)
          (len - 3 - value)).1,
        (readLoop (fun k => behind (k + 1)) ((input.drop 3).take value ++ v.drop value) ((input.drop 3).drop value)
          (len - 3 - value)).2) := by
  rw [readLoop]
  simp only [more,dif_pos,number,size,fits,if_true]

theorem readLoop_unready (number : atoi (input.take 3 ++ (behind 0).bytes) = value) (size : sizeT value = value)
    (more : 3 ≤ len) (lacking : len - 3 < value) : readLoop behind v input len =
      (none :: (readLoop (fun k => behind (k + 1)) v input (len - 3)).1,
        (readLoop (fun k => behind (k + 1)) v input (len - 3)).2) := by
  have unfit : ¬value ≤ len - 3 := Nat.not_le_of_lt lacking
  rw [readLoop]
  simp only [more,dif_pos,number,size,unfit,if_false]

/-- Whether the frame is taken or not, no call is made first that has another length. -/
theorem readLoop_first (number : atoi (input.take 3 ++ (behind 0).bytes) = value) (size : sizeT value = value)
    (more : 3 ≤ len) (call : Call) (first : (readLoop behind v input len).1.head? = some (some call)) : call.len = value := by
  by_cases fits : value ≤ len - 3
  · rw [readLoop_ready behind v input len value number size more fits,List.head?_cons] at first
    rw [← Option.some.inj (Option.some.inj first)]
  · rw [readLoop_unready behind v input len value number size more (Nat.lt_of_not_le fits),List.head?_cons] at first
    exact absurd (Option.some.inj first) (Option.some_ne_none call).symm

end Loop

/-- The iterations that make a call find no digit behind `dados`. -/
def Stopped (behind : Nat → Behind) (iterations : List (Option Call)) : Prop :=
  ∀ k call, iterations[k]? = some (some call) → (behind k).Stops

theorem stopped_cons (behind : Nat → Behind) (first : Option Call) (rest : List (Option Call)) :
    Stopped behind (first :: rest) ↔
      (∀ call, first = some call → (behind 0).Stops) ∧ Stopped (fun k => behind (k + 1)) rest := by
  simp only [Stopped,
    ← Nat.and_forall_add_one (p := fun k => ∀ call, (first :: rest)[k]? = some (some call) → (behind k).Stops),
    List.getElem?_cons_zero,List.getElem?_cons_succ,Option.some.injEq]

theorem readLoop_iff (sent : List Sent) (behind : Nat → Behind) (v input : Str) (len : Nat) (bound : len ≤ input.length)
    (front : input <+: sent.flatMap Sent.bytes) :
    readLoop behind v input len = readLoop (fun _ => .clear) v input len ↔
      Stopped behind (readLoop (fun _ => .clear) v input len).1 := by
  induction len using Nat.strongRecOn generalizing sent behind v input with
  | _ len ih =>
    by_cases more : 3 ≤ len
    · obtain ⟨n,rest,low,high,header,onward⟩ := front_header sent input front (more.trans bound)
      obtain ⟨value,number,size,above,exactly⟩ := header_value n low high (behind 0)
      have plain : atoi (input.take 3 ++ Behind.clear.bytes) = n := by
        rw [header,Behind.clear,List.append_nil,atoi_str]
      have own : sizeT n = n := sizeT_natCast n (by omega)
      rw [← header] at number
      by_cases fits : n ≤ len - 3
      · have left : len - 3 - n ≤ ((input.drop 3).drop n).length := by
          rw [List.length_drop,List.length_drop]
          omega
        have later := ih (len - 3 - n) (by omega) rest (fun k => behind (k + 1)) ((input.drop 3).take n ++ v.drop n)
          ((input.drop 3).drop n) left onward
        rw [readLoop_ready (fun _ => .clear) v input len n plain own more fits,stopped_cons,← later]
        by_cases stops : (behind 0).Stops
        · obtain rfl : value = n := exactly.mpr stops
          rw [readLoop_ready behind v input len value number size more fits]
          simp only [List.cons.injEq,true_and,Prod.ext_iff,stops,implies_true]
        · apply iff_of_false
          · intro equal
            have length := readLoop_first behind v input len value number size more _
              (congrArg (fun read => read.1.head?) equal)
            exact stops (exactly.mp (Int.natCast_inj.mp length.symm))
          · intro stopped
            exact stops (stopped.1 _ rfl)
      · have lacking : len - 3 < n := Nat.lt_of_not_le fits
        have later := ih (len - 3) (by omega) sent (fun k => behind (k + 1)) v input (by omega) front
        rw [readLoop_unready behind v input len value number size more (lacking.trans_le above),
          readLoop_unready (fun _ => .clear) v input len n plain own more lacking,stopped_cons,← later]
        simp only [List.cons.injEq,true_and,Prod.ext_iff,reduceCtorEq,false_implies,implies_true]
    · have ended (behind : Nat → Behind) : readLoop behind v input len = ([],input) := by
        rw [readLoop,dif_neg more]
      rw [ended behind,ended fun _ => .clear]
      exact iff_of_true rfl fun k call made => by simp at made

end NfvConsensus.ClientPaxos

namespace NfvConsensus.System
open Python ClientPaxos Foundation.Framing Foundation.Transition

section Headers
variable {net : Network} {good : Nat → Request → Prop} {state : State}

/-- The frames still to be taken begin in the buffer of the connection and go on in the wire. -/
theorem Sound.pending (sound : Sound net good state) (few : net.numCtls ≤ 253) (ctl : Nat) :
    ∃ sent : List Sent, state.client.input ctl ++ state.wire ctl = sent.flatMap Sent.bytes := by
  obtain ⟨arrivals,sent,served,stream⟩ := sound.framed few ctl
  have valid : ∀ frame ∈ sent.map Sent.frame, frame.Valid requestFormat := by
    intro frame member
    obtain ⟨one,_,rfl⟩ := List.mem_map.mp member
    exact one.valid
  have encoded (sent : List Sent) : (sent.map Sent.frame).flatMap Frame.bytes = sent.flatMap Sent.bytes :=
    List.flatMap_map ..
  obtain ⟨k,_,_,left⟩ := Format.decode_prefix _ valid _ _ (stream.trans (encoded sent).symm)
  refine ⟨sent.drop k,?_⟩
  rw [← encoded,served,(serve_decoded arrivals ctl).2,left,List.map_drop]

/-- The iterations of the callback for an arrival, and what they leave in the buffer. -/
def State.reading (state : State) (ctl count : Nat) (v : Str) (behind : Nat → Behind) : List (Option Call) × Str :=
  readData behind v (state.client.input ctl ++ (state.wire ctl).take count)

end Headers

/-- The callback for an arrival takes every header as it was sent if and only if no digit lies
behind `dados` in the iterations that take a frame. -/
theorem headers_read_iff (net : Network) (few : net.numCtls ≤ 253) (now : Nat → Rat) (state after : State)
    (reached : (system net now).Reachable state) (ctl count : Nat) (v : Str) (ambient : Nat → Ambient)
    (taken : step net state (.arrive ctl count v ambient) = some after) :
    ∃ iterations,
      after.client.calls = state.client.calls ++ (iterations.filterMap id).map (fun call => (ctl,call)) ∧
      ∀ behind, state.reading ctl count v behind = (iterations,after.client.input ctl) ↔ Stopped behind iterations := by
  obtain ⟨sent,stream⟩ := (reachable_sound few now reached).pending few ctl
  have front : state.client.input ctl ++ (state.wire ctl).take count <+: sent.flatMap Sent.bytes := by
    rw [← stream]
    exact (List.prefix_append_right_inj _).mpr (List.take_prefix ..)
  obtain ⟨calls,left⟩ := Prod.mk.inj
    (readLoop_clear v (state.client.input ctl ++ (state.wire ctl).take count) _)
  have read : after.client.calls = state.client.calls ++ (state.calling ctl count v).map (fun call => (ctl,call)) ∧
      after.client.input ctl = (state.reading ctl count v fun _ => .clear).2 := by
    cases (step_iff net state after _).mp taken with
    | arrive _ _ _ _ positive present =>
      refine ⟨rfl,?_⟩
      rw [State.reading,readData,left]
      exact Function.update_self ..
  refine ⟨(state.reading ctl count v fun _ => .clear).1,?_,fun behind => ?_⟩
  · rw [read.1,State.reading,readData,calls]
    rfl
  · rw [read.2,Prod.mk.eta]
    exact readLoop_iff sent behind v _ _ (Nat.le_refl _) front

def nine : Behind := ⟨['9'],by decide⟩

/-- Behind the header of the sample request a digit is read with it. -/
theorem headers_read_sample : ∃ state, (system ⟨1,1⟩ fun _ => 0).Reachable state ∧
    state.reading 0 182 (filled '\x00') (fun _ => nine) ≠ state.reading 0 182 (filled '\x00') fun _ => .clear := by
  obtain ⟨state,ran,facts⟩ := Option.map_eq_some_iff.mp asked_calling
  obtain ⟨wire,facts⟩ := Prod.mk.inj facts
  obtain ⟨sizes,_⟩ := Prod.mk.inj facts
  have reached := Machine.reachable_run _ state _ .initial ran
  obtain ⟨iterations,calls,exactly⟩ := headers_read_iff ⟨1,1⟩ (by decide) _ state _ reached 0 182 (filled '\x00')
    sampleAmbient (if_pos ⟨by decide,Nat.le_of_eq wire.symm⟩)
  have made := congrArg List.length (List.append_cancel_left calls)
  have one := congrArg List.length sizes
  rw [List.length_map] at one
  rw [List.length_map,List.length_map] at made
  obtain ⟨call,member⟩ := List.exists_mem_of_length_pos (Nat.lt_of_lt_of_eq Nat.zero_lt_one (one.symm.trans made))
  obtain ⟨entry,listed,is⟩ := List.mem_filterMap.mp member
  obtain ⟨k,found⟩ := List.getElem?_of_mem listed
  refine ⟨state,reached,fun equal => ?_⟩
  have plain := (exactly fun _ => .clear).mpr fun _ _ _ => rfl
  have stops : nine.Stops := (exactly fun _ => nine).mp (equal.trans plain) k call (found.trans (congrArg some is))
  exact List.cons_ne_nil '9' [] stops

end NfvConsensus.System
