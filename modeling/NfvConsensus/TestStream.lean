import NfvConsensus.ClientVnfTest
import NfvConsensus.ExtractSafety

/-! From the test client to the Paxos client. Read with the header that it is written with, the
stream of the test client gives its records; but `extract_data` takes the first three bytes
of that header for characters, of which at most the first can be a digit. -/
namespace NfvConsensus.ClientVnfTest
open Python Foundation.Text Foundation.LittleEndian Foundation.Framing
open ClientPaxos

theorem randomString_length (rand : Nat → Nat) (s : Str) (len : Int) : (randomString rand s len).length = s.length := by
  have filled (positions : List Nat) (s : Str) : (positions.foldl
      (fun s i => s.set i (alphanum.getD (rand i % alphanum.length) '\x00')) s).length = s.length := by
    induction positions generalizing s with
    | nil => rfl
    | cons i positions ih => rw [List.foldl_cons,ih,List.length_set]
  rw [randomString,List.length_set,filled]

theorem layout_length (v : ClientValue) : (layout v).length = 24 + v.value.length := by
  simp only [layout,List.length_append,littleEndian_length,sizeofSizeT]

/-- The sizes for which the string fits the array. -/
def Client.Sized (client : Client) : Prop := 1 ≤ client.valueSize ∧ client.valueSize ≤ MAX_VALUE_SIZE

/-- A record is the time, the size and the string. -/
theorem submitted_sizes (client : Client) (sized : client.Sized) (found : Found) :
    ∃ n, 25 ≤ n ∧ n ≤ 24 + MAX_VALUE_SIZE ∧ (clientSubmitValue client found).size = littleEndian 8 n ∧
      (clientSubmitValue client found).v.length = n := by
  obtain ⟨low,high⟩ := sized
  obtain ⟨m,value⟩ : ∃ m : Nat, client.valueSize = m := Int.eq_ofNat_of_zero_le (by omega)
  rw [value] at low high
  have small : m ≤ MAX_VALUE_SIZE := by exact_mod_cast high
  have stored : sizeT client.valueSize = m := by
    rw [value]
    exact sizeT_natCast m (by simp only [MAX_VALUE_SIZE] at small; omega)
  have total : (sizeofTimeval + sizeofSizeT + m) % 2^64 = 24 + m := by
    simp only [sizeofTimeval,sizeofSizeT,MAX_VALUE_SIZE] at small ⊢
    omega
  refine ⟨24 + m,by omega,by omega,?_,?_⟩
  · simp only [clientSubmitValue,stored,total]
    rfl
  · simp only [clientSubmitValue,stored,total]
    apply List.length_take_of_le
    rw [layout_length,randomString_length,List.length_replicate]
    omega

def sizeFormat : Format Char where
  width := sizeofSizeT
  width_pos := by decide
  size head := readLittleEndian head

def Written.frame (written : Written) : Frame Char := ⟨written.size,written.v⟩

theorem written_valid (client : Client) (sized : client.Sized) (found : Found) :
    (clientSubmitValue client found).frame.Valid sizeFormat := by
  obtain ⟨n,_,large,size,length⟩ := submitted_sizes client sized found
  constructor
  · rw [Written.frame,size,littleEndian_length]
    rfl
  · rw [Written.frame,size,length]
    apply littleEndian_value
    simp only [MAX_VALUE_SIZE] at large
    omega

theorem mem_onConnect (client : Client) (found : Nat → Found) (written : Written)
    (member : written ∈ onConnect client true found) : ∃ i, written = clientSubmitValue client (found i) := by
  rw [onConnect,if_pos rfl] at member
  obtain ⟨i,_,rfl⟩ := List.mem_map.mp member
  exact ⟨i,rfl⟩

/-- A receiver that reads the header as a `size_t` takes exactly the records, however the
stream is cut. -/
theorem records_read {κ : Type} [DecidableEq κ] (client : Client) (sized : client.Sized) (found : Nat → Found)
    (log : List (κ × Str)) (k : κ) (whole : (channel k log).flatten = stream client found) :
    (channel k (Receiver.arrivals sizeFormat log).taken).map Frame.body = (onConnect client true found).map Written.v ∧
      (Receiver.arrivals sizeFormat log).buffer k = [] := by
  have valid : ∀ frame ∈ (onConnect client true found).map Written.frame, frame.Valid sizeFormat := by
    intro frame member
    obtain ⟨written,written_member,rfl⟩ := List.mem_map.mp member
    obtain ⟨i,rfl⟩ := mem_onConnect client found written written_member
    exact written_valid client sized (found i)
  have encoded : stream client found = ((onConnect client true found).map Written.frame).flatMap Frame.bytes := by
    rw [List.flatMap_map]
    rfl
  have decoded := Format.decode_frames _ valid []
  rw [List.append_nil,← encoded,← whole,Format.decode_nil,List.append_nil,← Receiver.arrivals_channel] at decoded
  obtain ⟨taken,left⟩ := Prod.mk.inj decoded
  rw [taken,List.map_map]
  exact ⟨rfl,left⟩

theorem undigited (text rest : Str) (plain : ∀ c ∈ rest, c.isDigit = false) (part : text <:+ rest) :
    text.takeWhile Char.isDigit = [] := by
  cases text with
  | nil => rfl
  | cons c text =>
    have other := plain c (part.subset (by simp))
    rw [List.takeWhile_cons_of_neg (by simp [other])]

theorem lone_value (a : Char) (text rest : Str) (plain : ∀ c ∈ rest, c.isDigit = false) (part : text <:+ a :: rest) :
    Nat.ofDigitChars 10 (text.takeWhile Char.isDigit) 0 ≤ 9 := by
  rcases List.suffix_cons_iff.mp part with rfl | later
  · by_cases digit : a.isDigit = true
    · have bound := digits_bound [a] (by simpa using digit)
      rw [List.takeWhile_cons_of_pos digit,undigited rest rest plain (List.suffix_refl rest)]
      exact Nat.le_of_lt_succ bound
    · rw [List.takeWhile_cons_of_neg digit]
      decide
  · rw [undigited text rest plain later]
    decide

theorem atoi_lone (a : Char) (rest : Str) (plain : ∀ c ∈ rest, c.isDigit = false) :
    ∃ n : Nat, n ≤ 9 ∧ atoi (a :: rest) = n := by
  have part : (a :: rest).dropWhile isSpace <:+ a :: rest := List.dropWhile_suffix _
  unfold atoi
  dsimp only
  split
  · rename_i digits shape
    rw [shape] at part
    have later : digits <:+ rest := by
      rcases List.suffix_cons_iff.mp part with same | later
      · rw [(List.cons.inj same).2]
      · exact (List.suffix_cons _ _).trans later
    rw [undigited digits rest plain later]
    exact ⟨0,by decide,rfl⟩
  · rename_i digits shape
    rw [shape] at part
    exact ⟨_,lone_value a digits rest plain ((List.suffix_cons _ _).trans part),rfl⟩
  · exact ⟨_,lone_value a _ rest plain part,rfl⟩

/-- The second byte of a size is at most 32, which is no digit, and those behind it are 0. -/
theorem header_misread (size : Nat) (small : size ≤ 24 + MAX_VALUE_SIZE) :
    ∃ n ≤ 9, requestFormat.size ((littleEndian 8 size).take 3) = n := by
  simp only [MAX_VALUE_SIZE] at small
  have header : littleEndian 8 size = littleEndian 2 size ++ List.replicate 6 '\x00' :=
    littleEndian_zeros 2 6 size (by omega)
  have plain : ∀ c ∈ [Char.ofNat (size / 256 % 256),'\x00'], c.isDigit = false := by
    have second := byte_digit (size / 256 % 256) (by omega)
    rw [List.forall_mem_cons,List.forall_mem_singleton]
    refine ⟨Bool.eq_false_of_not_eq_true fun digit => ?_,by decide⟩
    have between := second.mp digit
    omega
  obtain ⟨n,low,value⟩ := atoi_lone (Char.ofNat (size % 256)) _ plain
  refine ⟨n,low,?_⟩
  rw [header]
  change sizeT (atoi [_,_,_]) = n
  rw [value]
  exact sizeT_natCast n (by omega)

theorem first_misread (client : Client) (sized : client.Sized) (found : Found) (rest : Str) :
    ∃ frame frames, (requestFormat.decode ((clientSubmitValue client found).bytes ++ rest)).1 = frame :: frames ∧
      frame.body.length ≤ 9 := by
  obtain ⟨size,least,small,header,length⟩ := submitted_sizes client sized found
  obtain ⟨n,low,reads⟩ := header_misread size small
  have long : 33 ≤ ((clientSubmitValue client found).bytes ++ rest).length := by
    rw [Written.bytes,List.length_append,List.length_append,header,littleEndian_length,length]
    omega
  have head : requestFormat.size (requestFormat.head ((clientSubmitValue client found).bytes ++ rest)) = n := by
    rw [Format.head,Written.bytes,header,List.append_assoc,
      List.take_append_of_le_length (by rw [littleEndian_length]; decide)]
    exact reads
  have ready : requestFormat.Ready ((clientSubmitValue client found).bytes ++ rest) := by
    constructor
    · exact Nat.le_trans (by decide) long
    · rw [head]
      change n ≤ _ - 3
      omega
  refine ⟨_,_,congrArg Prod.fst (requestFormat.decode_ready _ ready),?_⟩
  rw [Format.body,head]
  exact (List.length_take_le n _).trans low

section Serve
variable {κ : Type} [DecidableEq κ]

/-- The server makes one submission for each record written, of that record, and no byte stays
in its buffer. -/
structure Understood (client : Client) (found : Nat → Found) (arrivals : List (Arrival κ)) (k : κ) : Prop where
  count : ((channel k (serve arrivals).submitted).length : Int) = client.outstanding
  payloads : (channel k (serve arrivals).calls).map Call.payload = (onConnect client true found).map Written.v
  left : (serve arrivals).input k = []

theorem not_understood (client : Client) (sized : client.Sized) (found : Nat → Found) (arrivals : List (Arrival κ))
    (k : κ) (whole : arrived arrivals k = stream client found) (sending : 0 < client.outstanding) :
    ¬Understood client found arrivals k := by
  intro understood
  obtain ⟨n,count⟩ : ∃ n, client.outstanding.toNat = n + 1 := Nat.exists_eq_succ_of_ne_zero (by omega)
  have connected : onConnect client true found = clientSubmitValue client (found 0) ::
      (List.range n).map fun i => clientSubmitValue client (found (i + 1)) := by
    rw [onConnect,if_pos rfl,count,List.range_succ_eq_map,List.map_cons,List.map_map]
    rfl
  obtain ⟨frame,frames,decoded,short⟩ := first_misread client sized (found 0)
    (((List.range n).map fun i => clientSubmitValue client (found (i + 1))).flatMap Written.bytes)
  have payloads := understood.payloads
  rw [serve_payloads,whole,stream,connected,List.flatMap_cons,decoded] at payloads
  have first : frame.body = (clientSubmitValue client (found 0)).v := (List.cons.inj payloads).1
  obtain ⟨size,least,_,_,length⟩ := submitted_sizes client sized (found 0)
  rw [first,length] at short
  omega

/-- Nor does the server recover: a payload that starts where a record starts has the last three
bytes of a size for its header, and is empty. -/
theorem record_missed (client : Client) (sized : client.Sized) (found : Nat → Found) (arrivals : List (Arrival κ))
    (k : κ) (whole : arrived arrivals k = stream client found) (before after : List Written) (written : Written)
    (order : onConnect client true found = before ++ written :: after) (calls later : List Call) (call : Call)
    (made : channel k (serve arrivals).calls = calls ++ call :: later)
    (place : (calls.map fun call => 3 + call.payload.length).sum + 3 = (before.flatMap Written.bytes).length + 8) :
    call.payload = [] := by
  obtain ⟨front,head,rest,cut,reach,three,announced⟩ := call_place arrivals k calls later call made
  obtain ⟨i,rfl⟩ := mem_onConnect client found written (by simp [order])
  obtain ⟨n,_,small,size,_⟩ := submitted_sizes client sized (found i)
  have header : littleEndian 8 n = littleEndian 5 n ++ List.replicate 3 '\x00' :=
    littleEndian_zeros 5 3 n (by simp only [MAX_VALUE_SIZE] at small; omega)
  -- the stream as it was written, cut where the server cuts it
  rw [whole,stream,order,List.flatMap_append,List.flatMap_cons,Written.bytes,size,header] at cut
  rw [List.append_assoc,List.append_assoc,← List.append_assoc _ (littleEndian 5 n)] at cut
  obtain ⟨_,behind⟩ := List.append_inj cut (by rw [reach,List.length_append,littleEndian_length]; omega)
  obtain ⟨zeros,_⟩ := List.append_inj behind three.symm
  rw [← zeros] at announced
  exact List.length_eq_zero_iff.mp announced.symm

/-- This holds however the stream is cut, and whatever arrives on other connections in between. -/
theorem understood_iff (client : Client) (sized : client.Sized) (counted : 0 ≤ client.outstanding)
    (found : Nat → Found) (arrivals : List (Arrival κ)) (k : κ) (whole : arrived arrivals k = stream client found) :
    Understood client found arrivals k ↔ client.outstanding = 0 := by
  constructor
  · intro understood
    by_contra sending
    exact not_understood client sized found arrivals k whole (by omega) understood
  · intro idle
    have silent : onConnect client true found = [] := by
      rw [onConnect,if_pos rfl,idle]
      rfl
    obtain ⟨calls,input⟩ := serve_decoded arrivals k
    rw [whole,stream,silent,List.flatMap_nil,Format.decode_nil] at calls input
    have uncalled := List.forall₂_nil_right_iff.mp calls
    have submitted := channel_related (serve_refines arrivals).submitted k
    rw [uncalled] at submitted
    refine ⟨?_,?_,input⟩
    · rw [List.forall₂_nil_right_iff.mp submitted,idle]
      rfl
    · rw [uncalled,silent]
      rfl

end Serve

def mainFound (_ : Nat) : Found := ⟨⟨1500000000,0⟩,fun _ => 0⟩

def wholeArrival : List (Arrival Nat) :=
  [⟨0,stream mainClient mainFound,[],fun _ => ⟨⟨0,0⟩,[],['\x00']⟩⟩]

theorem main_sized : mainClient.Sized := ⟨by decide,by decide⟩

theorem main_not_understood : ¬Understood mainClient mainFound wholeArrival 0 := by
  apply not_understood mainClient main_sized mainFound wholeArrival 0
  · simp [arrived,wholeArrival,channel]
  · decide

def cutArrivals : List (Arrival Nat) :=
  let ambient (_ : Nat) : Ambient := ⟨⟨0,0⟩,[],['\x00']⟩
  let bytes := stream mainClient mainFound
  [⟨0,bytes.take 5,[],ambient⟩,⟨1,['1'],[],ambient⟩,⟨0,bytes.drop 5,[],ambient⟩]

theorem understood_iff_main : Understood mainClient mainFound cutArrivals 0 ↔ mainClient.outstanding = 0 := by
  apply understood_iff mainClient main_sized
  · decide
  · simp [arrived,cutArrivals,channel]

end NfvConsensus.ClientVnfTest
