import NfvConsensus.ClientPaxos
import NfvConsensus.RuleText
import NfvConsensus.Foundation.Framing
import Mathlib.Data.List.TakeWhile

/-! From the controllers to the Paxos client. `extract_data` decodes the framing with
three header characters; the controllers' frames are frames of it, because every
message has three digits' worth of characters. -/
namespace NfvConsensus.ClientPaxos
open Python Foundation.Text Foundation.Framing

def requestFormat : Format Char where
  width := 3
  width_pos := by decide
  size head := sizeT (atoi head)

theorem sizeT_natCast (n : Nat) (small : n < 2^64) : sizeT n = n := by
  simp only [sizeT]
  omega

theorem atoi_digits (s : Str) (digits : ∀ c ∈ s, c.isDigit = true) :
    atoi s = (Nat.ofDigitChars 10 s 0 : Nat) := by
  have unspaced : s.dropWhile isSpace = s :=
    dropWhile_none isSpace s fun c member => digit_not_space c (digits c member)
  have whole : s.takeWhile Char.isDigit = s := List.takeWhile_eq_self_iff.mpr digits
  have minus : '-' ∉ s := check_absent digits
  have plus : '+' ∉ s := check_absent digits
  unfold atoi
  rw [unspaced]
  split
  · simp at minus
  · simp at plus
  · simp only [whole]

theorem atoi_str (n : Nat) : atoi (str n) = n := by
  rw [str,atoi_digits _ (decimal_digit n),decimal_value]

/-- After an incomplete frame `len` only falls, so no later iteration takes anything. -/
theorem extractLoop_stuck (v input : Str) (len : Nat)
    (incomplete : ¬(3 ≤ len ∧ sizeT (atoi (input.take 3)) ≤ len - 3)) : extractLoop v input len = ([],input) := by
  induction len using Nat.strongRecOn with
  | _ len ih =>
    rw [extractLoop]
    by_cases more : 3 ≤ len
    · have lacking : ¬sizeT (atoi (input.take 3)) ≤ len - 3 := fun fits => incomplete ⟨more,fits⟩
      simp only [more,lacking,dif_pos,if_false]
      exact ih (len - 3) (by omega) fun later => lacking (by omega)
    · simp only [more,dif_neg,not_false_eq_true]

/-- The call made for a frame: its body is handed over, with the length its header says. -/
def Call.Of (call : Call) (frame : Frame Char) : Prop :=
  call.payload = frame.body ∧ call.len = atoi frame.head

theorem extractData_decode (v input : Str) :
    List.Forall₂ Call.Of (extractData v input input.length).1 (requestFormat.decode input).1 ∧
      (extractData v input input.length).2 = (requestFormat.decode input).2 := by
  fun_induction requestFormat.decode input generalizing v with
  | case1 input ready _ rest ih =>
    obtain ⟨wide,fits⟩ := ready
    have wide : 3 ≤ input.length := wide
    have fits : sizeT (atoi (input.take 3)) ≤ input.length - 3 := fits
    have left : (requestFormat.after input).length = input.length - 3 - sizeT (atoi (input.take 3)) := by
      simp only [Format.after,Format.head,List.length_drop]
      rfl
    rw [extractData,extractLoop]
    simp only [wide,fits,dif_pos,if_true]
    have later := ih (List.take (sizeT (atoi (input.take 3))) (input.drop 3) ++ v.drop (sizeT (atoi (input.take 3))))
    rw [left] at later
    refine ⟨.cons ⟨?_,rfl⟩ later.1,later.2⟩
    have full : ((input.drop 3).take (sizeT (atoi (input.take 3)))).length = sizeT (atoi (input.take 3)) :=
      List.length_take_of_le (by simpa using fits)
    exact List.take_left' full
  | case2 input unready =>
    have stuck := extractLoop_stuck v input input.length unready
    rw [extractData,stuck]
    exact ⟨.nil,rfl⟩

theorem strcpy_take (dst text rest : Str) (unterminated : '\x00' ∉ text) :
    (strcpy dst (text ++ rest)).take text.length = text := by
  have copied : (text ++ rest).takeWhile (· ≠ '\x00') = text ++ rest.takeWhile (· ≠ '\x00') := by
    rw [List.takeWhile_append_of_pos]
    intro c member
    have other : c ≠ '\x00' := fun equal => unterminated (equal ▸ member)
    simpa using other
  rw [strcpy,copied,List.append_assoc,List.take_left' rfl]

theorem submitted_value (ambient : Ambient) (call : Call) (full : call.payload.length = sizeT call.len)
    (unterminated : '\x00' ∉ call.payload) :
    (paxosSubmit (clientSubmitValue ambient call.string call.len)).size = call.payload.length ∧
      (paxosSubmit (clientSubmitValue ambient call.string call.len)).value = call.payload := by
  have split : call.string ++ ambient.behind =
      call.payload ++ (call.string.drop (sizeT call.len) ++ ambient.behind) := by
    rw [Call.payload,← List.append_assoc,List.take_append_drop]
  refine ⟨full.symm,?_⟩
  change (strcpy ambient.v (call.string ++ ambient.behind)).take (sizeT call.len) = call.payload
  rw [split,← full,strcpy_take _ _ _ unterminated]

/-- What a controller sends for one request, its address ending in `host`. -/
structure Sent where
  request : Request
  host : Fin 256

namespace Sent

def text (sent : Sent) : Str := sent.request.message (str sent.host)

def frame (sent : Sent) : Frame Char := ⟨str sent.text.length,sent.text⟩

def bytes (sent : Sent) : Str := sent.frame.bytes

end Sent

theorem message_no_nul (request : Request) (host : Nat) : '\x00' ∉ request.message (str host) := by
  have digits := str_absent host '\x00'
  have ruleText := request.rule_no_nul
  simp [Request.message,digits,ruleText]

theorem message_frame_valid (request : Request) (host : Str) (octet : host.length ≤ 3) :
    (⟨str (request.message host).length,request.message host⟩ : Frame Char).Valid requestFormat := by
  have ⟨inLow,inHigh⟩ := Request.port_digits request.inPort
  have ⟨outLow,outHigh⟩ := Request.port_digits request.outPort
  have size := request.message_length host
  refine ⟨decimal_length_three _ (by omega) (by omega),?_⟩
  change sizeT (atoi (str (request.message host).length)) = (request.message host).length
  rw [atoi_str,sizeT_natCast _ (by omega)]

theorem octet_digits (host : Nat) (octet : host < 256) : (str host).length ≤ 3 :=
  (decimal_length_le host 3 (by decide)).mpr (by omega)

theorem Sent.valid (sent : Sent) : sent.frame.Valid requestFormat :=
  message_frame_valid sent.request (str sent.host) (octet_digits sent.host sent.host.isLt)

section Serve
variable {κ : Type} [DecidableEq κ]

def arrived (arrivals : List (Arrival κ)) (k : κ) : Str :=
  (channel k (arrivals.map fun arrival => (arrival.conn,arrival.bytes))).flatten

theorem arrived_append (arrivals : List (Arrival κ)) (arrival : Arrival κ) (k : κ) :
    arrived (arrivals ++ [arrival]) k = arrived arrivals k ++ if arrival.conn = k then arrival.bytes else [] := by
  rw [arrived,List.map_append,channel_append,List.map_singleton,channel_singleton,List.flatten_append]
  split
  · rw [List.flatten_singleton,arrived]
  · rw [List.flatten_nil,arrived]

theorem serve_append (arrivals : List (Arrival κ)) (arrival : Arrival κ) :
    serve (arrivals ++ [arrival]) = onRecvValue (serve arrivals) arrival := by
  rw [serve,List.foldl_append]
  rfl

/-- The value submitted by a call, whatever the call found in memory. -/
def Submits (value : ClientValue) (call : Call) : Prop :=
  ∃ ambient, value = paxosSubmit (clientSubmitValue ambient call.string call.len)

theorem submitCalls_related (ambient : Nat → Ambient) (calls : List Call) :
    List.Forall₂ Submits (submitCalls ambient calls) calls := by
  rw [submitCalls,List.forall₂_map_left_iff]
  have indexed (offset : Nat) : List.Forall₂ (fun entry call => Submits
      (paxosSubmit (clientSubmitValue (ambient entry.2) entry.1.string entry.1.len)) call)
      (calls.zipIdx offset) calls := by
    induction calls generalizing offset with
    | nil => exact .nil
    | cons call calls ih => exact .cons ⟨_,rfl⟩ (ih (offset + 1))
  exact indexed 0

/-- The client refines the receiver of the framing: one buffer for each connection, and for
each frame taken a call and a value. -/
structure Refines (client : Client κ) (receiver : Receiver κ Char) : Prop where
  input : client.input = receiver.buffer
  calls : List.Forall₂ (fun call frame => call.1 = frame.1 ∧ call.2.Of frame.2) client.calls receiver.taken
  submitted : List.Forall₂ (fun value call => value.1 = call.1 ∧ Submits value.2 call.2)
    client.submitted client.calls

theorem onRecvValue_refines (client : Client κ) (receiver : Receiver κ Char) (arrival : Arrival κ)
    (refines : Refines client receiver) :
    Refines (onRecvValue client arrival) (receiver.arrive requestFormat (arrival.conn,arrival.bytes)) := by
  obtain ⟨calls,left⟩ := extractData_decode arrival.v (client.input arrival.conn ++ arrival.bytes)
  have same := congrFun refines.input arrival.conn
  rw [same] at calls left
  simp only [onRecvValue,Receiver.arrive,same]
  refine ⟨?_,?_,?_⟩
  · rw [left,refines.input]
  · exact List.rel_append refines.calls (List.forall₂_map_left_iff.mpr (List.forall₂_map_right_iff.mpr
      (calls.imp fun _ _ agree => ⟨rfl,agree⟩)))
  · exact List.rel_append refines.submitted (List.forall₂_map_left_iff.mpr (List.forall₂_map_right_iff.mpr
      ((submitCalls_related arrival.ambient _).imp fun _ _ agree => ⟨rfl,agree⟩)))

theorem serve_refines (arrivals : List (Arrival κ)) :
    Refines (serve arrivals)
      (Receiver.arrivals requestFormat (arrivals.map fun arrival => (arrival.conn,arrival.bytes))) := by
  induction arrivals using List.reverseRecOn with
  | nil => exact ⟨rfl,.nil,.nil⟩
  | append_singleton arrivals arrival ih =>
    rw [List.map_append,List.map_singleton,Receiver.arrivals_snoc,serve_append]
    exact onRecvValue_refines _ _ arrival ih

theorem map_related {α β γ : Type} {relation : α → β → Prop} {xs : List α} {ys : List β} {f : α → γ} {g : β → γ}
    (related : List.Forall₂ relation xs ys) (same : ∀ x y, y ∈ ys → relation x y → f x = g y) :
    xs.map f = ys.map g := by
  induction related with
  | nil => rfl
  | @cons x y xs ys head _ ih =>
    rw [List.map_cons,List.map_cons,same x y (by simp) head,ih fun a b member => same a b (by simp [member])]

/-- One connection stands as if its bytes had come in alone and at once. -/
theorem serve_decoded (arrivals : List (Arrival κ)) (k : κ) :
    List.Forall₂ Call.Of (channel k (serve arrivals).calls) (requestFormat.decode (arrived arrivals k)).1 ∧
      (serve arrivals).input k = (requestFormat.decode (arrived arrivals k)).2 := by
  have refines := serve_refines arrivals
  have alone := Receiver.arrivals_channel requestFormat (arrivals.map fun arrival => (arrival.conn,arrival.bytes)) k
  change _ = requestFormat.decode (arrived arrivals k) at alone
  rw [← alone]
  exact ⟨channel_related refines.calls k,congrFun refines.input k⟩

theorem taken_prefix (sent : List Sent) (arrivals : List (Arrival κ)) (k : κ)
    (stream : arrived arrivals k <+: sent.flatMap Sent.bytes) :
    ∃ n, List.Forall₂ Call.Of (channel k (serve arrivals).calls) ((sent.take n).map Sent.frame) ∧
      (arrived arrivals k = sent.flatMap Sent.bytes → sent.take n = sent ∧ (serve arrivals).input k = []) := by
  obtain ⟨calls,input⟩ := serve_decoded arrivals k
  obtain ⟨missing,stream⟩ := stream
  have valid : ∀ frame ∈ sent.map Sent.frame, frame.Valid requestFormat := by
    intro frame member
    obtain ⟨one,_,rfl⟩ := List.mem_map.mp member
    exact one.valid
  have encoded : sent.flatMap Sent.bytes = (sent.map Sent.frame).flatMap Frame.bytes := by
    rw [List.flatMap_map]
    rfl
  rw [encoded] at stream
  by_cases complete : arrived arrivals k = sent.flatMap Sent.bytes
  · have whole := Format.decode_frames (sent.map Sent.frame) valid []
    rw [List.append_nil,← encoded,← complete,Format.decode_nil,List.append_nil] at whole
    rw [whole] at calls input
    refine ⟨sent.length,?_,fun _ => ⟨List.take_length,input⟩⟩
    rw [List.take_length]
    exact calls
  · obtain ⟨n,_,taken,_⟩ := Format.decode_prefix _ valid _ missing stream
    refine ⟨n,?_,fun all => absurd all complete⟩
    rw [List.map_take,← taken]
    exact calls

theorem calls_handed (sent : List Sent) (calls : List Call) (n : Nat)
    (taken : List.Forall₂ Call.Of calls ((sent.take n).map Sent.frame)) :
    calls.map (fun call => (call.payload,call.len)) =
      (sent.take n).map (fun message => (message.text,(message.text.length : Int))) := by
  rw [map_related (g := fun frame => (frame.body,atoi frame.head)) taken
    fun call frame _ agree => Prod.ext agree.1 agree.2,List.map_map]
  apply List.map_congr_left
  intro message _
  exact Prod.ext rfl (atoi_str _)

theorem submitted_payloads (sent : List Sent) (arrivals : List (Arrival κ)) (k : κ)
    (stream : arrived arrivals k <+: sent.flatMap Sent.bytes) :
    (channel k (serve arrivals).submitted).map (fun value => (value.size,value.value)) =
      (channel k (serve arrivals).calls).map (fun call => (call.payload.length,call.payload)) := by
  obtain ⟨n,calls,_⟩ := taken_prefix sent arrivals k stream
  have handed := calls_handed sent _ n calls
  apply map_related (channel_related (serve_refines arrivals).submitted k)
  intro value call member submits
  obtain ⟨ambient,rfl⟩ := submits
  have agrees : (call.payload,call.len) ∈
      (channel k (serve arrivals).calls).map (fun call => (call.payload,call.len)) :=
    List.mem_map.mpr ⟨call,member,rfl⟩
  rw [handed] at agrees
  obtain ⟨message,_,same⟩ := List.mem_map.mp agrees
  obtain ⟨payload,len⟩ := Prod.mk.inj same
  have short := message.valid.announced
  change sizeT (atoi (str message.text.length)) = message.text.length at short
  rw [atoi_str] at short
  have full : call.payload.length = sizeT call.len := by
    rw [← payload,← len]
    exact short.symm
  have unterminated : '\x00' ∉ call.payload := by
    rw [← payload]
    exact message_no_nul message.request message.host
  obtain ⟨size,stored⟩ := submitted_value ambient call full unterminated
  rw [size,stored]

theorem submitted_texts (sent : List Sent) (arrivals : List (Arrival κ)) (k : κ)
    (stream : arrived arrivals k <+: sent.flatMap Sent.bytes) :
    (channel k (serve arrivals).submitted).map ClientValue.value <+: sent.map Sent.text := by
  obtain ⟨n,calls,_⟩ := taken_prefix sent arrivals k stream
  have values := congrArg (List.map Prod.snd) (submitted_payloads sent arrivals k stream)
  have handed := congrArg (List.map Prod.fst) (calls_handed sent _ n calls)
  simp only [List.map_map,Function.comp_def] at values handed
  rw [show (channel k (serve arrivals).submitted).map ClientValue.value = (sent.take n).map Sent.text from
    values.trans handed]
  exact (List.take_prefix n sent).map _

/-- Whatever the cuts of the streams and the order of the callbacks, the calls made for a
connection hand over its messages in order, each with its own length, and all of them once
all of its bytes have arrived; and each call submits exactly what it is handed. -/
theorem requests_arrive (sent : List Sent) (arrivals : List (Arrival κ)) (k : κ)
    (stream : arrived arrivals k <+: sent.flatMap Sent.bytes) :
    (channel k (serve arrivals).calls).map (fun call => (call.payload,call.len)) <+:
        sent.map (fun message => (message.text,(message.text.length : Int))) ∧
      (channel k (serve arrivals).submitted).map (fun value => (value.size,value.value.take value.size)) =
        (channel k (serve arrivals).calls).map (fun call => (call.payload.length,call.payload)) ∧
      (arrived arrivals k = sent.flatMap Sent.bytes →
        (channel k (serve arrivals).calls).map (fun call => (call.payload,call.len)) =
            sent.map (fun message => (message.text,(message.text.length : Int))) ∧
          (serve arrivals).input k = []) := by
  obtain ⟨n,calls,complete⟩ := taken_prefix sent arrivals k stream
  have handed := calls_handed sent _ n calls
  have submitted := congrArg (List.map fun value => (value.1,value.2.take value.1))
    (submitted_payloads sent arrivals k stream)
  simp only [List.map_map,Function.comp_def,List.take_length] at submitted
  refine ⟨?_,submitted,?_⟩
  · rw [handed]
    exact (List.take_prefix n sent).map _
  · intro all
    obtain ⟨whole,empty⟩ := complete all
    rw [whole] at handed
    exact ⟨handed,empty⟩

end Serve

-- A message cut inside its header, with bytes of another connection in between.
def sampleSent : Sent := ⟨Request.sample,2⟩

def sampleArrivals : List (Arrival Nat) :=
  let ambient (_ : Nat) : Ambient := ⟨⟨0,0⟩,[],['\x00']⟩
  [⟨0,sampleSent.bytes.take 2,[],ambient⟩,⟨1,['1'],[],ambient⟩,⟨0,sampleSent.bytes.drop 2,[],ambient⟩]

theorem sample_arrived : arrived sampleArrivals 0 = [sampleSent].flatMap Sent.bytes := by
  simp [arrived,sampleArrivals,channel]

theorem requests_arrive_cut :
    (channel 0 (serve sampleArrivals).calls).map (fun call => (call.payload,call.len)) =
      [(sampleSent.text,(sampleSent.text.length : Int))] :=
  ((requests_arrive [sampleSent] sampleArrivals 0 (sample_arrived ▸ List.prefix_rfl)).2.2 sample_arrived).1

end NfvConsensus.ClientPaxos
