import NfvConsensus.RequestFraming
import NfvConsensus.Foundation.Transition

/-! A controller writing its requests. The handler ignores what `send` returns, so the
rest of a string that was accepted in part is never written, and the stream stays a
stream of frames exactly as long as every `send` accepts its whole argument. -/
namespace NfvConsensus.ConsensusSwitch
open Python Foundation.Framing Foundation.Transition

/-- The controller within a run: what its handler has yet to do for the packet-in at hand,
what has been put on the connection, and the messages of the requests made. -/
structure Writer where
  macToPort : MacTable
  todo : List Effect
  bytes : Str
  emitted : List Str

inductive Action
  | packetIn (msg : PacketIn)
  | perform (accepted : Nat)

namespace Writer

def start : Writer := ⟨∅,[],[],[]⟩

def step (host : Str) (writer : Writer) : Action → Option Writer
  | .packetIn msg =>
    match writer.todo with
    | [] =>
      let handled := packetInHandler host writer.macToPort msg
      let asked := (requested writer.macToPort msg).toList.map fun request => request.message host
      some { writer with macToPort := handled.1,todo := handled.2,emitted := writer.emitted ++ asked }
    | _ :: _ => none
  | .perform accepted =>
    match writer.todo with
    | [] => none
    | .send text :: rest =>
      if 1 ≤ accepted ∧ accepted ≤ text.length then
        some { writer with todo := rest,bytes := writer.bytes ++ text.take accepted }
      else none
    | _ :: rest => some { writer with todo := rest }

end Writer

def controller (host : Str) : Machine Writer Action where
  initial := .start
  step := Writer.step host

theorem controller_step (host : Str) (writer : Writer) (action : Action) :
    (controller host).step writer action = writer.step host action := rfl

def frame (message : Str) : Frame Char := ⟨str message.length,message⟩

namespace Writer

/-- The bytes are complete frames of the messages, in order, and then at most one more, which
the handler's next writes complete. -/
def Framed (writer : Writer) : Prop :=
  ∃ n part, writer.emitted.length ≤ n + 1 ∧
    writer.bytes = ((writer.emitted.take n).map frame).flatMap Frame.bytes ++ part ∧
    part ++ sentBytes writer.todo = ((writer.emitted.drop n).map frame).flatMap Frame.bytes

/-- Whatever memory it finds, `extract_data` hands over the first messages and nothing else. -/
def Decoded (writer : Writer) : Prop :=
  ∀ v, ∃ n, List.Forall₂ ClientPaxos.Call.Of
    (ClientPaxos.extractData v writer.bytes writer.bytes.length).1 ((writer.emitted.take n).map frame)

def WholeSends (writer : Writer) (action : Action) : Prop :=
  ∀ accepted text rest, action = .perform accepted → writer.todo = .send text :: rest → accepted = text.length

def Emits (host : Str) (writer : Writer) : Prop :=
  ∀ message ∈ writer.emitted, ∃ request : Request, message = request.message host

end Writer

theorem sentBytes_effects (host : Str) (macToPort : MacTable) (msg : PacketIn) :
    sentBytes (packetInHandler host macToPort msg).2 =
      (((requested macToPort msg).toList.map fun request => request.message host).map frame).flatMap Frame.bytes := by
  rw [packetInHandler_effects]
  cases requested macToPort msg with
  | none => rfl
  | some request => simp [sentBytes,writes,frame,Frame.bytes]

namespace Writer
variable {host : Str}

theorem Framed.total {writer : Writer} (framed : writer.Framed) :
    writer.bytes ++ sentBytes writer.todo = (writer.emitted.map frame).flatMap Frame.bytes := by
  obtain ⟨n,part,_,bytes,rest⟩ := framed
  rw [bytes,List.append_assoc,rest,← List.flatMap_append,← List.map_append,List.take_append_drop]

theorem start_framed : start.Framed := ⟨0,[],by simp [start],rfl,rfl⟩

/-- All that a step can do: begin with a packet-in when nothing is left to do, write what a send
accepts, or go on past an effect that writes nothing. -/
theorem step_cases (before after : Writer) (action : Action) (taken : before.step host action = some after) :
    (∃ msg, action = .packetIn msg ∧ before.todo = [] ∧ after = { before with
      macToPort := (packetInHandler host before.macToPort msg).1
      todo := (packetInHandler host before.macToPort msg).2
      emitted := before.emitted ++ (requested before.macToPort msg).toList.map fun request => request.message host }) ∨
    (∃ accepted text rest, action = .perform accepted ∧ before.todo = .send text :: rest ∧
      (1 ≤ accepted ∧ accepted ≤ text.length) ∧
      after = { before with todo := rest,bytes := before.bytes ++ text.take accepted }) ∨
    ∃ accepted effect rest, action = .perform accepted ∧ before.todo = effect :: rest ∧
      sentBytes (effect :: rest) = sentBytes rest ∧ after = { before with todo := rest } := by
  cases action with
  | packetIn msg =>
    cases todo : before.todo with
    | cons effect rest => simp [step,todo] at taken
    | nil =>
      simp only [step,todo,Option.some.injEq] at taken
      exact .inl ⟨msg,rfl,rfl,taken.symm⟩
  | perform accepted =>
    cases todo : before.todo with
    | nil => simp [step,todo] at taken
    | cons effect rest =>
      cases effect with
      | send text =>
        simp only [step,todo] at taken
        split at taken
        · rename_i bound
          exact .inr (.inl ⟨accepted,text,rest,rfl,rfl,bound,(Option.some.inj taken).symm⟩)
        · contradiction
      | flowMod mod =>
        simp only [step,todo,Option.some.injEq] at taken
        exact .inr (.inr ⟨accepted,_,rest,rfl,rfl,rfl,taken.symm⟩)
      | packetOut out =>
        simp only [step,todo,Option.some.injEq] at taken
        exact .inr (.inr ⟨accepted,_,rest,rfl,rfl,rfl,taken.symm⟩)

theorem framed_step (before after : Writer) (action : Action) (framed : before.Framed)
    (taken : before.step host action = some after) (whole : before.WholeSends action) : after.Framed := by
  have total := framed.total
  obtain ⟨n,part,pending,bytes,rest⟩ := framed
  rcases step_cases before after action taken with
    ⟨msg,rfl,idle,rfl⟩ | ⟨accepted,text,others,rfl,todo,_,rfl⟩ | ⟨accepted,effect,others,rfl,todo,silent,rfl⟩
  · simp only [idle,sentBytes,List.flatMap_nil,List.append_nil] at total
    refine ⟨before.emitted.length,[],?_,?_,?_⟩
    · cases requested before.macToPort msg <;> simp
    · simp [total]
    · simp only [List.nil_append,sentBytes_effects,List.drop_left' rfl]
  · have all := whole accepted text others rfl todo
    refine ⟨n,part ++ text,pending,?_,?_⟩
    · rw [bytes,all,List.take_length,List.append_assoc]
    · rw [← rest,todo,List.append_assoc]
      simp [sentBytes]
  · rw [todo,silent] at rest
    exact ⟨n,part,pending,bytes,rest⟩

/-- After a short write the bytes and what is still to be written no longer add up. -/
theorem short_write (before after : Writer) (action : Action) (framed : before.Framed)
    (taken : before.step host action = some after) (framed_after : after.Framed) : before.WholeSends action := by
  intro accepted text rest is_perform todo
  subst is_perform
  have total := congrArg List.length framed.total
  have total_after := congrArg List.length framed_after.total
  simp only [step,todo] at taken
  split at taken
  · rename_i bound
    obtain rfl := Option.some.inj taken
    simp only [todo,sentBytes,List.flatMap_cons,List.length_append,List.length_take] at total total_after
    omega
  · contradiction

theorem emits_step (before after : Writer) (action : Action) (emits : before.Emits host)
    (taken : before.step host action = some after) : after.Emits host := by
  rcases step_cases before after action taken with ⟨msg,_,_,rfl⟩ | ⟨_,_,_,_,_,_,rfl⟩ | ⟨_,_,_,_,_,_,rfl⟩
  · intro message member
    rcases List.mem_append.mp member with old | new
    · exact emits message old
    · obtain ⟨request,_,rfl⟩ := List.mem_map.mp new
      exact ⟨request,rfl⟩
  · exact emits
  · exact emits

theorem decoded (octet : host.length ≤ 3) (writer : Writer) (emits : writer.Emits host) (framed : writer.Framed) :
    writer.Decoded := by
  intro v
  have valid : ∀ one ∈ writer.emitted.map frame, one.Valid ClientPaxos.requestFormat := by
    intro one member
    obtain ⟨message,present,rfl⟩ := List.mem_map.mp member
    obtain ⟨request,rfl⟩ := emits message present
    exact ClientPaxos.message_frame_valid request host octet
  obtain ⟨n,_,taken,_⟩ := Format.decode_prefix _ valid _ _ framed.total
  refine ⟨n,?_⟩
  rw [List.map_take,← taken]
  exact (ClientPaxos.extractData_decode v writer.bytes).1

end Writer

/-- In a run of packet-ins, whatever the writes accept, the stream is framed at every moment
exactly when every `send` accepts its whole argument. -/
theorem stream_framed_iff (host : Fin 256) (actions : List Action) (last : Writer)
    (ran : (controller (str host)).run .start actions = some last) :
    (controller (str host)).Throughout (fun writer => writer.Framed ∧ writer.Decoded) .start actions ↔
      (controller (str host)).Admitted Writer.WholeSends .start actions := by
  have octet : (str host).length ≤ 3 := ClientPaxos.octet_digits host host.isLt
  have silent : Writer.start.Emits (str host) := fun message member => absurd member (List.not_mem_nil)
  have started := Writer.decoded octet .start silent Writer.start_framed
  apply Machine.throughout_iff Writer.emits_step ?_ .start last actions silent ⟨Writer.start_framed,started⟩ ran
  · intro before after action emits holds taken
    constructor
    · exact fun still => Writer.short_write before after action holds.1 taken still.1
    · intro whole
      have framed := Writer.framed_step before after action holds.1 taken whole
      exact ⟨framed,Writer.decoded octet after (Writer.emits_step before after action emits taken) framed⟩

-- One request, its header written whole and written in part.
def asked (host : Str) : Writer where
  macToPort := learned (learned ∅ teaching) asking
  todo := writes host Request.sample ++ [.packetOut (asking.reply (target (learned ∅ teaching) asking))]
  bytes := []
  emitted := [Request.sample.message host]

theorem asking_run (host : Str) :
    (controller host).run .start [.packetIn teaching,.perform 0,.packetIn asking] = some (asked host) := by
  simp [Machine.run,controller,Writer.step,Writer.start,packetInHandler_effects,teaching_unasked,asking_requested,asked]

theorem asked_framed (host : Str) : (asked host).Framed := by
  refine ⟨0,[],by simp [asked],rfl,?_⟩
  simp [asked,sentBytes,writes,frame,Frame.bytes]

theorem asking_whole (host : Str) :
    (controller host).Admitted Writer.WholeSends .start [.packetIn teaching,.perform 0,.packetIn asking] := by
  refine ⟨?_,fun taught taken => ⟨?_,fun _ _ => ⟨?_,fun _ _ => trivial⟩⟩⟩
  · intro _ _ _ write
    contradiction
  · intro accepted text rest _ todo
    simp only [controller,Writer.step,Writer.start,packetInHandler_effects,teaching_unasked,Option.some.injEq] at taken
    subst taken
    simp at todo
  · intro _ _ _ write
    contradiction

theorem sample_size : (Request.sample.message (str 2)).length = 179 := by
  rw [Request.message_length]
  rfl

theorem header_size : (str 179).length = 3 := by decide

def written : Writer := { asked (str 2) with todo := [],bytes := str 179 ++ Request.sample.message (str 2) }

theorem written_run : (controller (str 2)).run (asked (str 2)) [.perform 3,.perform 179,.perform 0] = some written := by
  have first : (str 179).take 3 = str 179 := by rw [← header_size,List.take_length]
  have second : (Request.sample.message (str 2)).take 179 = Request.sample.message (str 2) := by
    rw [← sample_size,List.take_length]
  simp [Machine.run,controller,Writer.step,asked,writes,sample_size,header_size,first,second,written]

theorem written_whole :
    (controller (str 2)).Admitted Writer.WholeSends (asked (str 2)) [.perform 3,.perform 179,.perform 0] := by
  refine ⟨?_,fun begun taken => ⟨?_,fun sent accepted => ⟨?_,fun _ _ => trivial⟩⟩⟩
  · intro accepted text rest is todo
    obtain rfl := Action.perform.inj is
    simp only [asked,writes,List.cons_append,List.cons.injEq,Effect.send.injEq] at todo
    rw [← todo.1,sample_size,header_size]
  · simp only [controller,Writer.step,asked,writes,sample_size,header_size,List.cons_append] at taken
    obtain rfl := Option.some.inj taken
    intro accepted text rest is todo
    obtain rfl := Action.perform.inj is
    simp only [List.cons.injEq,Effect.send.injEq] at todo
    rw [← todo.1,sample_size]
  · simp only [controller,Writer.step,asked,writes,sample_size,header_size,List.cons_append] at taken
    obtain rfl := Option.some.inj taken
    simp only [controller,Writer.step,sample_size,List.nil_append] at accepted
    obtain rfl := Option.some.inj accepted
    intro accepted text rest _ todo
    simp at todo

/-- Both sends of the request are accepted whole, and the bytes are its frame. -/
theorem stream_framed_asking : ∃ last,
    (controller (str (2 : Fin 256))).run .start
      [.packetIn teaching,.perform 0,.packetIn asking,.perform 3,.perform 179,.perform 0] = some last ∧
    last.todo = [] ∧ last.bytes = str 179 ++ Request.sample.message (str 2) ∧
    (controller (str (2 : Fin 256))).Throughout (fun writer => writer.Framed ∧ writer.Decoded) .start
      [.packetIn teaching,.perform 0,.packetIn asking,.perform 3,.perform 179,.perform 0] := by
  have ran : (controller (str 2)).run .start ([.packetIn teaching,.perform 0,.packetIn asking] ++
      [.perform 3,.perform 179,.perform 0]) = some written := by
    rw [Machine.run_append,asking_run,Option.bind_some,written_run]
  refine ⟨written,ran,rfl,rfl,(stream_framed_iff 2 _ _ ran).mpr ?_⟩
  exact Machine.Admitted.append .start (asked (str 2)) _ _ (asking_whole _) (asking_run _) written_whole

def headerCut : Writer := { asked (str 2) with
  todo := [.send (Request.sample.message (str 2)),.packetOut (asking.reply (target (learned ∅ teaching) asking))]
  bytes := (str (Request.sample.message (str 2)).length).take 1 }

theorem header_cut : (controller (str 2)).run .start [.packetIn teaching,.perform 0,.packetIn asking,.perform 1] =
    some headerCut ∧ ¬headerCut.Framed := by
  have size : (str (Request.sample.message (str 2)).length).length = 3 := by rw [sample_size,header_size]
  have accepted : (asked (str 2)).step (str 2) (.perform 1) = some headerCut := by
    simp [Writer.step,asked,writes,size,headerCut]
  constructor
  · have joined : ([.packetIn teaching,.perform 0,.packetIn asking,.perform 1] : List Action) =
        [.packetIn teaching,.perform 0,.packetIn asking] ++ [.perform 1] := rfl
    rw [joined,Machine.run_append,asking_run,Option.bind_some,Machine.run,controller_step,accepted]
    rfl
  · intro framed
    have whole := Writer.short_write (asked (str 2)) headerCut (.perform 1) (asked_framed _) accepted framed
    have all := whole 1 (str (Request.sample.message (str 2)).length) _ rfl rfl
    omega

end NfvConsensus.ConsensusSwitch
