import NfvConsensus.Learning

/-! A run in which writes to the connection raise. The exception leaves the handler, and Ryu goes
on with the next packet-in; so the table is not affected, but a packet-in for which a
write raises is not forwarded. -/
namespace NfvConsensus.ConsensusSwitch
open Python Foundation.EventLoop SwitchEquivalence

/-- A packet-in, and for each `conn.send` made while it is handled whether the call raises. -/
structure Attempt where
  msg : PacketIn
  raises : Nat → Bool

/-- What is done until a send raises. -/
def interrupted (raises : Nat → Bool) : List Effect → List Effect
  | [] => []
  | .send text :: rest => if raises 0 then [] else .send text :: interrupted (fun call => raises (call + 1)) rest
  | effect :: rest => effect :: interrupted raises rest

/-- The handler has written its table when it makes the first send. -/
def failingHandler (host : Str) (macToPort : MacTable) (attempt : Attempt) : MacTable × List Effect :=
  let handled := packetInHandler host macToPort attempt.msg
  (handled.1,interrupted attempt.raises handled.2)

/-- Each packet-in is answered by the one packet-out of the run without failures, and the
tables are the same. -/
structure StillForwards (host : Str) (attempts : List Attempt) : Prop where
  table : (run (failingHandler host) ∅ attempts).1 = (runHandler (packetInHandler host) ∅ (attempts.map Attempt.msg)).1
  each : ∀ before attempt after, attempts = before ++ attempt :: after → ∃ failing effects out,
    (run (failingHandler host) ∅ attempts).2[before.length]? = some failing ∧
      (runHandler (packetInHandler host) ∅ (attempts.map Attempt.msg)).2[before.length]? = some effects ∧
      packetOuts failing = [out] ∧ packetOuts effects = [out]

theorem failing_table (host : Str) (macToPort : MacTable) (attempts : List Attempt) :
    (run (failingHandler host) macToPort attempts).1 =
      (runHandler (packetInHandler host) macToPort (attempts.map Attempt.msg)).1 := by
  induction attempts generalizing macToPort with
  | nil => rfl
  | cons attempt attempts ih => exact ih (packetInHandler host macToPort attempt.msg).1

theorem failing_kept (host : Str) :
    Kept (failingHandler host) fun before macToPort => Recalls (before.map Attempt.msg) macToPort := by
  intro before macToPort attempt recalls
  rw [List.map_append,List.map_singleton]
  exact recalls_kept host _ macToPort attempt.msg recalls

theorem failing_packetOuts (host : Str) (macToPort : MacTable) (attempt : Attempt) :
    packetOuts (failingHandler host macToPort attempt).2 = [attempt.msg.reply (target macToPort attempt.msg)] ↔
      ((requested macToPort attempt.msg).isSome → attempt.raises 0 = false ∧ attempt.raises 1 = false) := by
  rw [failingHandler,packetInHandler_effects]
  cases requested macToPort attempt.msg with
  | none => exact ⟨fun _ made => absurd made (by simp),fun _ => rfl⟩
  | some made =>
    cases header : attempt.raises 0 with
    | true => simp [writes,interrupted,header,packetOuts]
    | false =>
      cases body : attempt.raises 1 with
      | true => simp [writes,interrupted,header,body,packetOuts]
      | false => simp [writes,interrupted,header,body,packetOuts]

theorem failing_at (host : Str) (attempts before : List Attempt) (attempt : Attempt) (after : List Attempt)
    (order : attempts = before ++ attempt :: after) : ∃ reached, Recalls (before.map Attempt.msg) reached ∧
      (run (failingHandler host) ∅ attempts).2[before.length]? = some (failingHandler host reached attempt).2 := by
  rw [order]
  exact run_at (failing_kept host) ∅ recalls_empty before attempt after

/-- A packet-in is answered as in the run without failures unless a write for its rule raises. -/
theorem answered_iff (host : Str) (attempts before : List Attempt) (attempt : Attempt) (after : List Attempt)
    (order : attempts = before ++ attempt :: after) :
    (∃ failing effects out, (run (failingHandler host) ∅ attempts).2[before.length]? = some failing ∧
      (runHandler (packetInHandler host) ∅ (attempts.map Attempt.msg)).2[before.length]? = some effects ∧
      packetOuts failing = [out] ∧ packetOuts effects = [out]) ↔
    (Learned (before.map Attempt.msg) attempt.msg → attempt.raises 0 = false ∧ attempt.raises 1 = false) := by
  obtain ⟨reached,recalls,output⟩ := failing_at host attempts before attempt after order
  have order_msg : attempts.map Attempt.msg = before.map Attempt.msg ++ attempt.msg :: after.map Attempt.msg := by
    rw [order,List.map_append,List.map_cons]
  obtain ⟨usual,recalled,answer⟩ := handler_at host _ (before.map Attempt.msg) attempt.msg _ order_msg
  rw [List.length_map] at answer
  -- both tables recall the same packet-ins, so they give the same port
  have port := target_recalled _ reached attempt.msg recalls
  rw [← target_recalled _ usual attempt.msg recalled] at port
  rw [← requested_learned _ reached attempt.msg recalls,← failing_packetOuts host reached attempt,port,output,answer]
  constructor
  · rintro ⟨_,_,out,same,other,failing,effects⟩
    cases same
    cases other
    rw [failing,← effects,consensus_packetOuts]
  · intro forwarded
    exact ⟨_,_,_,rfl,rfl,forwarded,consensus_packetOuts host usual attempt.msg⟩

theorem still_forwards_iff (host : Str) (attempts : List Attempt) : StillForwards host attempts ↔
    ∀ before attempt after, attempts = before ++ attempt :: after → Learned (before.map Attempt.msg) attempt.msg →
      attempt.raises 0 = false ∧ attempt.raises 1 = false := by
  constructor
  · intro forwards before attempt after order
    exact (answered_iff host attempts before attempt after order).mp (forwards.each before attempt after order)
  · intro fine
    exact ⟨failing_table host ∅ attempts,fun before attempt after order =>
      (answered_iff host attempts before attempt after order).mpr (fine before attempt after order)⟩

-- The connection is lost when the second packet asks for a rule.
def lostConnection : List Attempt := [⟨teaching,fun _ => false⟩,⟨asking,fun _ => true⟩]

theorem packet_lost : (run (failingHandler (str 2)) ∅ lostConnection).2[1]? = some [] ∧
    ¬StillForwards (str 2) lostConnection := by
  have silent : (failingHandler (str 2) (learned ∅ teaching) ⟨asking,fun _ => true⟩).2 = [] := by
    rw [failingHandler,packetInHandler_effects,asking_requested]
    rfl
  have lost : (run (failingHandler (str 2)) ∅ lostConnection).2[1]? = some [] := congrArg some silent
  refine ⟨lost,fun forwards => ?_⟩
  obtain ⟨_,_,out,same,_,failing,_⟩ := forwards.each [⟨teaching,fun _ => false⟩] ⟨asking,fun _ => true⟩ [] rfl
  obtain rfl := Option.some.inj (lost.symm.trans same)
  contradiction

end NfvConsensus.ConsensusSwitch
