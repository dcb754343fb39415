import NfvConsensus.OfctlRest
import Mathlib.Logic.Function.Basic

/-! `ofctl_rest.py`: the replies of the switches, and the requests waiting for them. A request
sent by `ofctl_v1_0` or one of its siblings leaves a lock and a list in `waiters`, under its
datapath and its transaction, and takes the entry away when it has waited too long. In
any interleaving with other requests and their replies, the list has the replies to the
request, in order, up to the first that does not announce more. -/
namespace NfvConsensus.OfctlRest
open Python

structure Reply where
  dpid : Nat
  ofpVersion : Nat
  xid : Nat
  flags : Nat
  body : Str
  deriving DecidableEq

/-- `lock`, and whether it is set, and `msgs`. -/
structure Waiter where
  lock : Bool
  msgs : List Reply

/-- `waiters` has the numbers of the waiters, and `objects` all waiters there have been. -/
structure Waiters where
  waiters : Nat → Option (Nat → Option Nat)
  objects : List Waiter

namespace Waiters

def start : Waiters := ⟨fun _ => none,[]⟩

/-- A reply is added to its list; at the `last` one the entry goes, and the lock is set. -/
def answer (last : Bool) (state : Waiters) (msg : Reply) : Waiters :=
  match state.waiters msg.dpid with
  | none => state
  | some waitersPerDp =>
    match waitersPerDp msg.xid with
    | none => state
    | some waiter =>
      let state := { state with
        objects := state.objects.modify waiter fun object => { object with msgs := object.msgs ++ [msg] } }
      if last then
        { waiters := Function.update state.waiters msg.dpid (some (Function.update waitersPerDp msg.xid none))
          objects := state.objects.modify waiter fun object => { object with lock := true } }
      else state

def OFPSF_REPLY_MORE : Nat := 1
def OFPMPF_REPLY_MORE : Nat := 1

def moreFlag (ofpVersion : Nat) : Nat :=
  if ofpVersion = 1 then OFPSF_REPLY_MORE
  else if ofpVersion = 3 then OFPSF_REPLY_MORE
  else if 4 ≤ ofpVersion then OFPMPF_REPLY_MORE
  else 0

def final (msg : Reply) : Bool := msg.flags &&& moreFlag msg.ofpVersion = 0

def statsReplyHandler (state : Waiters) (msg : Reply) : Waiters := answer (final msg) state msg

def featuresReplyHandler (state : Waiters) (msg : Reply) : Waiters := answer true state msg

inductive Event
  | wait (dpid xid : Nat)
  | expire (dpid xid : Nat)
  | statsReply (msg : Reply)
  | featuresReply (msg : Reply)

def handle (state : Waiters) : Event → Waiters
  | .wait dpid xid =>
    let waitersPerDp := (state.waiters dpid).getD fun _ => none
    { waiters := Function.update state.waiters dpid (some (Function.update waitersPerDp xid (some state.objects.length)))
      objects := state.objects ++ [{ lock := false,msgs := [] }] }
  | .expire dpid xid =>
    let waitersPerDp := (state.waiters dpid).map fun waitersPerDp => Function.update waitersPerDp xid none
    { state with waiters := Function.update state.waiters dpid waitersPerDp }
  | .statsReply msg => statsReplyHandler state msg
  | .featuresReply msg => featuresReplyHandler state msg

def run (state : Waiters) (events : List Event) : Waiters := events.foldl handle state

def waits (events : List Event) : Nat :=
  (events.filter fun event => match event with
    | .wait _ _ => true
    | _ => false).length

/-- What a request collects from the events after it. -/
def answers (dpid xid : Nat) : List Event → Waiter
  | [] => ⟨false,[]⟩
  | .wait other another :: rest => if other = dpid ∧ another = xid then ⟨false,[]⟩ else answers dpid xid rest
  | .expire other another :: rest => if other = dpid ∧ another = xid then ⟨false,[]⟩ else answers dpid xid rest
  | .statsReply msg :: rest =>
    if msg.dpid = dpid ∧ msg.xid = xid then
      if final msg then ⟨true,[msg]⟩
      else { answers dpid xid rest with msgs := msg :: (answers dpid xid rest).msgs }
    else answers dpid xid rest
  | .featuresReply msg :: rest =>
    if msg.dpid = dpid ∧ msg.xid = xid then ⟨true,[msg]⟩ else answers dpid xid rest

def lookup (state : Waiters) (dpid xid : Nat) : Option Nat := (state.waiters dpid).bind fun waitersPerDp => waitersPerDp xid

/-- Each entry has a waiter of its own. -/
structure Sound (state : Waiters) : Prop where
  inside : ∀ dpid xid waiter, state.lookup dpid xid = some waiter → waiter < state.objects.length
  apart : ∀ dpid xid other another waiter, state.lookup dpid xid = some waiter →
    state.lookup other another = some waiter → other = dpid ∧ another = xid

section Lookup
variable {state : Waiters}

theorem lookup_wait (state : Waiters) (dpid xid other another : Nat) : (state.handle (.wait dpid xid)).lookup other another =
    if other = dpid ∧ another = xid then some state.objects.length else state.lookup other another := by
  by_cases here : other = dpid
  · subst here
    by_cases same : another = xid
    · subst same
      simp [handle,lookup]
    · cases known : state.waiters other with
      | none => simp [handle,lookup,same,known]
      | some waitersPerDp => simp [handle,lookup,same,known]
  · simp [handle,lookup,here]

theorem lookup_expire (state : Waiters) (dpid xid other another : Nat) : (state.handle (.expire dpid xid)).lookup other another =
    if other = dpid ∧ another = xid then none else state.lookup other another := by
  by_cases here : other = dpid
  · subst here
    cases known : state.waiters other with
    | none => simp [handle,lookup,known]
    | some waitersPerDp =>
      by_cases same : another = xid
      · simp [handle,lookup,known,same]
      · simp [handle,lookup,known,same]
  · simp [handle,lookup,here]

theorem answer_absent (last : Bool) (msg : Reply) (absent : state.lookup msg.dpid msg.xid = none) :
    answer last state msg = state := by
  unfold answer
  cases known : state.waiters msg.dpid with
  | none => rfl
  | some waitersPerDp =>
    rw [lookup,known,Option.bind_some] at absent
    simp only [absent]

theorem answer_objects (last : Bool) (msg : Reply) (waiter : Nat) (present : state.lookup msg.dpid msg.xid = some waiter) :
    (answer last state msg).objects =
      state.objects.modify waiter fun object => ⟨object.lock || last,object.msgs ++ [msg]⟩ := by
  obtain ⟨waitersPerDp,known,entry⟩ := Option.bind_eq_some_iff.mp present
  unfold answer
  simp only [known,entry]
  cases last with
  | false => simp only [Bool.false_eq_true,if_false,Bool.or_false]
  | true =>
    simp only [if_true,Bool.or_true]
    rw [List.modify_modify_eq]
    rfl

theorem lookup_answer (last : Bool) (msg : Reply) (dpid xid : Nat) : (answer last state msg).lookup dpid xid =
    if last = true ∧ dpid = msg.dpid ∧ xid = msg.xid then none else state.lookup dpid xid := by
  cases present : state.lookup msg.dpid msg.xid with
  | none =>
    rw [answer_absent last msg present]
    split
    · rename_i same
      obtain ⟨_,rfl,rfl⟩ := same
      exact present
    · rfl
  | some waiter =>
    obtain ⟨waitersPerDp,known,entry⟩ := Option.bind_eq_some_iff.mp present
    unfold answer
    simp only [known,entry]
    cases last with
    | false => simp [lookup]
    | true =>
      by_cases here : dpid = msg.dpid
      · subst here
        by_cases same : xid = msg.xid
        · simp [lookup,same]
        · simp [lookup,same,known]
      · simp [lookup,here]

theorem answer_other (last : Bool) (msg : Reply) (waiter : Nat) (other : state.lookup msg.dpid msg.xid ≠ some waiter) :
    (answer last state msg).objects[waiter]? = state.objects[waiter]? := by
  cases present : state.lookup msg.dpid msg.xid with
  | none => rw [answer_absent last msg present]
  | some found =>
    rw [present] at other
    have different : found ≠ waiter := fun same => other (congrArg some same)
    rw [answer_objects last msg found present,List.getElem?_modify_ne _ _ different]

theorem answer_length (last : Bool) (msg : Reply) : (answer last state msg).objects.length = state.objects.length := by
  cases present : state.lookup msg.dpid msg.xid with
  | none => rw [answer_absent last msg present]
  | some found => rw [answer_objects last msg found present,List.length_modify]

theorem start_sound : start.Sound := ⟨fun _ _ _ found => by contradiction,fun _ _ _ _ _ found => by contradiction⟩

theorem Sound.fewer (sound : state.Sound) (after : Waiters) (length : after.objects.length = state.objects.length)
    (kept : ∀ dpid xid waiter, after.lookup dpid xid = some waiter → state.lookup dpid xid = some waiter) : after.Sound where
  inside dpid xid waiter found := by
    rw [length]
    exact sound.inside dpid xid waiter (kept dpid xid waiter found)
  apart dpid xid other another waiter found again :=
    sound.apart dpid xid other another waiter (kept _ _ _ found) (kept _ _ _ again)

theorem answer_sound (last : Bool) (msg : Reply) (sound : state.Sound) : (answer last state msg).Sound := by
  apply sound.fewer _ (answer_length last msg)
  intro dpid xid waiter found
  rw [lookup_answer] at found
  split at found
  · contradiction
  · exact found

theorem handle_sound (event : Event) (sound : state.Sound) : (state.handle event).Sound := by
  cases event with
  | wait dpid xid =>
    have grown : (state.handle (.wait dpid xid)).objects.length = state.objects.length + 1 := List.length_append
    refine ⟨fun other another waiter found => ?_,fun other another third fourth waiter found again => ?_⟩
    · rw [lookup_wait] at found
      rw [grown]
      split at found
      · rw [← Option.some.inj found]
        exact Nat.lt_succ_self _
      · exact Nat.lt_succ_of_lt (sound.inside other another waiter found)
    · rw [lookup_wait] at found again
      split at found
      · rename_i mine
        split at again
        · rename_i same
          exact ⟨same.1.trans mine.1.symm,same.2.trans mine.2.symm⟩
        · have bound := sound.inside third fourth waiter again
          rw [← Option.some.inj found] at bound
          exact absurd bound (Nat.lt_irrefl _)
      · split at again
        · have bound := sound.inside other another waiter found
          rw [← Option.some.inj again] at bound
          exact absurd bound (Nat.lt_irrefl _)
        · exact sound.apart other another third fourth waiter found again
  | expire dpid xid =>
    apply sound.fewer (state.handle (.expire dpid xid)) rfl
    intro other another waiter found
    rw [lookup_expire] at found
    split at found
    · contradiction
    · exact found
  | statsReply msg => exact answer_sound (final msg) msg sound
  | featuresReply msg => exact answer_sound true msg sound

/-- No entry leads to the waiter. -/
def Gone (state : Waiters) (waiter : Nat) : Prop := ∀ dpid xid, state.lookup dpid xid ≠ some waiter

theorem handle_gone (event : Event) (waiter : Nat) (gone : state.Gone waiter) (made : waiter < state.objects.length) :
    (state.handle event).Gone waiter ∧ (state.handle event).objects[waiter]? = state.objects[waiter]? ∧
      waiter < (state.handle event).objects.length := by
  have answered (last : Bool) (msg : Reply) : (answer last state msg).Gone waiter ∧
      (answer last state msg).objects[waiter]? = state.objects[waiter]? ∧
        waiter < (answer last state msg).objects.length := by
    refine ⟨fun dpid xid found => ?_,answer_other last msg waiter (gone msg.dpid msg.xid),?_⟩
    · rw [lookup_answer] at found
      split at found
      · contradiction
      · exact gone dpid xid found
    · rw [answer_length last msg]
      exact made
  cases event with
  | wait dpid xid =>
    refine ⟨fun other another found => ?_,List.getElem?_append_left made,?_⟩
    · rw [lookup_wait] at found
      split at found
      · rw [Option.some.inj found] at made
        exact Nat.lt_irrefl _ made
      · exact gone other another found
    · exact Nat.lt_of_lt_of_le made (List.length_append ▸ Nat.le_add_right _ _)
  | expire dpid xid =>
    refine ⟨fun other another found => ?_,rfl,made⟩
    rw [lookup_expire] at found
    split at found
    · contradiction
    · exact gone other another found
  | statsReply msg => exact answered (final msg) msg
  | featuresReply msg => exact answered true msg

theorem run_gone (waiter : Nat) (object : Waiter) (events : List Event) (gone : state.Gone waiter)
    (is : state.objects[waiter]? = some object) : (state.run events).objects[waiter]? = some object := by
  induction events generalizing state with
  | nil => exact is
  | cons event events ih =>
    obtain ⟨still,same,_⟩ := handle_gone event waiter gone (List.getElem?_eq_some_iff.mp is).1
    exact ih still (same.trans is)

section Waiting
variable {dpid xid waiter : Nat}

theorem Sound.gone (sound : state.Sound) (after : Waiters) (present : state.lookup dpid xid = some waiter)
    (left : after.lookup dpid xid ≠ some waiter)
    (kept : ∀ other another, ¬(other = dpid ∧ another = xid) → after.lookup other another = state.lookup other another) :
    after.Gone waiter := by
  intro other another found
  by_cases same : other = dpid ∧ another = xid
  · obtain ⟨rfl,rfl⟩ := same
    exact left found
  · rw [kept other another same] at found
    exact same (sound.apart dpid xid other another waiter present found)

theorem replaced_gone (sound : state.Sound) (present : state.lookup dpid xid = some waiter) :
    (state.handle (.wait dpid xid)).Gone waiter := by
  apply sound.gone _ present
  · rw [lookup_wait,if_pos ⟨rfl,rfl⟩]
    exact fun same => Nat.ne_of_gt (sound.inside dpid xid waiter present) (Option.some.inj same)
  · intro other another different
    rw [lookup_wait,if_neg different]

theorem expired_gone (sound : state.Sound) (present : state.lookup dpid xid = some waiter) :
    (state.handle (.expire dpid xid)).Gone waiter := by
  apply sound.gone _ present
  · rw [lookup_expire,if_pos ⟨rfl,rfl⟩]
    exact Option.some_ne_none waiter |>.symm
  · intro other another different
    rw [lookup_expire,if_neg different]

theorem final_answer (msg : Reply) (sound : state.Sound) (present : state.lookup msg.dpid msg.xid = some waiter)
    (object : Waiter) (is : state.objects[waiter]? = some object) : (answer true state msg).Gone waiter ∧
      (answer true state msg).objects[waiter]? = some ⟨true,object.msgs ++ [msg]⟩ := by
  constructor
  · apply sound.gone _ present
    · rw [lookup_answer,if_pos ⟨rfl,rfl,rfl⟩]
      exact Option.some_ne_none waiter |>.symm
    · intro other another different
      rw [lookup_answer,if_neg fun same => different same.2]
  · rw [answer_objects true msg waiter present,List.getElem?_modify_eq,is,Option.map_eq_map,Option.map_some,Bool.or_true]

theorem partial_answer (msg : Reply) (present : state.lookup msg.dpid msg.xid = some waiter) (object : Waiter)
    (is : state.objects[waiter]? = some object) : (answer false state msg).lookup msg.dpid msg.xid = some waiter ∧
      (answer false state msg).objects[waiter]? = some ⟨object.lock,object.msgs ++ [msg]⟩ := by
  constructor
  · rw [lookup_answer,if_neg fun same => Bool.noConfusion same.1,present]
  · rw [answer_objects false msg waiter present,List.getElem?_modify_eq,is,Option.map_eq_map,Option.map_some,Bool.or_false]

theorem foreign_answer (last : Bool) (msg : Reply) (sound : state.Sound) (present : state.lookup dpid xid = some waiter)
    (foreign : ¬(msg.dpid = dpid ∧ msg.xid = xid)) : (answer last state msg).lookup dpid xid = some waiter ∧
      (answer last state msg).objects[waiter]? = state.objects[waiter]? := by
  constructor
  · rw [lookup_answer,if_neg fun same => foreign ⟨same.2.1.symm,same.2.2.symm⟩,present]
  · apply answer_other
    intro found
    exact foreign (sound.apart dpid xid msg.dpid msg.xid waiter present found)

end Waiting

/-- What the waiter of an entry has after some events, by induction on them: an own event either
ends its entry or adds to its list, and any other one leaves it as it is. -/
theorem run_waiting (dpid xid waiter : Nat) (object : Waiter) (events : List Event) (sound : state.Sound)
    (present : state.lookup dpid xid = some waiter) (is : state.objects[waiter]? = some object) :
    (state.run events).objects[waiter]? =
      some ⟨object.lock || (answers dpid xid events).lock,object.msgs ++ (answers dpid xid events).msgs⟩ := by
  induction events generalizing state object with
  | nil =>
    simp only [answers,Bool.or_false,List.append_nil]
    exact is
  | cons event events ih =>
    have still := handle_sound event sound
    cases event with
    | wait other another =>
      have same_object : (state.handle (.wait other another)).objects[waiter]? = some object :=
        (List.getElem?_append_left (sound.inside dpid xid waiter present)).trans is
      by_cases mine : other = dpid ∧ another = xid
      · obtain ⟨rfl,rfl⟩ := mine
        simp only [answers,and_self,if_true,Bool.or_false,List.append_nil]
        exact run_gone waiter object events (replaced_gone sound present) same_object
      · have found : (state.handle (.wait other another)).lookup dpid xid = some waiter := by
          rw [lookup_wait,if_neg fun same => mine ⟨same.1.symm,same.2.symm⟩,present]
        have later := ih object still found same_object
        simp only [answers,mine,if_false]
        exact later
    | expire other another =>
      by_cases mine : other = dpid ∧ another = xid
      · obtain ⟨rfl,rfl⟩ := mine
        simp only [answers,and_self,if_true,Bool.or_false,List.append_nil]
        exact run_gone waiter object events (expired_gone sound present) is
      · have found : (state.handle (.expire other another)).lookup dpid xid = some waiter := by
          rw [lookup_expire,if_neg fun same => mine ⟨same.1.symm,same.2.symm⟩,present]
        have later := ih object still found is
        simp only [answers,mine,if_false]
        exact later
    | statsReply msg =>
      by_cases mine : msg.dpid = dpid ∧ msg.xid = xid
      · obtain ⟨rfl,rfl⟩ := mine
        cases ends : final msg with
        | true =>
          obtain ⟨removed,last⟩ := final_answer msg sound present object is
          simp only [answers,and_self,if_true,ends,Bool.or_true]
          rw [run,List.foldl_cons,handle,statsReplyHandler,ends]
          exact run_gone waiter _ events removed last
        | false =>
          obtain ⟨found,added⟩ := partial_answer msg present object is
          rw [handle,statsReplyHandler,ends] at still
          have later := ih _ still found added
          simp only [answers,and_self,if_true,ends,Bool.false_eq_true,if_false]
          rw [run,List.foldl_cons,handle,statsReplyHandler,ends]
          rw [List.append_assoc] at later
          exact later
      · obtain ⟨found,kept⟩ := foreign_answer (final msg) msg sound present mine
        have later := ih object still found (kept.trans is)
        simp only [answers,mine,if_false]
        exact later
    | featuresReply msg =>
      by_cases mine : msg.dpid = dpid ∧ msg.xid = xid
      · obtain ⟨rfl,rfl⟩ := mine
        obtain ⟨removed,last⟩ := final_answer msg sound present object is
        simp only [answers,and_self,if_true,Bool.or_true]
        exact run_gone waiter _ events removed last
      · obtain ⟨found,kept⟩ := foreign_answer true msg sound present mine
        have later := ih object still found (kept.trans is)
        simp only [answers,mine,if_false]
        exact later

end Lookup

theorem run_append (state : Waiters) (before after : List Event) : state.run (before ++ after) = (state.run before).run after :=
  List.foldl_append

theorem run_sound (events : List Event) : (start.run events).Sound ∧ (start.run events).objects.length = waits events := by
  induction events using List.reverseRecOn with
  | nil => exact ⟨start_sound,rfl⟩
  | append_singleton events event ih =>
    obtain ⟨sound,made⟩ := ih
    rw [run_append]
    refine ⟨handle_sound event sound,?_⟩
    have one : ((start.run events).run [event]).objects.length = (start.run events).objects.length + waits [event] := by
      cases event with
      | wait dpid xid => exact List.length_append
      | expire dpid xid => rfl
      | statsReply msg => exact answer_length (final msg) msg
      | featuresReply msg => exact answer_length true msg
    rw [one,made,waits,waits,waits,List.filter_append,List.length_append]

/-- However requests, replies and timeouts are interleaved, a request collects the replies to it
that come after it, in order, up to the first that announces no more or until its entry goes;
its lock is set exactly if that reply has come. -/
theorem replies_collected (before after : List Event) (dpid xid : Nat) :
    (start.run (before ++ .wait dpid xid :: after)).objects[waits before]? = some (answers dpid xid after) := by
  obtain ⟨sound,made⟩ := run_sound before
  have present : ((start.run before).handle (.wait dpid xid)).lookup dpid xid = some (waits before) := by
    rw [lookup_wait,if_pos ⟨rfl,rfl⟩,made]
  have fresh : ((start.run before).handle (.wait dpid xid)).objects[waits before]? = some ⟨false,[]⟩ := by
    rw [← made]
    exact List.getElem?_concat_length
  have collected := run_waiting dpid xid (waits before) ⟨false,[]⟩ after (handle_sound _ sound) present fresh
  rw [run_append]
  exact collected

end Waiters
end NfvConsensus.OfctlRest
