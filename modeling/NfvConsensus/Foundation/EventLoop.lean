import Mathlib.Data.List.Basic

/-! A handler that is called on one event after the other. What it does at an event follows
from an invariant of its state and the events before; and where events of different keys
touch different parts of the state, they do not see each other. -/
namespace NfvConsensus.Foundation.EventLoop
variable {σ ε ω κ ν : Type*}

def run (handle : σ → ε → σ × ω) (state : σ) : List ε → σ × List ω
  | [] => (state,[])
  | event :: rest =>
    let handled := handle state event
    let later := run handle handled.1 rest
    (later.1,handled.2 :: later.2)

/-- A relation between the state and the events so far, kept by each call. -/
def Kept (handle : σ → ε → σ × ω) (holds : List ε → σ → Prop) : Prop :=
  ∀ before state event, holds before state → holds (before ++ [event]) (handle state event).1

/-- The output at an event is that of the handler in some state with the invariant. -/
theorem run_at {handle : σ → ε → σ × ω} {holds : List ε → σ → Prop} (kept : Kept handle holds) (state : σ)
    (start : holds [] state) (before : List ε) (event : ε) (after : List ε) :
    ∃ reached, holds before reached ∧
      (run handle state (before ++ event :: after)).2[before.length]? = some (handle reached event).2 := by
  suffices shifted : ∀ earlier state, holds earlier state → ∃ reached, holds (earlier ++ before) reached ∧
      (run handle state (before ++ event :: after)).2[before.length]? = some (handle reached event).2 from
    shifted [] state start
  induction before with
  | nil => exact fun earlier state holding => ⟨state,by simpa using holding,rfl⟩
  | cons first before ih =>
    intro earlier state holding
    obtain ⟨reached,later,output⟩ := ih (earlier ++ [first]) (handle state first).1 (kept earlier state first holding)
    rw [List.append_assoc] at later
    exact ⟨reached,later,output⟩

def outputsOf [DecidableEq κ] (key : ε → κ) (k : κ) (events : List ε) (outputs : List ω) : List ω :=
  ((events.zip outputs).filter fun entry => key entry.1 = k).map Prod.snd

/-- The handler treats the events with key `k` by this view of the state alone, and no
other event changes the view. -/
structure Isolates (handle : σ → ε → σ × ω) (key : ε → κ) (k : κ) (view : σ → ν) : Prop where
  own : ∀ state other event, key event = k → view state = view other →
    (handle state event).2 = (handle other event).2 ∧ view (handle state event).1 = view (handle other event).1
  foreign : ∀ state event, key event ≠ k → view (handle state event).1 = view state

theorem run_isolated [DecidableEq κ] {handle : σ → ε → σ × ω} {key : ε → κ} {k : κ} {view : σ → ν}
    (isolates : Isolates handle key k view) (state other : σ) (events : List ε) (same : view state = view other) :
    outputsOf key k events (run handle state events).2 = (run handle other (events.filter fun event => key event = k)).2 := by
  induction events generalizing state other with
  | nil => rfl
  | cons event events ih =>
    by_cases own : key event = k
    · obtain ⟨output,views⟩ := isolates.own state other event own same
      have later := ih (handle state event).1 (handle other event).1 views
      rw [outputsOf] at later
      simp only [outputsOf,run,List.zip_cons_cons,List.filter_cons,own,decide_true,if_true,List.map_cons,output,later]
    · have later := ih (handle state event).1 other ((isolates.foreign state event own).trans same)
      rw [outputsOf] at later
      simp only [outputsOf,run,List.zip_cons_cons,List.filter_cons,own,decide_false,Bool.false_eq_true,if_false,later]

end NfvConsensus.Foundation.EventLoop
