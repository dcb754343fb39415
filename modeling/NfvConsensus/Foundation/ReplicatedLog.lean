import Mathlib.Data.List.Nodup
import Mathlib.Data.Set.Insert
import Mathlib.Logic.Function.Basic
import Mathlib.Logic.Relation

/-! A log that replicas apply, each at its own pace. An entry is asked for, decided once at
most, in any order, and applied by every replica in the decided order. The entries and the
replicas are of any type. -/
namespace NfvConsensus.Foundation.ReplicatedLog
open Relation

structure Log (κ ρ : Type*) where
  asked : Set κ
  decided : List κ
  applied : ρ → Nat

namespace Log
variable {κ ρ : Type*}

def empty : Log κ ρ := ⟨∅,[],fun _ => 0⟩

/-- What a replica has applied. -/
def history (log : Log κ ρ) (r : ρ) : List κ := log.decided.take (log.applied r)

inductive Step [DecidableEq ρ] : Log κ ρ → Log κ ρ → Prop
  | ask (log : Log κ ρ) (entry : κ) : Step log { log with asked := insert entry log.asked }
  | decide (log : Log κ ρ) (entry : κ) (known : entry ∈ log.asked) (fresh : entry ∉ log.decided) :
      Step log { log with decided := log.decided ++ [entry] }
  | apply (log : Log κ ρ) (r : ρ) (behind : log.applied r < log.decided.length) :
      Step log { log with applied := Function.update log.applied r (log.applied r + 1) }

def Reachable [DecidableEq ρ] : Log κ ρ → Prop := ReflTransGen Step empty

structure Legal (log : Log κ ρ) : Prop where
  distinct : log.decided.Nodup
  known : ∀ entry ∈ log.decided, entry ∈ log.asked
  behind : ∀ r, log.applied r ≤ log.decided.length

theorem empty_legal : (empty : Log κ ρ).Legal :=
  ⟨List.nodup_nil,fun _ member => absurd member List.not_mem_nil,fun _ => Nat.le_refl _⟩

theorem history_distinct {log : Log κ ρ} (legal : log.Legal) (r : ρ) : (log.history r).Nodup :=
  legal.distinct.sublist (List.take_sublist _ _)

variable [DecidableEq ρ]

theorem step_legal {before after : Log κ ρ} (step : Step before after) (legal : before.Legal) : after.Legal := by
  cases step with
  | ask entry => exact ⟨legal.distinct,fun other member => Set.mem_insert_of_mem entry (legal.known other member),legal.behind⟩
  | decide entry known fresh =>
    refine ⟨?_,?_,?_⟩
    · exact List.nodup_append_comm.mp (List.nodup_cons.mpr ⟨fresh,legal.distinct⟩)
    · rw [List.forall_mem_append,List.forall_mem_singleton]
      exact ⟨legal.known,known⟩
    · intro r
      rw [List.length_append]
      exact Nat.le_trans (legal.behind r) (Nat.le_add_right _ _)
  | apply r behind =>
    refine ⟨legal.distinct,legal.known,?_⟩
    exact (Function.forall_update_iff before.applied fun _ count => count ≤ before.decided.length).mpr
      ⟨behind,fun other _ => legal.behind other⟩

theorem reachable_legal {log : Log κ ρ} (reached : log.Reachable) : log.Legal := by
  induction reached with
  | refl => exact empty_legal
  | tail _ step legal => exact step_legal step legal

theorem step_decided {before after : Log κ ρ} (step : Step before after) : before.decided <+: after.decided := by
  cases step with
  | ask entry => exact List.prefix_rfl
  | decide entry known fresh => exact List.prefix_append _ _
  | apply r behind => exact List.prefix_rfl

theorem run_decided {first second : Log κ ρ} (run : ReflTransGen Step first second) : first.decided <+: second.decided := by
  induction run with
  | refl => exact List.prefix_rfl
  | tail _ step grown => exact grown.trans (step_decided step)

/-- What one replica has applied and what another one has applied later agree as far as both go. -/
theorem histories_agree {first second : Log κ ρ} (run : ReflTransGen Step first second) (r s : ρ) :
    first.history r <+: second.history s ∨ second.history s <+: first.history r :=
  List.prefix_or_prefix_of_prefix ((List.take_prefix _ _).trans (run_decided run)) (List.take_prefix _ _)

end Log
end NfvConsensus.Foundation.ReplicatedLog
