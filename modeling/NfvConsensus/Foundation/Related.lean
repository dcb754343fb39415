import Mathlib.Data.List.Forall2
import Mathlib.Data.Option.Basic
import Mathlib.Tactic.TypeStar

/-! Entries of lists that go together, one by one, and of a list that begins another. -/
namespace NfvConsensus.Foundation.Related
variable {α β : Type*} {relation : α → β → Prop}

theorem related_get {xs : List α} {ys : List β} (related : List.Forall₂ relation xs ys) (k : Nat) :
    Option.Rel relation xs[k]? ys[k]? := by
  induction related generalizing k with
  | nil => exact .none
  | cons agree _ ih =>
    cases k with
    | zero => exact .some agree
    | succ k => exact ih k

theorem related_some {first : α} {found : Option β} (related : Option.Rel relation (some first) found) :
    ∃ second, found = some second ∧ relation first second := by
  cases related with
  | some agree => exact ⟨_,rfl,agree⟩

theorem some_related {second : β} {found : Option α} (related : Option.Rel relation found (some second)) :
    ∃ first, found = some first ∧ relation first second := by
  cases related with
  | some agree => exact ⟨_,rfl,agree⟩

theorem related_right {xs : List α} {ys : List β} (related : List.Forall₂ relation xs ys) (k : Nat) (x : α)
    (found : xs[k]? = some x) : ∃ y, ys[k]? = some y ∧ relation x y := by
  have both := related_get related k
  rw [found] at both
  exact related_some both

theorem related_left {xs : List α} {ys : List β} (related : List.Forall₂ relation xs ys) (k : Nat) (y : β)
    (found : ys[k]? = some y) : ∃ x, xs[k]? = some x ∧ relation x y := by
  have both := related_get related k
  rw [found] at both
  exact some_related both

theorem begun_at {shorter longer : List α} {k : Nat} {x : α} (begins : shorter <+: longer) (found : shorter[k]? = some x) :
    longer[k]? = some x := by
  obtain ⟨rest,rfl⟩ := begins
  rw [List.getElem?_append_left (List.getElem?_eq_some_iff.mp found).1,found]

end NfvConsensus.Foundation.Related
