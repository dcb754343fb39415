import Mathlib.Data.List.Forall2
import Mathlib.Data.List.Induction
import Mathlib.Logic.Relation
import Mathlib.Tactic.TypeStar

/-! Machines with a partial step, the states their runs reach, and the induction
rule for invariants. A run may be restricted by a condition on each label in the
state it is taken from; an unrestricted run is the case where all are allowed. -/
namespace NfvConsensus.Foundation.Transition

/-- `step` is `none` exactly where a label is not enabled. -/
structure Machine (σ ι : Type*) where
  initial : σ
  step : σ → ι → Option σ

namespace Machine
variable {σ ι : Type*} (machine : Machine σ ι)

def run (start : σ) : List ι → Option σ
  | [] => some start
  | label :: rest => (machine.step start label).bind fun next => run next rest

inductive Reached (allowed : σ → ι → Prop) : σ → Prop
  | initial : Reached allowed machine.initial
  | step (before after : σ) (label : ι) (reached : Reached allowed before)
      (admitted : allowed before label) (taken : machine.step before label = some after) :
      Reached allowed after

def Reachable : σ → Prop := machine.Reached fun _ _ => True

variable {machine}

/-- What holds initially and survives every allowed step holds wherever such a run goes. -/
theorem Reached.invariant {allowed : σ → ι → Prop} {holds : σ → Prop}
    (start : holds machine.initial)
    (preserved : ∀ before after label, holds before → allowed before label →
      machine.step before label = some after → holds after)
    {state : σ} (reached : machine.Reached allowed state) : holds state := by
  induction reached with
  | initial => exact start
  | step before after label _ admitted taken ih => exact preserved before after label ih admitted taken

theorem run_append (machine : Machine σ ι) (start : σ) (first second : List ι) :
    machine.run start (first ++ second) = (machine.run start first).bind fun middle => machine.run middle second := by
  induction first generalizing start with
  | nil => rfl
  | cons label rest ih =>
    simp only [List.cons_append,run,Option.bind_assoc,ih]

def Throughout (machine : Machine σ ι) (holds : σ → Prop) : σ → List ι → Prop
  | state,[] => holds state
  | state,label :: rest =>
    holds state ∧ ∀ next, machine.step state label = some next → Throughout machine holds next rest

def Admitted (machine : Machine σ ι) (allowed : σ → ι → Prop) : σ → List ι → Prop
  | _,[] => True
  | state,label :: rest =>
    allowed state label ∧ ∀ next, machine.step state label = some next → Admitted machine allowed next rest

theorem Throughout.head {holds : σ → Prop} {state : σ} {labels : List ι}
    (throughout : machine.Throughout holds state labels) : holds state := by
  cases labels with
  | nil => exact throughout
  | cons label rest => exact throughout.1

theorem Admitted.always {allowed : σ → ι → Prop} (state : σ) (labels : List ι)
    (each : ∀ state, ∀ label ∈ labels, allowed state label) : machine.Admitted allowed state labels := by
  induction labels generalizing state with
  | nil => trivial
  | cons label rest ih =>
    exact ⟨each state label (by simp),fun next _ => ih next fun other later member => each other later (by simp [member])⟩

theorem Admitted.weaken {allowed weaker : σ → ι → Prop} (each : ∀ state label, allowed state label → weaker state label)
    (state : σ) (labels : List ι) (admitted : machine.Admitted allowed state labels) :
    machine.Admitted weaker state labels := by
  induction labels generalizing state with
  | nil => trivial
  | cons label rest ih =>
    exact ⟨each state label admitted.1,fun next taken => ih next (admitted.2 next taken)⟩

theorem Admitted.append {allowed : σ → ι → Prop} (start middle : σ) (first second : List ι)
    (before : machine.Admitted allowed start first) (ran : machine.run start first = some middle)
    (later : machine.Admitted allowed middle second) : machine.Admitted allowed start (first ++ second) := by
  induction first generalizing start with
  | nil =>
    cases Option.some.inj ran
    exact later
  | cons label rest ih =>
    obtain ⟨next,taken,ran⟩ := Option.bind_eq_some_iff.mp ran
    refine ⟨before.1,fun other same => ?_⟩
    obtain rfl : next = other := Option.some.inj (taken.symm.trans same)
    exact ih next (before.2 next taken) ran

theorem reached_run {allowed : σ → ι → Prop} (start finish : σ) (labels : List ι)
    (from_start : machine.Reached allowed start) (ran : machine.run start labels = some finish)
    (admitted : machine.Admitted allowed start labels) : machine.Reached allowed finish := by
  induction labels generalizing start with
  | nil =>
    cases Option.some.inj ran
    exact from_start
  | cons label rest ih =>
    obtain ⟨next,taken,ran⟩ := Option.bind_eq_some_iff.mp ran
    exact ih next (.step start next label from_start admitted.1 taken) ran (admitted.2 next taken)

theorem reachable_run (start finish : σ) (labels : List ι) (from_start : machine.Reachable start)
    (ran : machine.run start labels = some finish) : machine.Reachable finish :=
  reached_run start finish labels from_start ran (Admitted.always start labels fun _ _ _ => trivial)

/-- Where a step keeps a property exactly when its label is allowed, a run keeps it throughout
exactly when all its labels are. -/
theorem throughout_iff {holds invariant : σ → Prop} {allowed : σ → ι → Prop}
    (preserved : ∀ before after label, invariant before → machine.step before label = some after → invariant after)
    (exact_step : ∀ before after label, invariant before → holds before → machine.step before label = some after →
      (holds after ↔ allowed before label))
    (start finish : σ) (labels : List ι) (sound : invariant start) (initially : holds start)
    (ran : machine.run start labels = some finish) :
    machine.Throughout holds start labels ↔ machine.Admitted allowed start labels := by
  induction labels generalizing start with
  | nil => exact ⟨fun _ => trivial,fun _ => initially⟩
  | cons label rest ih =>
    obtain ⟨next,taken,ran⟩ := Option.bind_eq_some_iff.mp ran
    have still := preserved start next label sound taken
    have step := exact_step start next label sound initially taken
    constructor
    · intro throughout
      obtain ⟨_,later⟩ := throughout
      have held := (later next taken).head
      refine ⟨step.mp held,fun other same => ?_⟩
      obtain rfl : next = other := Option.some.inj (taken.symm.trans same)
      exact (ih next still held ran).mp (later next taken)
    · intro allowed_run
      obtain ⟨admitted,later⟩ := allowed_run
      have held := step.mpr admitted
      refine ⟨initially,fun other same => ?_⟩
      obtain rfl : next = other := Option.some.inj (taken.symm.trans same)
      exact (ih next still held ran).mpr (later next taken)

/-- Seen through `view`, every step from a state with the invariant is a step of the abstract
system, or none. -/
def Simulates {τ : Type*} (machine : Machine σ ι) (invariant : σ → Prop) (view : σ → τ) (next : τ → τ → Prop) : Prop :=
  ∀ before after label, invariant before → machine.step before label = some after →
    view after = view before ∨ next (view before) (view after)

theorem simulated_run {τ : Type*} {invariant : σ → Prop} {view : σ → τ} {next : τ → τ → Prop}
    (simulates : machine.Simulates invariant view next)
    (preserved : ∀ before after label, invariant before → machine.step before label = some after → invariant after)
    (start finish : σ) (labels : List ι) (sound : invariant start) (ran : machine.run start labels = some finish) :
    Relation.ReflTransGen next (view start) (view finish) := by
  induction labels generalizing start with
  | nil =>
    cases Option.some.inj ran
    exact .refl
  | cons label rest ih =>
    obtain ⟨middle,taken,ran⟩ := Option.bind_eq_some_iff.mp ran
    have later := ih middle (preserved start middle label sound taken) ran
    rcases simulates start middle label sound taken with same | step
    · rwa [same] at later
    · exact .head step later

/-- Where related states match each other's steps on labels that go together, they match
each other's runs. -/
theorem matched_run {invariant : σ → Prop} {related : σ → σ → Prop} {together : ι → ι → Prop}
    (preserved : ∀ before after label, invariant before → machine.step before label = some after → invariant after)
    (matched : ∀ first second after label other, invariant first → invariant second → related first second →
      together label other → machine.step first label = some after →
        ∃ answer, machine.step second other = some answer ∧ related after answer)
    (first second finish : σ) (labels others : List ι) (sound : invariant first) (sound_second : invariant second)
    (start : related first second) (pairs : List.Forall₂ together labels others)
    (ran : machine.run first labels = some finish) :
    ∃ answer, machine.run second others = some answer ∧ related finish answer := by
  induction pairs generalizing first second with
  | nil =>
    cases Option.some.inj ran
    exact ⟨second,rfl,start⟩
  | @cons label other labels others pair _ ih =>
    obtain ⟨middle,taken,rest⟩ := Option.bind_eq_some_iff.mp ran
    obtain ⟨next,taken_second,still⟩ := matched first second middle label other sound sound_second start pair taken
    obtain ⟨last,ran_second,related_last⟩ := ih middle next (preserved _ _ _ sound taken)
      (preserved _ _ _ sound_second taken_second) still rest
    exact ⟨last,by rw [run,taken_second,Option.bind_some,ran_second],related_last⟩

/-- Where a second machine has an answer to every step of the first one, it reaches a state
related to whatever the first one reaches. -/
theorem related_reachable {τ κ : Type*} {second : Machine τ κ} (related : σ → τ → Prop)
    (start : related machine.initial second.initial)
    (answered : ∀ before other after label, related before other → machine.step before label = some after →
      ∃ answer next, second.step other answer = some next ∧ related after next)
    {state : σ} (reached : machine.Reachable state) : ∃ other, second.Reachable other ∧ related state other := by
  induction reached with
  | initial => exact ⟨second.initial,.initial,start⟩
  | step before after label _ _ taken ih =>
    obtain ⟨other,reached,together⟩ := ih
    obtain ⟨answer,next,answers,still⟩ := answered before other after label together taken
    exact ⟨next,.step other next answer reached trivial answers,still⟩

/-- Where a second machine answers each label by its image, if it has one, and otherwise by staying
where it is, the images of a run are a run of it. -/
theorem image_run {τ κ : Type*} {second : Machine τ κ} (image : ι → Option κ) (related : List ι → σ → τ → Prop)
    (start : related [] machine.initial second.initial)
    (answered : ∀ labels before other after label, related labels before other → second.Reachable other →
      machine.step before label = some after →
        ∃ next, second.run other (image label).toList = some next ∧ related (labels ++ [label]) after next)
    (labels : List ι) (finish : σ) (ran : machine.run machine.initial labels = some finish) :
    ∃ answer, second.run second.initial (labels.filterMap image) = some answer ∧ related labels finish answer := by
  induction labels using List.reverseRecOn generalizing finish with
  | nil =>
    cases Option.some.inj ran
    exact ⟨second.initial,rfl,start⟩
  | append_singleton labels label ih =>
    rw [run_append] at ran
    obtain ⟨before,ran_before,last⟩ := Option.bind_eq_some_iff.mp ran
    obtain ⟨after,taken,is⟩ := Option.bind_eq_some_iff.mp last
    obtain rfl : after = finish := Option.some.inj is
    obtain ⟨other,ran_other,together⟩ := ih before ran_before
    have reached := reachable_run second.initial other _ .initial ran_other
    obtain ⟨next,answers,still⟩ := answered labels before other after label together reached taken
    refine ⟨next,?_,still⟩
    have images : [label].filterMap image = (image label).toList := by
      cases found : image label with
      | none => rw [List.filterMap_cons_none found,List.filterMap_nil,Option.toList_none]
      | some one => rw [List.filterMap_cons_some found,List.filterMap_nil,Option.toList_some]
    rw [List.filterMap_append,images,run_append,ran_other,Option.bind_some,answers]

theorem reachable_iff_run (state : σ) : machine.Reachable state ↔ ∃ labels, machine.run machine.initial labels = some state := by
  constructor
  · intro reached
    induction reached with
    | initial => exact ⟨[],rfl⟩
    | step before after label _ _ taken ih =>
      obtain ⟨labels,ran⟩ := ih
      refine ⟨labels ++ [label],?_⟩
      rw [run_append,ran,Option.bind_some,run,taken]
      rfl
  · rintro ⟨labels,ran⟩
    exact reachable_run machine.initial state labels .initial ran

/-- Where the allowed labels lower a measure, it bounds the runs that take no others. -/
theorem run_bounded {allowed : σ → ι → Prop} {invariant : σ → Prop} (measure : σ → Nat)
    (preserved : ∀ before after label, invariant before → machine.step before label = some after → invariant after)
    (lowers : ∀ before after label, invariant before → allowed before label → machine.step before label = some after →
      measure after < measure before)
    (start finish : σ) (labels : List ι) (sound : invariant start) (ran : machine.run start labels = some finish)
    (admitted : machine.Admitted allowed start labels) : measure finish + labels.length ≤ measure start := by
  induction labels generalizing start with
  | nil =>
    cases Option.some.inj ran
    exact Nat.le_refl _
  | cons label rest ih =>
    obtain ⟨middle,taken,ran⟩ := Option.bind_eq_some_iff.mp ran
    have less := lowers start middle label sound admitted.1 taken
    have later := ih middle (preserved start middle label sound taken) ran (admitted.2 middle taken)
    rw [List.length_cons]
    omega

/-- There is then a run to a state in which no label is both allowed and enabled. -/
theorem settling_run {allowed : σ → ι → Prop} {invariant : σ → Prop} (measure : σ → Nat)
    (preserved : ∀ before after label, invariant before → machine.step before label = some after → invariant after)
    (lowers : ∀ before after label, invariant before → allowed before label → machine.step before label = some after →
      measure after < measure before)
    (start : σ) (sound : invariant start) : ∃ labels finish, machine.run start labels = some finish ∧
      machine.Admitted allowed start labels ∧ ∀ label, allowed finish label → machine.step finish label = none := by
  induction left : measure start using Nat.strongRecOn generalizing start with
  | _ amount ih =>
    by_cases settled : ∀ label, allowed start label → machine.step start label = none
    · exact ⟨[],start,rfl,trivial,settled⟩
    · obtain ⟨label,more⟩ := Classical.not_forall.mp settled
      obtain ⟨admitted,enabled⟩ := Classical.not_imp.mp more
      obtain ⟨next,taken⟩ := Option.ne_none_iff_exists'.mp enabled
      have less := lowers start next label sound admitted taken
      obtain ⟨labels,finish,ran,later,settled⟩ := ih (measure next) (left ▸ less) next (preserved start next label sound taken) rfl
      refine ⟨label :: labels,finish,?_,⟨admitted,fun other same => ?_⟩,settled⟩
      · rw [run,taken,Option.bind_some,ran]
      · obtain rfl : next = other := Option.some.inj (taken.symm.trans same)
        exact later

end Machine
end NfvConsensus.Foundation.Transition
