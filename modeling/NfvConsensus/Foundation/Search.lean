import Mathlib.Data.List.Basic

/-! A search that leaves its candidate in a variable: the loop ends at the first match, and where
there is none the variable holds the last item looked at. -/
namespace NfvConsensus.Foundation.Search
variable {α β : Type*}

def search (mine : α → Bool) (value : α → β) : List α → Option β → Option β
  | [],candidate => candidate
  | item :: rest,_ => if mine item then some (value item) else search mine value rest (some (value item))

theorem search_found (mine : α → Bool) (value : α → β) (items : List α) (before : Option β)
    (present : ∃ item ∈ items, mine item = true) :
    ∃ item ∈ items, mine item = true ∧ search mine value items before = some (value item) := by
  induction items generalizing before with
  | nil => simp at present
  | cons item items ih =>
    cases first : mine item with
    | true => exact ⟨item,by simp,first,by rw [search,first,if_pos rfl]⟩
    | false =>
      obtain ⟨other,member,matches_other⟩ := present
      have later : other ∈ items := by
        rcases List.mem_cons.mp member with rfl | later
        · rw [first] at matches_other
          contradiction
        · exact later
      obtain ⟨found,inside,fits,result⟩ := ih (some (value item)) ⟨other,later,matches_other⟩
      exact ⟨found,List.mem_cons_of_mem item inside,fits,by rw [search,first,if_neg Bool.false_ne_true,result]⟩

theorem search_missing (mine : α → Bool) (value : α → β) (items : List α) (before : Option β)
    (absent : ∀ item ∈ items, mine item = false) :
    search mine value items before = (items.getLast?.map value).or before := by
  induction items generalizing before with
  | nil => rfl
  | cons item items ih =>
    rw [search,absent item (by simp),if_neg Bool.false_ne_true,ih _ fun other member => absent other (by simp [member]),
      List.getLast?_cons]
    cases items.getLast? with
    | none => rfl
    | some last => rfl

/-- The search is right just when there is nothing to search or something to find. -/
theorem search_right_iff (mine : α → Bool) (value : α → β) (items : List α) (right : β → Prop)
    (matching : ∀ item ∈ items, mine item = true → right (value item))
    (wrong : (∀ item ∈ items, mine item = false) → ∀ item ∈ items, ¬right (value item)) :
    (∀ result, search mine value items none = some result → right result) ↔
      items = [] ∨ ∃ item ∈ items, mine item = true := by
  constructor
  · intro rights
    by_contra neither
    obtain ⟨present,missing⟩ := not_or.mp neither
    have absent : ∀ item ∈ items, mine item = false := fun item member =>
      Bool.eq_false_iff.mpr fun fits => missing ⟨item,member,fits⟩
    have last := List.getLast?_eq_some_getLast present
    have result := search_missing mine value items none absent
    rw [last] at result
    exact wrong absent _ (List.getLast_mem present) (rights _ result)
  · rintro (rfl | present) result found
    · contradiction
    · obtain ⟨item,member,fits,same⟩ := search_found mine value items none present
      obtain rfl := Option.some.inj (same.symm.trans found)
      exact matching item member fits

end NfvConsensus.Foundation.Search
