import ObjectProcessor.Library.Collection

/-!
# Counting documents

An update of a whole collection changes how many of its documents satisfy a property by
the number of documents for which the property becomes true.
-/

namespace ObjectProcessor.Library

variable {Doc Key : Type*} {key : Doc → Key} {docs listed : List Doc}

/-- Of two properties no document has both, the counts add up. -/
theorem matchedCount_or {left right either : Doc → Bool}
    (each : ∀ doc ∈ docs, either doc = (left doc || right doc))
    (apart : ∀ doc ∈ docs, right doc = true → left doc = false) :
    matchedCount either docs = matchedCount left docs + matchedCount right docs := by
  induction docs with
  | nil => rfl
  | cons doc rest ih =>
      have tail := ih (fun other member => each other (List.mem_cons_of_mem _ member))
        fun other member => apart other (List.mem_cons_of_mem _ member)
      have head := each doc (List.mem_cons_self ..)
      have headApart := apart doc (List.mem_cons_self ..)
      simp only [matchedCount, List.countP_cons, head] at tail ⊢
      cases isRight : right doc with
      | false =>
          simp only [Bool.or_false, Bool.false_eq_true, ↓reduceIte]
          omega
      | true =>
          simp only [headApart isRight, Bool.or_true, Bool.false_eq_true, ↓reduceIte]
          omega

/-- The documents whose keys are listed are as many as the list has items. -/
theorem matchedCount_listed [DecidableEq Key] (unique : UniqueBy key docs)
    (distinct : UniqueBy key listed) (found : ∀ item ∈ listed, key item ∈ docs.map key) :
    matchedCount (fun doc => decide (key doc ∈ listed.map key)) docs = listed.length := by
  have keys : ((docs.filter fun doc => decide (key doc ∈ listed.map key)).map key).Perm
      (listed.map key) := by
    refine (List.perm_ext_iff_of_nodup (unique.filter _) distinct).mpr fun value => ?_
    constructor
    · intro member
      obtain ⟨doc, kept, rfl⟩ := List.mem_map.mp member
      exact of_decide_eq_true (List.mem_filter.mp kept).2
    · intro member
      obtain ⟨item, isListed, rfl⟩ := List.mem_map.mp member
      obtain ⟨doc, stored, same⟩ := List.mem_map.mp (found item isListed)
      refine List.mem_map.mpr ⟨doc, List.mem_filter.mpr ⟨stored, ?_⟩, same⟩
      exact decide_eq_true (same ▸ member)
  rw [matchedCount, List.countP_eq_length_filter]
  simpa using keys.length_eq

/-- When the property becomes true for the listed documents and for no others, and never
false, the count grows by the length of the list. -/
theorem matchedCount_map_of_listed {property : Doc → Bool} {fate : Doc → Doc}
    (unique : UniqueBy key docs) (distinct : UniqueBy key listed)
    (found : ∀ item ∈ listed, key item ∈ docs.map key)
    (each : ∀ doc ∈ docs, property (fate doc) = true ↔
      property doc = true ∨ key doc ∈ listed.map key)
    (apart : ∀ doc ∈ docs, key doc ∈ listed.map key → property doc = false) :
    matchedCount property (docs.map fate) = matchedCount property docs + listed.length := by
  classical
  rw [← matchedCount_listed unique distinct found, matchedCount, List.countP_map]
  refine matchedCount_or (fun doc member => ?_) fun doc member isListed => ?_
  · rw [Function.comp_apply, Bool.eq_iff_iff, each doc member]
    simp
  · exact apart doc member (of_decide_eq_true isListed)

/-- When the listed documents lose the property, which all of them had, and the others keep
what they have, the count drops by the length of the list. -/
theorem matchedCount_map_of_cleared {property : Doc → Bool} {fate : Doc → Doc}
    (unique : UniqueBy key docs) (distinct : UniqueBy key listed)
    (found : ∀ item ∈ listed, key item ∈ docs.map key)
    (cleared : ∀ doc ∈ docs, key doc ∈ listed.map key →
      property doc = true ∧ property (fate doc) = false)
    (kept : ∀ doc ∈ docs, key doc ∉ listed.map key → property (fate doc) = property doc) :
    matchedCount property (docs.map fate) + listed.length = matchedCount property docs := by
  classical
  rw [← matchedCount_listed unique distinct found, matchedCount, List.countP_map]
  refine (matchedCount_or (fun doc member => ?_) fun doc member isListed => ?_).symm
  · by_cases isListed : key doc ∈ listed.map key
    · simp [(cleared doc member isListed).1, isListed]
    · simp [kept doc member isListed, isListed]
  · exact (cleared doc member (of_decide_eq_true isListed)).2

end ObjectProcessor.Library
