import ObjectProcessor.Library.Record

/-!
# Dispatch tables

A table built from a list of documents enters each of them under all of its keys.
Of two documents with a common key the later one takes it, so a key leads to the
last document that has it.
-/

namespace ObjectProcessor.Library

variable {Key Doc : Type*} [DecidableEq Key]

theorem mem_map_fst_assignAll {assignments : List (Key × Doc)} {key : Key} :
    key ∈ (assignAll assignments).map Prod.fst ↔ key ∈ assignments.map Prod.fst := by
  induction assignments using List.reverseRecOn with
  | nil => rfl
  | append_singleton front last ih =>
      rw [assignAll_snoc, map_fst_assign, List.map_append, List.mem_append, ← ih]
      split
      · rename_i present
        simp only [List.map_cons, List.map_nil, List.mem_singleton]
        exact ⟨Or.inl, fun either => either.elim id fun same => same ▸ present⟩
      · exact List.mem_append

/-- Enter every document under its keys, in order. -/
def dispatchTable (keys : Doc → List Key) (docs : List Doc) : List (Key × Doc) :=
  assignAll (docs.flatMap fun doc => (keys doc).map fun key => (key, doc))

section Table

variable {keys : Doc → List Key} {docs : List Doc} {key : Key} {doc : Doc}

theorem mem_keys_dispatchTable :
    key ∈ (dispatchTable keys docs).map Prod.fst ↔ ∃ doc ∈ docs, key ∈ keys doc := by
  rw [dispatchTable, mem_map_fst_assignAll]
  constructor
  · intro member
    obtain ⟨entry, entered, rfl⟩ := List.mem_map.mp member
    obtain ⟨doc, listed, isEntry⟩ := List.mem_flatMap.mp entered
    obtain ⟨key, isKey, rfl⟩ := List.mem_map.mp isEntry
    exact ⟨doc, listed, isKey⟩
  · rintro ⟨doc, listed, isKey⟩
    exact List.mem_map.mpr ⟨(key, doc), List.mem_flatMap.mpr
      ⟨doc, listed, List.mem_map.mpr ⟨key, isKey, rfl⟩⟩, rfl⟩

variable [BEq Key] [LawfulBEq Key]

/-- Among the entries of one document every key leads to it. -/
theorem lookup_entries_of_doc (entered : List Key) (doc : Doc) (key : Key) :
    (entered.map fun own => (own, doc)).reverse.lookup key =
      if key ∈ entered then some doc else none := by
  rw [← List.map_reverse]
  have any : key ∈ entered ↔ key ∈ entered.reverse := List.mem_reverse.symm
  rw [if_congr any rfl rfl]
  induction entered.reverse with
  | nil => rfl
  | cons own rest ih =>
      rw [List.map_cons, lookup_cons_eq, ih]
      by_cases same : key = own
      · simp [same]
      · simp [same]

theorem lookup_dispatchTable :
    (dispatchTable keys docs).lookup key =
      docs.reverse.find? fun doc => decide (key ∈ keys doc) := by
  rw [dispatchTable, lookup_assignAll]
  induction docs using List.reverseRecOn with
  | nil => rfl
  | append_singleton front last ih =>
      rw [List.flatMap_append, List.reverse_append, List.lookup_append, ih,
        List.flatMap_singleton, lookup_entries_of_doc, List.reverse_append,
        List.reverse_singleton, List.singleton_append, List.find?_cons]
      by_cases isKey : key ∈ keys last
      · simp [isKey]
      · simp [isKey]

/-- A key leads to the last document that has it. -/
theorem lookup_dispatchTable_eq_some :
    (dispatchTable keys docs).lookup key = some doc ↔
      key ∈ keys doc ∧ ∃ front later, docs = front ++ doc :: later ∧
        ∀ other ∈ later, key ∉ keys other := by
  rw [lookup_dispatchTable, List.find?_eq_some_iff_append, decide_eq_true_iff]
  refine and_congr_right fun _ => ⟨?_, ?_⟩
  · rintro ⟨later, front, split, none_later⟩
    refine ⟨front.reverse, later.reverse, ?_, fun other member => ?_⟩
    · rw [← List.reverse_reverse docs, split]
      simp
    · simpa using none_later other (List.mem_reverse.mp member)
  · rintro ⟨front, later, rfl, none_later⟩
    refine ⟨later.reverse, front.reverse, by simp, fun other member => ?_⟩
    simpa using none_later other (List.mem_reverse.mp member)

/-- Without common keys the order of the documents does not matter. -/
theorem lookup_dispatchTable_of_disjoint
    (disjoint : docs.Pairwise fun left right => ∀ key ∈ keys left, key ∉ keys right) :
    (dispatchTable keys docs).lookup key = some doc ↔ doc ∈ docs ∧ key ∈ keys doc := by
  rw [lookup_dispatchTable_eq_some]
  constructor
  · rintro ⟨isKey, front, later, rfl, _⟩
    exact ⟨by simp, isKey⟩
  · rintro ⟨member, isKey⟩
    obtain ⟨front, later, rfl⟩ := List.append_of_mem member
    have after := (List.pairwise_cons.mp (List.pairwise_append.mp disjoint).2.1).1
    exact ⟨isKey, front, later, rfl, fun other isLater => after other isLater key isKey⟩

end Table

end ObjectProcessor.Library
