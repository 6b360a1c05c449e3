import Mathlib.Data.List.Nodup

/-!
# Document collections

A collection is the list of its documents in insertion order.  `updateMany`
rewrites the matching documents in place, so a field no update touches keeps
its values, and a field with pairwise different values identifies documents.
-/

namespace ObjectProcessor.Library

variable {Doc Key : Type*}

/-- Rewrite every document that matches the filter. -/
def updateMany (filter : Doc → Bool) (update : Doc → Doc) (docs : List Doc) : List Doc :=
  docs.map fun doc => if filter doc then update doc else doc

/-- The number of documents an update with this filter matches. -/
def matchedCount (filter : Doc → Bool) (docs : List Doc) : Nat :=
  docs.countP filter

/-- No two documents carry the same value of the indexed field. -/
def UniqueBy (key : Doc → Key) (docs : List Doc) : Prop := (docs.map key).Nodup

instance [DecidableEq Key] (key : Doc → Key) (docs : List Doc) :
    Decidable (UniqueBy key docs) :=
  inferInstanceAs (Decidable (docs.map key).Nodup)

theorem mem_updateMany {filter : Doc → Bool} {update : Doc → Doc} {docs : List Doc}
    {doc : Doc} : doc ∈ updateMany filter update docs ↔
      ∃ before ∈ docs, (if filter before then update before else before) = doc :=
  List.mem_map

/-- A document outside the filter is still there after the update. -/
theorem mem_updateMany_of_unmatched {filter : Doc → Bool} {update : Doc → Doc}
    {docs : List Doc} {doc : Doc} (member : doc ∈ docs) (unmatched : filter doc = false) :
    doc ∈ updateMany filter update docs :=
  mem_updateMany.mpr ⟨doc, member, by simp [unmatched]⟩

/-- A matching document is replaced by its update. -/
theorem mem_updateMany_of_matched {filter : Doc → Bool} {update : Doc → Doc}
    {docs : List Doc} {doc : Doc} (member : doc ∈ docs) (matched : filter doc = true) :
    update doc ∈ updateMany filter update docs :=
  mem_updateMany.mpr ⟨doc, member, by simp [matched]⟩

/-- A field the update leaves alone has the same values before and after. -/
theorem map_updateMany (key : Doc → Key) {filter : Doc → Bool} {update : Doc → Doc}
    (kept : ∀ doc, key (update doc) = key doc) (docs : List Doc) :
    (updateMany filter update docs).map key = docs.map key := by
  rw [updateMany, List.map_map]
  apply List.map_congr_left
  intro doc _
  by_cases matched : filter doc <;> simp [matched, kept]

theorem updateMany_of_unmatched {filter : Doc → Bool} {update : Doc → Doc}
    {docs : List Doc} (unmatched : ∀ doc ∈ docs, filter doc = false) :
    updateMany filter update docs = docs := by
  rw [updateMany]
  conv_rhs => rw [← List.map_id docs]
  exact List.map_congr_left fun doc member => by simp [unmatched doc member]

/-- Replacing one document leaves every other one in place. -/
theorem mem_set_iff {docs : List Doc} {index : Nat} {old new doc : Doc}
    (found : docs[index]? = some old) (other : doc ≠ old) :
    doc ∈ docs.set index new ↔ doc = new ∨ doc ∈ docs := by
  constructor
  · exact fun member => (List.mem_or_eq_of_mem_set member).symm
  · rintro (rfl | member)
    · exact List.mem_set (List.getElem?_eq_some_iff.mp found).1 _
    · obtain ⟨place, isDoc⟩ := List.getElem?_of_mem member
      have apart : index ≠ place := fun same => by
        rw [same, isDoc] at found
        exact other (Option.some.inj found)
      exact List.mem_of_getElem? (by rwa [List.getElem?_set_ne apart])

/-- An update after which a document it picked no longer matches lowers the
number of matching documents. -/
theorem matchedCount_updateMany_lt {filter picked : Doc → Bool} {update : Doc → Doc}
    (spent : ∀ doc, picked doc = true → filter (update doc) = false) {docs : List Doc}
    {doc : Doc} (member : doc ∈ docs) (isPicked : picked doc = true)
    (matched : filter doc = true) :
    matchedCount filter (updateMany picked update docs) < matchedCount filter docs := by
  have kept : ∀ others : List Doc,
      matchedCount filter (updateMany picked update others) ≤ matchedCount filter others := by
    intro others
    rw [matchedCount, updateMany, List.countP_map]
    refine List.countP_mono_left fun other _ matches' => ?_
    cases chosen : picked other with
    | false => simpa [chosen] using matches'
    | true => simp [chosen, spent other chosen] at matches'
  obtain ⟨front, back, rfl⟩ := List.append_of_mem member
  have before := kept front
  have after := kept back
  simp only [matchedCount, updateMany, List.map_append, List.map_cons, List.countP_append,
    List.countP_cons, isPicked, ↓reduceIte, spent doc isPicked, matched] at before after ⊢
  simp only [Bool.false_eq_true, ↓reduceIte]
  omega

/-- A search finds the only document that satisfies it. -/
theorem find?_eq_some_of_unique {filter : Doc → Bool} {docs : List Doc} {doc : Doc}
    (member : doc ∈ docs) (matched : filter doc = true)
    (only : ∀ other ∈ docs, filter other = true → other = doc) : docs.find? filter = some doc := by
  cases found : docs.find? filter with
  | none => exact absurd matched (List.find?_eq_none.mp found doc member)
  | some other =>
      rw [only other (List.mem_of_find?_eq_some found) (List.find?_some found)]

namespace UniqueBy

variable {key : Doc → Key} {docs : List Doc}

/-- Documents with the same key are the same document. -/
theorem eq_of_key (unique : UniqueBy key docs) {left right : Doc} (leftMem : left ∈ docs)
    (rightMem : right ∈ docs) (same : key left = key right) : left = right :=
  List.inj_on_of_nodup_map unique leftMem rightMem same

theorem updateMany (unique : UniqueBy key docs) {filter : Doc → Bool}
    {update : Doc → Doc} (kept : ∀ doc, key (update doc) = key doc) :
    UniqueBy key (Library.updateMany filter update docs) := by
  rw [UniqueBy, map_updateMany key kept]
  exact unique

/-- Documents whose keys are new and pairwise different may be inserted. -/
theorem append (unique : UniqueBy key docs) {inserted : List Doc}
    (distinct : UniqueBy key inserted)
    (fresh : ∀ doc ∈ inserted, ∀ old ∈ docs, key old ≠ key doc) :
    UniqueBy key (docs ++ inserted) := by
  rw [UniqueBy, List.map_append]
  refine List.Nodup.append unique distinct ?_
  intro value old new
  obtain ⟨left, leftMem, rfl⟩ := List.mem_map.mp old
  obtain ⟨right, rightMem, same⟩ := List.mem_map.mp new
  exact fresh right rightMem left leftMem same.symm

theorem filter (unique : UniqueBy key docs) (kept : Doc → Bool) :
    UniqueBy key (docs.filter kept) :=
  unique.sublist (List.Sublist.map key List.filter_sublist)

/-- Lists of the same documents, told apart by their keys, are equally long. -/
theorem length_eq {others : List Doc} (unique : UniqueBy key docs)
    (othersUnique : UniqueBy key others) (same : ∀ doc, doc ∈ docs ↔ doc ∈ others) :
    docs.length = others.length := by
  have perm := (List.perm_ext_iff_of_nodup (List.Nodup.of_map key unique)
    (List.Nodup.of_map key othersUnique)).mpr same
  exact perm.length_eq

/-- A filter that pins the unique key matches at most one document. -/
theorem matchedCount_le_one (unique : UniqueBy key docs) {filter : Doc → Bool} {value : Key}
    (pinned : ∀ doc, filter doc = true → key doc = value) :
    matchedCount filter docs ≤ 1 := by
  rw [matchedCount, List.countP_eq_length_filter]
  have distinct : UniqueBy key (docs.filter filter) := unique.filter filter
  match found : docs.filter filter with
  | [] => simp
  | [_] => simp
  | left :: right :: rest =>
      rw [found] at distinct
      have leftKey := pinned left (List.mem_filter.mp (found ▸ List.mem_cons_self ..)).2
      have rightKey := pinned right
        (List.mem_filter.mp (found ▸ List.mem_cons_of_mem _ (List.mem_cons_self ..))).2
      simp [UniqueBy, leftKey, rightKey] at distinct

/-- A filter that pins the unique key matches one document exactly when it
matches some document. -/
theorem matchedCount_eq_one_iff (unique : UniqueBy key docs) {filter : Doc → Bool}
    {value : Key} (pinned : ∀ doc, filter doc = true → key doc = value) :
    matchedCount filter docs = 1 ↔ ∃ doc ∈ docs, filter doc = true := by
  have atMost := unique.matchedCount_le_one pinned
  have positive : 0 < matchedCount filter docs ↔ ∃ doc ∈ docs, filter doc = true :=
    List.countP_pos_iff
  rw [← positive]
  omega

end UniqueBy

end ObjectProcessor.Library
