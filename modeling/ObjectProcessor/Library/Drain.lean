import Mathlib.Data.List.MinMax
import ObjectProcessor.Library.Collection

/-!
# Taking the least documents one at a time

A loop asks for one least matching document at a time and updates it, until none
matches or its limit is reached.  An update that takes the document out of the
filter lets the loop take different documents, the least of all.
-/

namespace ObjectProcessor.Library

variable {Doc Key Rank : Type*}

/-- A search for a matching document of least rank.  Which of several it finds is open. -/
structure LeastPick [LE Rank] (rank : Doc → Rank) where
  find : (Doc → Bool) → List Doc → Option Doc
  member : ∀ {filter docs doc}, find filter docs = some doc → doc ∈ docs
  matched : ∀ {filter docs doc}, find filter docs = some doc → filter doc = true
  least : ∀ {filter docs doc}, find filter docs = some doc →
    ∀ other ∈ docs, filter other = true → rank doc ≤ rank other
  exhausted : ∀ {filter docs}, find filter docs = none → ∀ doc ∈ docs, filter doc = false

/-- The search that finds the first of the least documents. -/
def LeastPick.first [LinearOrder Rank] (rank : Doc → Rank) : LeastPick rank where
  find filter docs := (docs.filter filter).argmin rank
  member found := (List.mem_filter.mp (List.argmin_mem found)).1
  matched found := (List.mem_filter.mp (List.argmin_mem found)).2
  least found other member isMatch :=
    List.le_of_mem_argmin (List.mem_filter.mpr ⟨member, isMatch⟩) found
  exhausted found doc member := by
    rw [List.argmin_eq_none, List.filter_eq_nil_iff] at found
    simpa using found doc member

section Drain

variable [LE Rank] {rank : Doc → Rank} [DecidableEq Key] (picks : Nat → LeastPick rank)
  (key : Doc → Key) (filter : Doc → Bool) (update : Doc → Doc)

/-- The documents a loop takes, as they were before their updates, and what it leaves.
Every turn has a search of its own. -/
def drain : Nat → Nat → List Doc → List Doc × List Doc
  | 0, _, docs => ([], docs)
  | limit + 1, turn, docs =>
      match (picks turn).find filter docs with
      | none => ([], docs)
      | some doc =>
          let others := drain limit (turn + 1)
            (updateMany (fun other => decide (key other = key doc)) update docs)
          (doc :: others.1, others.2)

/-- What a loop has taken and left. -/
structure Drained (rank : Doc → Rank) (key : Doc → Key) (filter : Doc → Bool)
    (update : Doc → Doc) (limit : Nat) (docs taken after : List Doc) : Prop where
  count : taken.length = min limit (matchedCount filter docs)
  distinct : UniqueBy key taken
  matched : ∀ doc ∈ taken, doc ∈ docs ∧ filter doc = true
  sorted : taken.Pairwise fun earlier later => rank earlier ≤ rank later
  least : ∀ doc ∈ taken, ∀ other ∈ docs, filter other = true → key other ∉ taken.map key →
    rank doc ≤ rank other
  after_eq : after = updateMany (fun doc => decide (key doc ∈ taken.map key)) update docs

variable {picks key filter update}

/-- What matches after the update of one document matched before, and is another one. -/
theorem mem_updateMany_matched
    (spent : ∀ doc, filter doc = true → filter (update doc) = false) {docs : List Doc}
    (unique : UniqueBy key docs) {doc : Doc} (member : doc ∈ docs) (matched : filter doc = true)
    {other : Doc} : (other ∈ updateMany (fun other => decide (key other = key doc)) update docs ∧
        filter other = true) ↔
      (other ∈ docs ∧ filter other = true) ∧ key other ≠ key doc := by
  constructor
  · rintro ⟨after, isMatch⟩
    obtain ⟨before, stored, rfl⟩ := mem_updateMany.mp after
    by_cases same : key before = key doc
    · obtain rfl := unique.eq_of_key stored member same
      simp [spent before matched] at isMatch
    · simp only [same, decide_false, Bool.false_eq_true, ↓reduceIte] at isMatch ⊢
      exact ⟨⟨stored, isMatch⟩, same⟩
  · rintro ⟨⟨stored, isMatch⟩, differ⟩
    exact ⟨mem_updateMany_of_unmatched stored (by simpa using differ), isMatch⟩

/-- The update of one matching document leaves one less. -/
theorem matchedCount_updateMany_key
    (spent : ∀ doc, filter doc = true → filter (update doc) = false) {docs : List Doc}
    (unique : UniqueBy key docs) {doc : Doc} (member : doc ∈ docs)
    (matched : filter doc = true) :
    matchedCount filter docs = matchedCount filter
      (updateMany (fun other => decide (key other = key doc)) update docs) + 1 := by
  have apart {others : List Doc} (absent : key doc ∉ others.map key) :
      updateMany (fun other => decide (key other = key doc)) update others = others := by
    refine updateMany_of_unmatched fun other isOther => ?_
    simp only [decide_eq_false_iff_not]
    exact fun same => absent (same ▸ List.mem_map_of_mem isOther)
  obtain ⟨front, back, rfl⟩ := List.append_of_mem member
  rw [UniqueBy, List.map_append, List.map_cons, List.nodup_middle, List.nodup_cons,
    List.mem_append, not_or] at unique
  have split : updateMany (fun other => decide (key other = key doc)) update
      (front ++ doc :: back) = front ++ update doc :: back := by
    have parts : updateMany (fun other => decide (key other = key doc)) update
        (front ++ doc :: back) =
          updateMany (fun other => decide (key other = key doc)) update front ++
            update doc :: updateMany (fun other => decide (key other = key doc)) update back := by
      simp [updateMany]
    rw [parts, apart unique.1.1, apart unique.1.2]
  rw [split]
  simp only [matchedCount, List.countP_append, List.countP_cons, matched, spent doc matched,
    ↓reduceIte, Bool.false_eq_true]
  omega

/-- A turn that takes a least document, followed by turns that take what is left. -/
theorem Drained.cons (kept : ∀ doc, key (update doc) = key doc)
    (spent : ∀ doc, filter doc = true → filter (update doc) = false) {limit : Nat}
    {docs taken after : List Doc} (unique : UniqueBy key docs) {doc : Doc} (member : doc ∈ docs)
    (matched : filter doc = true)
    (least : ∀ other ∈ docs, filter other = true → rank doc ≤ rank other)
    (others : Drained rank key filter update limit
      (updateMany (fun other => decide (key other = key doc)) update docs) taken after) :
    Drained rank key filter update (limit + 1) docs (doc :: taken) after := by
  have remaining (other : Doc) :
      (other ∈ updateMany (fun other => decide (key other = key doc)) update docs ∧
          filter other = true) ↔
        (other ∈ docs ∧ filter other = true) ∧ key other ≠ key doc :=
    mem_updateMany_matched spent unique member matched
  have apart : key doc ∉ taken.map key := by
    intro again
    obtain ⟨other, isTaken, same⟩ := List.mem_map.mp again
    exact ((remaining other).mp (others.matched other isTaken)).2 same
  constructor
  case count =>
    rw [List.length_cons, others.count, matchedCount_updateMany_key spent unique member matched,
      Nat.add_min_add_right]
  case distinct => exact List.nodup_cons.mpr ⟨apart, others.distinct⟩
  case matched =>
    refine List.forall_mem_cons.mpr ⟨⟨member, matched⟩, fun other isTaken => ?_⟩
    exact ((remaining other).mp (others.matched other isTaken)).1
  case sorted =>
    refine List.pairwise_cons.mpr ⟨fun other isTaken => ?_, others.sorted⟩
    have left := ((remaining other).mp (others.matched other isTaken)).1
    exact least other left.1 left.2
  case least =>
    intro first isTaken other stored isMatch absent
    rw [List.map_cons, List.mem_cons, not_or] at absent
    rcases List.mem_cons.mp isTaken with rfl | later
    · exact least other stored isMatch
    · have left := (remaining other).mpr ⟨⟨stored, isMatch⟩, absent.1⟩
      exact others.least first later other left.1 left.2 absent.2
  case after_eq =>
    rw [others.after_eq, updateMany, updateMany, List.map_map]
    refine List.map_congr_left fun other _ => ?_
    by_cases same : key other = key doc
    · -- The document taken now is not taken again.
      simp only [Function.comp_apply, same, kept, apart, decide_true, decide_false, ↓reduceIte,
        Bool.false_eq_true, List.map_cons, List.mem_cons, true_or]
    · simp only [Function.comp_apply, same, decide_false, ↓reduceIte, Bool.false_eq_true,
        List.map_cons, List.mem_cons, false_or]

variable (picks key filter update)

/-- The loop takes as many documents as it may, the least first. -/
theorem drain_spec (kept : ∀ doc, key (update doc) = key doc)
    (spent : ∀ doc, filter doc = true → filter (update doc) = false) (limit turn : Nat)
    {docs : List Doc} (unique : UniqueBy key docs) :
    Drained rank key filter update limit docs (drain picks key filter update limit turn docs).1
      (drain picks key filter update limit turn docs).2 := by
  have nothing {limit : Nat} {docs : List Doc}
      (count : 0 = min limit (matchedCount filter docs)) :
      Drained rank key filter update limit docs [] docs := by
    have untouched : updateMany (fun _ => false) update docs = docs :=
      updateMany_of_unmatched fun _ _ => rfl
    exact ⟨count, List.nodup_nil, by simp, .nil, by simp, by simp [untouched]⟩
  induction limit generalizing turn docs with
  | zero => exact nothing (by simp)
  | succ limit ih =>
      rw [drain]
      cases found : (picks turn).find filter docs with
      | none =>
          have none : matchedCount filter docs = 0 := by
            refine List.countP_eq_zero.mpr fun doc member => ?_
            simp [(picks turn).exhausted found doc member]
          exact nothing (by simp [none])
      | some doc =>
          exact (ih (turn + 1) (unique.updateMany kept)).cons kept spent unique
            ((picks turn).member found) ((picks turn).matched found) ((picks turn).least found)

end Drain

end ObjectProcessor.Library
