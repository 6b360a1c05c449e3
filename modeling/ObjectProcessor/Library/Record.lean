import Mathlib.Data.List.Nodup
import Mathlib.Data.List.Perm.Basic
import Mathlib.Data.List.Induction

/-!
# Insertion-ordered records

Assigning to a record overwrites the value of a key that is present, at its old
place, and appends a key that is not.  After a sequence of assignments the
record holds the last value assigned to each key: the assignments that survive.
-/

namespace ObjectProcessor.Library

variable {Key Value : Type*} [DecidableEq Key]

/-- Assign a value to a key. -/
def assign : List (Key × Value) → Key → Value → List (Key × Value)
  | [], key, value => [(key, value)]
  | entry :: rest, key, value =>
      if entry.1 = key then (key, value) :: rest else entry :: assign rest key value

/-- Perform assignments in order, starting from the empty record. -/
def assignAll (assignments : List (Key × Value)) : List (Key × Value) :=
  assignments.foldl (fun record entry => assign record entry.1 entry.2) []

/-- The assignments whose key is not assigned again later. -/
def survivors : List (Key × Value) → List (Key × Value)
  | [] => []
  | entry :: rest =>
      if entry.1 ∈ rest.map Prod.fst then survivors rest else entry :: survivors rest

@[simp]
theorem assignAll_nil : assignAll ([] : List (Key × Value)) = [] := rfl

theorem assignAll_snoc (assignments : List (Key × Value)) (entry : Key × Value) :
    assignAll (assignments ++ [entry]) = assign (assignAll assignments) entry.1 entry.2 := by
  simp [assignAll, List.foldl_append]

theorem assign_of_not_mem {record : List (Key × Value)} {key : Key} (value : Value)
    (absent : key ∉ record.map Prod.fst) : assign record key value = record ++ [(key, value)] := by
  induction record with
  | nil => rfl
  | cons entry rest ih =>
      simp only [List.map_cons, List.mem_cons, not_or] at absent
      rw [assign, if_neg (Ne.symm absent.1), ih absent.2, List.cons_append]

/-- Assigning never reorders the keys that are present. -/
theorem map_fst_assign (record : List (Key × Value)) (key : Key) (value : Value) :
    (assign record key value).map Prod.fst =
      if key ∈ record.map Prod.fst then record.map Prod.fst
      else record.map Prod.fst ++ [key] := by
  induction record with
  | nil => simp [assign]
  | cons entry rest ih =>
      by_cases same : entry.1 = key
      · simp [assign, same]
      · have other : key ≠ entry.1 := Ne.symm same
        simp only [assign, if_neg same, List.map_cons, ih, List.mem_cons, other, false_or]
        split <;> simp

theorem nodup_keys_assign {record : List (Key × Value)}
    (distinct : (record.map Prod.fst).Nodup) (key : Key) (value : Value) :
    ((assign record key value).map Prod.fst).Nodup := by
  rw [map_fst_assign]
  split
  · exact distinct
  · rename_i absent
    refine List.Nodup.append distinct (List.nodup_singleton key) ?_
    intro other member single
    rw [List.mem_singleton.mp single] at member
    exact absent member

/-- The keys of a record are pairwise different. -/
theorem nodup_keys_assignAll (assignments : List (Key × Value)) :
    ((assignAll assignments).map Prod.fst).Nodup := by
  induction assignments using List.reverseRecOn with
  | nil => simp
  | append_singleton front entry ih =>
      rw [assignAll_snoc]
      exact nodup_keys_assign ih _ _

/-- Overwriting moves the old value out and the new one in. -/
theorem assign_perm {record : List (Key × Value)} (distinct : (record.map Prod.fst).Nodup)
    (key : Key) (value : Value) :
    (assign record key value).Perm
      (record.filter (fun entry => decide (entry.1 ≠ key)) ++ [(key, value)]) := by
  induction record with
  | nil => simp [assign]
  | cons entry rest ih =>
      simp only [List.map_cons, List.nodup_cons] at distinct
      by_cases same : entry.1 = key
      · have untouched : rest.filter (fun other => decide (other.1 ≠ key)) = rest := by
          apply List.filter_eq_self.mpr
          intro other member
          have apart : other.1 ≠ key := fun equal =>
            distinct.1 (same ▸ equal ▸ List.mem_map_of_mem member)
          simp [apart]
        rw [assign, if_pos same, List.filter_cons_of_neg (by simp [same]), untouched]
        exact (List.perm_append_singleton _ _).symm
      · rw [assign, if_neg same, List.filter_cons_of_pos (by simp [same]), List.cons_append]
        exact (ih distinct.2).cons entry

theorem survivors_snoc (assignments : List (Key × Value)) (last : Key × Value) :
    survivors (assignments ++ [last]) =
      (survivors assignments).filter (fun entry => decide (entry.1 ≠ last.1)) ++ [last] := by
  induction assignments with
  | nil => simp [survivors]
  | cons entry rest ih =>
      simp only [List.cons_append, survivors, List.map_append, List.map_cons, List.map_nil,
        List.mem_append, List.mem_singleton, ih]
      by_cases again : entry.1 ∈ rest.map Prod.fst
      · simp [again]
      · rw [if_neg again]
        by_cases overwritten : entry.1 = last.1
        · rw [if_pos (Or.inr overwritten), List.filter_cons_of_neg (by simp [overwritten])]
        · rw [if_neg (not_or.mpr ⟨again, overwritten⟩),
            List.filter_cons_of_pos (by simp [overwritten]), List.cons_append]

/-- After a sequence of assignments the record holds exactly the survivors. -/
theorem assignAll_perm_survivors (assignments : List (Key × Value)) :
    (assignAll assignments).Perm (survivors assignments) := by
  induction assignments using List.reverseRecOn with
  | nil => exact List.Perm.refl _
  | append_singleton front last ih =>
      rw [assignAll_snoc, survivors_snoc]
      exact (assign_perm (nodup_keys_assignAll front) last.1 last.2).trans
        ((ih.filter _).append_right [last])

theorem survivors_sublist (assignments : List (Key × Value)) :
    (survivors assignments).Sublist assignments := by
  induction assignments with
  | nil => exact List.Sublist.refl _
  | cons entry rest ih =>
      rw [survivors]
      split
      · exact ih.cons entry
      · exact ih.cons_cons entry

theorem countP_survivors_le (kept : Key × Value → Bool) (assignments : List (Key × Value)) :
    (survivors assignments).countP kept ≤ assignments.countP kept :=
  (survivors_sublist assignments).countP_le

/-- As many chosen entries survive as were assigned exactly when the key of no
chosen entry is assigned again. -/
theorem countP_survivors_eq_iff (kept : Key × Value → Bool) (assignments : List (Key × Value)) :
    (survivors assignments).countP kept = assignments.countP kept ↔
      assignments.Pairwise fun earlier later => kept earlier = true → later.1 ≠ earlier.1 := by
  induction assignments with
  | nil => simp [survivors]
  | cons entry rest ih =>
      have bound := countP_survivors_le kept rest
      rw [List.pairwise_cons, survivors, List.countP_cons, ← ih]
      by_cases again : entry.1 ∈ rest.map Prod.fst
      · obtain ⟨later, member, same⟩ := List.mem_map.mp again
        rw [if_pos again]
        constructor
        · intro equal
          have dropped : kept entry = false := by
            cases chosen : kept entry with
            | false => rfl
            | true => rw [if_pos chosen] at equal; omega
          exact ⟨fun _ _ chosen => by simp [dropped] at chosen, by simpa [dropped] using equal⟩
        · rintro ⟨apart, equal⟩
          have dropped : kept entry = false := by
            cases chosen : kept entry with
            | false => rfl
            | true => exact absurd same (apart later member chosen)
          simpa [dropped] using equal
      · rw [if_neg again, List.countP_cons]
        constructor
        · intro equal
          exact ⟨fun later member _ same => again (List.mem_map.mpr ⟨later, member, same⟩),
            by omega⟩
        · rintro ⟨_, equal⟩
          omega

/-- Assignments to pairwise different keys just list the record. -/
theorem assignAll_of_nodup {assignments : List (Key × Value)}
    (distinct : (assignments.map Prod.fst).Nodup) : assignAll assignments = assignments := by
  induction assignments using List.reverseRecOn with
  | nil => rfl
  | append_singleton front last ih =>
      rw [List.map_append, List.nodup_append] at distinct
      rw [assignAll_snoc, ih distinct.1]
      exact assign_of_not_mem _ fun member =>
        distinct.2.2 _ member last.1 (by simp) rfl

theorem lookup_cons_eq [BEq Key] [LawfulBEq Key] (entry : Key × Value)
    (rest : List (Key × Value)) (name : Key) :
    (entry :: rest).lookup name = if name = entry.1 then some entry.2 else rest.lookup name := by
  obtain ⟨key, value⟩ := entry
  by_cases same : name = key
  · simp [same]
  · simp [List.lookup_cons, same, beq_eq_false_iff_ne.mpr same]

theorem lookup_of_mem [BEq Key] [LawfulBEq Key] {record : List (Key × Value)}
    (distinct : (record.map Prod.fst).Nodup) {entry : Key × Value} (member : entry ∈ record) :
    record.lookup entry.1 = some entry.2 := by
  induction record with
  | nil => cases member
  | cons first rest ih =>
      simp only [List.map_cons, List.nodup_cons] at distinct
      rcases List.mem_cons.mp member with rfl | member
      · rw [lookup_cons_eq, if_pos rfl]
      · have apart : entry.1 ≠ first.1 := fun same =>
          distinct.1 (same ▸ List.mem_map_of_mem member)
        rw [lookup_cons_eq, if_neg apart, ih distinct.2 member]

/-- The keys of a record are listed by first assignment, whatever was assigned. -/
theorem map_fst_assignAll {Other : Type*} (assignments : List (Key × Value))
    (others : List (Key × Other)) (same : assignments.map Prod.fst = others.map Prod.fst) :
    (assignAll assignments).map Prod.fst = (assignAll others).map Prod.fst := by
  induction assignments using List.reverseRecOn generalizing others with
  | nil =>
      have empty : others = [] := by simpa using same.symm
      rw [empty]
      rfl
  | append_singleton front last ih =>
      induction others using List.reverseRecOn with
      | nil => simp at same
      | append_singleton otherFront otherLast _ =>
          simp only [List.map_append, List.map_cons, List.map_nil] at same
          obtain ⟨fronts, lasts⟩ := List.append_inj' same rfl
          rw [assignAll_snoc, assignAll_snoc, map_fst_assign, map_fst_assign, ih _ fronts,
            List.singleton_inj.mp lasts]

theorem lookup_assign [BEq Key] [LawfulBEq Key] (record : List (Key × Value)) (key name : Key)
    (value : Value) :
    (assign record key value).lookup name =
      if name = key then some value else record.lookup name := by
  induction record with
  | nil => rw [assign, lookup_cons_eq]
  | cons entry rest ih =>
      by_cases here : entry.1 = key
      · rw [assign, if_pos here, lookup_cons_eq, lookup_cons_eq, here]
        split <;> rfl
      · rw [assign, if_neg here, lookup_cons_eq, lookup_cons_eq, ih]
        by_cases same : name = key
        · have apart : name ≠ entry.1 := fun equal => here (equal.symm.trans same)
          rw [if_neg apart, if_pos same, if_pos same]
        · rw [if_neg same, if_neg same]

/-- A key holds the value of its last assignment. -/
theorem lookup_assignAll [BEq Key] [LawfulBEq Key] (assignments : List (Key × Value)) (name : Key) :
    (assignAll assignments).lookup name = assignments.reverse.lookup name := by
  induction assignments using List.reverseRecOn with
  | nil => rfl
  | append_singleton front last ih =>
      rw [assignAll_snoc, lookup_assign, List.reverse_append, ih, List.reverse_singleton,
        List.singleton_append, lookup_cons_eq]

/-- Reading a record key by key, in any order, reads its entries in that order. -/
theorem filterMap_lookup [BEq Key] [LawfulBEq Key] {Result : Type*}
    {record listing : List (Key × Value)}
    (distinct : (record.map Prod.fst).Nodup) (reordered : listing.Perm record)
    (read : Value → Option Result) :
    (listing.map Prod.fst).filterMap (fun key => (record.lookup key).bind read) =
      (listing.map Prod.snd).filterMap read := by
  have found : ∀ entry ∈ listing, record.lookup entry.1 = some entry.2 := by
    intro entry member
    exact lookup_of_mem distinct (reordered.mem_iff.mp member)
  rw [List.filterMap_map, List.filterMap_map]
  exact List.filterMap_congr fun entry member => by simp [found entry member]

/-- Leaving out other keys does not change what a key holds. -/
theorem lookup_filter [BEq Key] [LawfulBEq Key] (kept : Key → Bool) {name : Key}
    (keeps : kept name = true) (record : List (Key × Value)) :
    (record.filter fun entry => kept entry.1).lookup name = record.lookup name := by
  induction record with
  | nil => rfl
  | cons entry rest ih =>
      by_cases keepsEntry : kept entry.1
      · rw [List.filter_cons, if_pos keepsEntry, lookup_cons_eq, lookup_cons_eq, ih]
      · have apart : name ≠ entry.1 := fun same => keepsEntry (same ▸ keeps)
        rw [List.filter_cons, if_neg keepsEntry, lookup_cons_eq, if_neg apart, ih]

theorem lookup_eq_none [BEq Key] [LawfulBEq Key] {record : List (Key × Value)} {name : Key}
    (absent : ∀ entry ∈ record, entry.1 ≠ name) : record.lookup name = none := by
  induction record with
  | nil => rfl
  | cons entry rest ih =>
      rw [lookup_cons_eq, if_neg fun same => absent entry (List.mem_cons_self ..) same.symm]
      exact ih fun other member => absent other (List.mem_cons_of_mem _ member)

end ObjectProcessor.Library
