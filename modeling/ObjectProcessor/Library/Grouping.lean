import Mathlib.Data.List.Count

/-!
# Items that state the size of their group

Items are grouped by a key, and each states how many items its group has.  A batch
of one key keeps the statements true exactly when its group is new.
-/

namespace ObjectProcessor.Library

variable {Item Key : Type*} [DecidableEq Key]

/-- The number of items with the key. -/
def groupSize (key : Item → Key) (items : List Item) (group : Key) : Nat :=
  items.countP fun item => key item = group

/-- Every item states the size of its group. -/
def SizesStated (key : Item → Key) (stated : Item → Nat) (items : List Item) : Prop :=
  ∀ item ∈ items, stated item = groupSize key items (key item)

variable {key : Item → Key} {stated : Item → Nat} {items batch : List Item} {group : Key}

theorem groupSize_append (key : Item → Key) (items batch : List Item) (group : Key) :
    groupSize key (items ++ batch) group = groupSize key items group + groupSize key batch group :=
  List.countP_append

theorem groupSize_eq_zero (other : ∀ item ∈ items, key item ≠ group) :
    groupSize key items group = 0 :=
  List.countP_eq_zero.mpr fun item member => by simpa using other item member

theorem groupSize_eq_length (same : ∀ item ∈ items, key item = group) :
    groupSize key items group = items.length :=
  List.countP_eq_length.mpr fun item member => by simpa using same item member

/-- Items keep their statements under an update that leaves key and statement alone. -/
theorem SizesStated.map {update : Item → Item} (holds : SizesStated key stated items)
    (sameKey : ∀ item, key (update item) = key item)
    (sameSize : ∀ item, stated (update item) = stated item) :
    SizesStated key stated (items.map update) := by
  intro item member
  obtain ⟨before, found, rfl⟩ := List.mem_map.mp member
  have size : groupSize key (items.map update) (key before) = groupSize key items (key before) := by
    rw [groupSize, List.countP_map, groupSize]
    exact List.countP_congr fun other _ => by simp [sameKey]
  rw [sameSize, sameKey, size]
  exact holds before found

/-- A batch that states its own length keeps all statements true exactly when none of the
items has its key. -/
theorem sizesStated_append_iff (holds : SizesStated key stated items) (nonempty : batch ≠ [])
    (keys : ∀ item ∈ batch, key item = group)
    (sizes : ∀ item ∈ batch, stated item = batch.length) :
    SizesStated key stated (items ++ batch) ↔ ∀ item ∈ items, key item ≠ group := by
  constructor
  · intro all item member same
    obtain ⟨first, inBatch⟩ := List.exists_mem_of_ne_nil batch nonempty
    have size := all first (List.mem_append_right _ inBatch)
    rw [groupSize_append, keys first inBatch, sizes first inBatch, groupSize_eq_length keys] at size
    have positive : 0 < groupSize key items group :=
      List.countP_pos_iff.mpr ⟨item, member, by simpa using same⟩
    omega
  · intro new item member
    rw [groupSize_append]
    rcases List.mem_append.mp member with old | inBatch
    · have apart : ∀ other ∈ batch, key other ≠ key item := fun other listed same =>
        new item old (same.symm.trans (keys other listed))
      rw [groupSize_eq_zero apart, Nat.add_zero]
      exact holds item old
    · rw [keys item inBatch, groupSize_eq_zero new, groupSize_eq_length keys, Nat.zero_add]
      exact sizes item inBatch

end ObjectProcessor.Library
