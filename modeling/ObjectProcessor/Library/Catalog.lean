import ObjectProcessor.Library.Collection

/-!
# Catalogs of named definitions

A catalog has at most one definition of every name.  To ensure a definition is to add
it when its name is free; a definition that is there already is left, and a different one
of the same name is a conflict.
-/

namespace ObjectProcessor.Library

variable {Def Name : Type*}

structure Catalog (name : Def → Name) where
  defs : List Def
  unique : UniqueBy name defs

namespace Catalog

variable {name : Def → Name}

def empty : Catalog name where
  defs := []
  unique := List.nodup_nil

variable [DecidableEq Name]

/-- The definition of a name. -/
def lookup (catalog : Catalog name) (called : Name) : Option Def :=
  catalog.defs.find? fun definition => decide (name definition = called)

def drop (catalog : Catalog name) (called : Name) : Catalog name where
  defs := catalog.defs.filter fun definition => decide (name definition ≠ called)
  unique := catalog.unique.filter _

/-- The definition of a name changed into another one of that name. -/
def alter (catalog : Catalog name) (called : Name) (change : Def → Def)
    (kept : ∀ definition, name (change definition) = name definition) : Catalog name where
  defs := updateMany (fun definition => decide (name definition = called)) change catalog.defs
  unique := catalog.unique.updateMany kept

def add (catalog : Catalog name) (wanted : Def) (free : catalog.lookup (name wanted) = none) :
    Catalog name where
  defs := catalog.defs ++ [wanted]
  unique := catalog.unique.append (List.nodup_singleton _) (by simpa [lookup] using free)

theorem lookup_eq_some_iff {catalog : Catalog name} {called : Name} {definition : Def} :
    catalog.lookup called = some definition ↔
      definition ∈ catalog.defs ∧ name definition = called := by
  constructor
  · intro found
    have sameName := List.find?_some found
    exact ⟨List.mem_of_find?_eq_some found, of_decide_eq_true sameName⟩
  · rintro ⟨member, rfl⟩
    refine find?_eq_some_of_unique member (decide_eq_true rfl) fun other stored sameName => ?_
    exact catalog.unique.eq_of_key stored member (of_decide_eq_true sameName)

@[simp] theorem lookup_empty (called : Name) : (empty : Catalog name).lookup called = none :=
  rfl

theorem lookup_drop (catalog : Catalog name) (called other : Name) :
    (catalog.drop called).lookup other = if other = called then none else catalog.lookup other := by
  ext definition
  rw [lookup_eq_some_iff, drop, List.mem_filter]
  by_cases same : other = called
  · subst same
    simp
  · rw [if_neg same, lookup_eq_some_iff]
    constructor
    · rintro ⟨⟨member, -⟩, sameName⟩
      exact ⟨member, sameName⟩
    · rintro ⟨member, rfl⟩
      exact ⟨⟨member, decide_eq_true same⟩, rfl⟩

theorem lookup_alter (catalog : Catalog name) (called : Name) {change : Def → Def}
    (kept : ∀ definition, name (change definition) = name definition) (other : Name) :
    (catalog.alter called change kept).lookup other =
      if other = called then (catalog.lookup other).map change else catalog.lookup other := by
  ext definition
  rw [lookup_eq_some_iff, alter, mem_updateMany]
  by_cases same : other = called
  · subst same
    rw [if_pos rfl, Option.map_eq_some_iff]
    constructor
    · rintro ⟨⟨before, member, rfl⟩, sameName⟩
      by_cases altered : name before = other
      · exact ⟨before, lookup_eq_some_iff.mpr ⟨member, altered⟩, by simp [altered]⟩
      · simp [altered] at sameName
    · rintro ⟨before, found, rfl⟩
      obtain ⟨member, sameName⟩ := lookup_eq_some_iff.mp found
      exact ⟨⟨before, member, by simp [sameName]⟩, (kept before).trans sameName⟩
  · rw [if_neg same, lookup_eq_some_iff]
    constructor
    · rintro ⟨⟨before, member, rfl⟩, sameName⟩
      by_cases altered : name before = called
      · exact absurd (by simpa [altered, kept] using sameName.symm) same
      · simp only [altered, decide_false, Bool.false_eq_true, ↓reduceIte] at sameName ⊢
        exact ⟨member, sameName⟩
    · rintro ⟨member, rfl⟩
      exact ⟨⟨definition, member, by simp [same]⟩, rfl⟩

theorem lookup_add (catalog : Catalog name) {wanted : Def}
    (free : catalog.lookup (name wanted) = none) (called : Name) :
    (catalog.add wanted free).lookup called =
      if called = name wanted then some wanted else catalog.lookup called := by
  have appended : (catalog.add wanted free).lookup called =
      (catalog.lookup called).or ([wanted].find? fun other => decide (name other = called)) :=
    List.find?_append
  rw [appended]
  by_cases same : called = name wanted
  · subst same
    simp [free]
  · simp [same, Ne.symm same]

section Ensure

variable [DecidableEq Def]

def ensure (catalog : Catalog name) (wanted : Def) : Option (Catalog name) :=
  match found : catalog.lookup (name wanted) with
  | none => some (catalog.add wanted found)
  | some definition => if definition = wanted then some catalog else none

/-- All of the definitions ensured, or none of them. -/
def ensureAll (catalog : Catalog name) : List Def → Option (Catalog name)
  | [] => some catalog
  | wanted :: rest => (catalog.ensure wanted).bind fun after => after.ensureAll rest

/-- No other definition has the name of a wanted one. -/
def Agrees (catalog : Catalog name) (wanted : List Def) : Prop :=
  ∀ definition ∈ wanted, ∀ found, catalog.lookup (name definition) = some found →
    found = definition

theorem ensure_of_present {catalog : Catalog name} {wanted : Def}
    (present : catalog.lookup (name wanted) = some wanted) :
    catalog.ensure wanted = some catalog := by
  rw [ensure]
  split
  · next absent => exact absurd (present.symm.trans absent) (by simp)
  · next definition found => rw [if_pos (Option.some.inj (found.symm.trans present))]

theorem ensureAll_of_present {catalog : Catalog name} {wanted : List Def}
    (present : ∀ definition ∈ wanted, catalog.lookup (name definition) = some definition) :
    catalog.ensureAll wanted = some catalog := by
  induction wanted with
  | nil => rfl
  | cons definition rest ih =>
      rw [List.forall_mem_cons] at present
      rw [ensureAll, ensure_of_present present.1]
      exact ih present.2

/-- What a definition that could be ensured has found and left. -/
theorem ensure_eq_some {catalog after : Catalog name} {wanted : Def}
    (done : catalog.ensure wanted = some after) :
    (∀ found, catalog.lookup (name wanted) = some found → found = wanted) ∧
      ∀ called, after.lookup called =
        if called = name wanted then some wanted else catalog.lookup called := by
  rw [ensure] at done
  split at done
  · next free =>
      cases done
      exact ⟨fun found present => absurd (free.symm.trans present) (by simp),
        lookup_add catalog free⟩
  · next definition present =>
      by_cases same : definition = wanted
      · rw [if_pos same] at done
        cases done
        subst same
        refine ⟨fun found again => Option.some.inj (again.symm.trans present), fun called => ?_⟩
        by_cases sameName : called = name definition
        · rw [if_pos sameName, sameName, present]
        · rw [if_neg sameName]
      · rw [if_neg same] at done
        cases done

theorem ensure_of_agrees {catalog : Catalog name} {wanted : Def}
    (agrees : ∀ found, catalog.lookup (name wanted) = some found → found = wanted) :
    ∃ after, catalog.ensure wanted = some after := by
  rw [ensure]
  split
  · exact ⟨_, rfl⟩
  · next definition present => exact ⟨catalog, if_pos (agrees definition present)⟩

theorem ensureAll_eq_some {wanted : List Def} (distinct : UniqueBy name wanted)
    {catalog after : Catalog name} (done : catalog.ensureAll wanted = some after) :
    catalog.Agrees wanted ∧
      (∀ definition ∈ wanted, after.lookup (name definition) = some definition) ∧
      ∀ called, called ∉ wanted.map name → after.lookup called = catalog.lookup called := by
  induction wanted generalizing catalog with
  | nil =>
      cases done
      exact ⟨by simp [Agrees], by simp, fun _ _ => rfl⟩
  | cons wanted rest ih =>
      obtain ⟨other, restDistinct⟩ := List.nodup_cons.mp distinct
      obtain ⟨middle, first, last⟩ := Option.bind_eq_some_iff.mp done
      obtain ⟨firstAgrees, firstLookup⟩ := ensure_eq_some first
      obtain ⟨agrees, present, kept⟩ := ih restDistinct last
      have renamed : ∀ definition ∈ rest, name definition ≠ name wanted :=
        fun definition member same => other (same ▸ List.mem_map_of_mem member)
      refine ⟨List.forall_mem_cons.mpr ⟨firstAgrees, ?_⟩,
        List.forall_mem_cons.mpr ⟨?_, present⟩, ?_⟩
      · intro definition member found before
        refine agrees definition member found ?_
        rw [firstLookup, if_neg (renamed definition member), before]
      · rw [kept _ other, firstLookup, if_pos rfl]
      · intro called absent
        rw [List.map_cons, List.mem_cons, not_or] at absent
        rw [kept called absent.2, firstLookup, if_neg absent.1]

theorem ensureAll_of_agrees {wanted : List Def} (distinct : UniqueBy name wanted)
    {catalog : Catalog name} (agrees : catalog.Agrees wanted) :
    ∃ after, catalog.ensureAll wanted = some after := by
  induction wanted generalizing catalog with
  | nil => exact ⟨catalog, rfl⟩
  | cons wanted rest ih =>
      obtain ⟨other, restDistinct⟩ := List.nodup_cons.mp distinct
      obtain ⟨firstAgrees, restAgrees⟩ := List.forall_mem_cons.mp agrees
      obtain ⟨middle, first⟩ := ensure_of_agrees firstAgrees
      have middleAgrees : middle.Agrees rest := by
        intro definition member found present
        rw [(ensure_eq_some first).2, if_neg] at present
        · exact restAgrees definition member found present
        · exact fun same => other (same ▸ List.mem_map_of_mem member)
      obtain ⟨after, last⟩ := ih restDistinct middleAgrees
      exact ⟨after, by rw [ensureAll, first]; exact last⟩

end Ensure

end Catalog

end ObjectProcessor.Library
