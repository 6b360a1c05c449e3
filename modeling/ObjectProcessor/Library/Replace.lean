import Mathlib.Data.List.Basic
import Mathlib.Tactic.Common

/-!
# Replacing every occurrence of a pattern in a text

A scan from the left takes an occurrence of the pattern as soon as it meets one, and
goes on behind it.  The parts of the text between the occurrences it takes say where the
pattern can stand in a text whose occurrences have been masked.
-/

namespace ObjectProcessor.Library

variable {Letter : Type*} [DecidableEq Letter]

/-- Every occurrence of a nonempty pattern replaced.  A replacement is given the text
before the occurrence and the text after it; `skip` letters belong to the last one. -/
def replaceScan (pattern : List Letter) (replacement : List Letter → List Letter → List Letter) :
    Nat → List Letter → List Letter → List Letter
  | _, _, [] => []
  | skip + 1, before, letter :: rest =>
      replaceScan pattern replacement skip (before ++ [letter]) rest
  | 0, before, letter :: rest =>
      if pattern <+: letter :: rest then
        replacement before ((letter :: rest).drop pattern.length) ++
          replaceScan pattern replacement (pattern.length - 1) (before ++ [letter]) rest
      else letter :: replaceScan pattern replacement 0 (before ++ [letter]) rest

def replaceAll (pattern : List Letter) (replacement : List Letter → List Letter → List Letter)
    (text : List Letter) : List Letter :=
  replaceScan pattern replacement 0 [] text

/-- A text in parts, with a separator between every two of them. -/
structure Parts (Letter : Type*) where
  first : List Letter
  later : List (List Letter)
  deriving DecidableEq

/-- The text of these parts around a separator. -/
def Parts.join (separator : List Letter) (parts : Parts Letter) : List Letter :=
  parts.first ++ parts.later.flatMap (separator ++ ·)

/-- The text in parts, split at the occurrences that the scan takes. -/
def splitScan (pattern : List Letter) : Nat → List Letter → Parts Letter
  | _, [] => ⟨[], []⟩
  | skip + 1, _ :: rest => splitScan pattern skip rest
  | 0, letter :: rest =>
      if pattern <+: letter :: rest then
        let after := splitScan pattern (pattern.length - 1) rest
        ⟨[], after.first :: after.later⟩
      else
        let after := splitScan pattern 0 rest
        ⟨letter :: after.first, after.later⟩

def split (pattern text : List Letter) : Parts Letter :=
  splitScan pattern 0 text

theorem replaceScan_skip (pattern : List Letter)
    (replacement : List Letter → List Letter → List Letter) (skip before text : List Letter) :
    replaceScan pattern replacement skip.length before (skip ++ text) =
      replaceScan pattern replacement 0 (before ++ skip) text := by
  induction skip generalizing before with
  | nil => simp
  | cons letter rest ih => simp [replaceScan, ih]

theorem splitScan_skip (pattern skip text : List Letter) :
    splitScan pattern skip.length (skip ++ text) = split pattern text := by
  induction skip with
  | nil => rfl
  | cons letter rest ih => exact ih

section Scan

variable {pattern : List Letter}

theorem split_passed {letter : Letter} {rest : List Letter} (other : ¬ pattern <+: letter :: rest) :
    split pattern (letter :: rest) =
      ⟨letter :: (split pattern rest).first, (split pattern rest).later⟩ := by
  simp only [split, splitScan, other, ↓reduceIte]

/-- A text without the pattern is one part. -/
theorem split_of_avoids {text : List Letter} (avoids : ¬ pattern <:+: text) :
    split pattern text = ⟨text, []⟩ := by
  induction text with
  | nil => rfl
  | cons letter rest ih =>
      rw [List.infix_cons_iff, not_or] at avoids
      rw [split_passed avoids.1, ih avoids.2]

variable (nonempty : pattern ≠ [])

include nonempty

/-- The cases of the scan: the text has ended, it goes on with the pattern, or with a letter
where the pattern does not stand. -/
theorem scan_induction {motive : List Letter → Prop} (ended : motive [])
    (taken : ∀ rest, motive rest → motive (pattern ++ rest))
    (passed : ∀ letter rest, ¬ pattern <+: letter :: rest → motive rest → motive (letter :: rest))
    (text : List Letter) : motive text := by
  induction h : text.length using Nat.strongRecOn generalizing text with
  | _ length ih =>
      subst h
      cases text with
      | nil => exact ended
      | cons letter rest =>
          by_cases here : pattern <+: letter :: rest
          · obtain ⟨after, found⟩ := here
            rw [← found]
            refine taken after (ih _ ?_ after rfl)
            have positive := List.length_pos_iff.mpr nonempty
            rw [← found, List.length_append]
            omega
          · exact passed letter rest here (ih _ (by simp) rest rfl)

theorem split_taken (rest : List Letter) :
    split pattern (pattern ++ rest) =
      ⟨[], (split pattern rest).first :: (split pattern rest).later⟩ := by
  obtain ⟨letter, letters, rfl⟩ := List.exists_cons_of_ne_nil nonempty
  have here : letter :: letters <+: letter :: (letters ++ rest) :=
    List.prefix_append (letter :: letters) rest
  have behind := splitScan_skip (letter :: letters) letters rest
  simp only [split, List.cons_append, splitScan, here, ↓reduceIte, List.length_cons,
    Nat.add_sub_cancel] at behind ⊢
  rw [behind]

theorem replaceScan_taken (replacement : List Letter → List Letter → List Letter)
    (before rest : List Letter) :
    replaceScan pattern replacement 0 before (pattern ++ rest) =
      replacement before rest ++ replaceScan pattern replacement 0 (before ++ pattern) rest := by
  obtain ⟨letter, letters, rfl⟩ := List.exists_cons_of_ne_nil nonempty
  have here : letter :: letters <+: letter :: (letters ++ rest) :=
    List.prefix_append (letter :: letters) rest
  have behind := replaceScan_skip (letter :: letters) replacement letters (before ++ [letter]) rest
  simp only [List.cons_append, replaceScan, here, ↓reduceIte, List.length_cons,
    Nat.add_sub_cancel, List.drop_succ_cons, List.drop_left] at behind ⊢
  rw [behind]
  simp

/-- The parts and the pattern are the text. -/
theorem join_split (text : List Letter) : (split pattern text).join pattern = text := by
  induction text using scan_induction nonempty with
  | ended => rfl
  | taken rest ih =>
      rw [split_taken nonempty]
      simp only [Parts.join, List.nil_append, List.flatMap_cons, List.append_assoc] at ih ⊢
      rw [ih]
  | passed letter rest other ih =>
      rw [split_passed other]
      simp only [Parts.join, List.cons_append] at ih ⊢
      rw [ih]

/-- Replaced by one and the same text, the occurrences are exchanged for it. -/
theorem replaceAll_eq_join (replacement text : List Letter) :
    replaceAll pattern (fun _ _ => replacement) text = (split pattern text).join replacement := by
  suffices scanned : ∀ before, replaceScan pattern (fun _ _ => replacement) 0 before text =
      (split pattern text).join replacement from scanned []
  induction text using scan_induction nonempty with
  | ended => exact fun _ => rfl
  | taken rest ih =>
      intro before
      rw [replaceScan_taken nonempty, ih, split_taken nonempty]
      simp [Parts.join]
  | passed letter rest other ih =>
      intro before
      rw [split_passed other, replaceScan, if_neg other, ih]
      rfl

theorem split_first_starts (text : List Letter) : (split pattern text).first <+: text :=
  ⟨_, join_split nonempty text⟩

/-- The pattern stands in none of the parts. -/
theorem split_avoids (text : List Letter) :
    ¬ pattern <:+: (split pattern text).first ∧
      ∀ part ∈ (split pattern text).later, ¬ pattern <:+: part := by
  induction text using scan_induction nonempty with
  | ended => exact ⟨by simpa [split, splitScan] using nonempty, by simp [split, splitScan]⟩
  | taken rest ih =>
      rw [split_taken nonempty]
      exact ⟨by simpa using nonempty, List.forall_mem_cons.mpr ih⟩
  | passed letter rest other ih =>
      rw [split_passed other]
      refine ⟨fun inside => ?_, ih.2⟩
      rcases List.infix_cons_iff.mp inside with here | later
      · exact other (here.trans
          ((List.prefix_cons_inj letter).mpr (split_first_starts nonempty rest)))
      · exact ih.1 later

theorem replaceAll_of_avoids (replacement : List Letter) {text : List Letter}
    (avoids : ¬ pattern <:+: text) :
    replaceAll pattern (fun _ _ => replacement) text = text := by
  rw [replaceAll_eq_join nonempty, split_of_avoids avoids]
  exact List.append_nil text

end Scan

section Masking

variable {pattern kept : List Letter} {fill : Letter}

omit [DecidableEq Letter] in
/-- A pattern without the fill stands on one side of it. -/
theorem infix_fill_iff (outside : fill ∉ pattern) (nonempty : pattern ≠ []) {count : Nat}
    (filled : 0 < count) (before after : List Letter) :
    pattern <:+: before ++ (List.replicate count fill ++ after) ↔
      pattern <:+: before ∨ pattern <:+: after := by
  have across : ∀ {front back : List Letter}, front ≠ [] → pattern = back ++ front →
      ¬ front <+: List.replicate count fill ++ after := by
    intro front back some whole starts
    obtain ⟨letter, letters, rfl⟩ := List.exists_cons_of_ne_nil some
    obtain ⟨fewer, rfl⟩ := Nat.exists_eq_succ_of_ne_zero (Nat.ne_of_gt filled)
    rw [List.replicate_succ, List.cons_append, List.cons_prefix_cons] at starts
    exact outside (by simp [whole, starts.1])
  constructor
  · intro inside
    rcases List.infix_append_iff_ne_nil.mp inside with
      left | right | ⟨back, front, -, some, whole, -, starts⟩
    · exact Or.inl left
    · rcases List.infix_append_iff_ne_nil.mp right with
        fills | right | ⟨back, front, some, -, whole, ends, -⟩
      · obtain ⟨letter, member⟩ := List.exists_mem_of_ne_nil pattern nonempty
        have filling := List.eq_of_mem_replicate (fills.subset member)
        exact absurd (filling ▸ member) outside
      · exact Or.inr right
      · obtain ⟨letter, member⟩ := List.exists_mem_of_ne_nil back some
        have filling := List.eq_of_mem_replicate (ends.subset member)
        exact absurd (by rw [whole]; exact List.mem_append_left _ (filling ▸ member)) outside
    · exact absurd starts (across some whole)
  · rintro (left | right)
    · exact List.infix_append_of_infix_left left
    · exact List.infix_append_of_infix_right (List.infix_append_of_infix_right right)

/-- A part completes what a mask has kept to the pattern. -/
def Completes (pattern kept part : List Letter) : Prop :=
  ∃ overlap rest, overlap ≠ [] ∧ pattern = overlap ++ rest ∧ overlap <:+ kept ∧ rest <+: part

omit [DecidableEq Letter] in
theorem infix_join_iff (outside : fill ∉ pattern) (nonempty : pattern ≠ []) {count : Nat}
    (filled : 0 < count) (parts : Parts Letter) :
    pattern <:+: parts.join (List.replicate count fill ++ kept) ↔
      pattern <:+: parts.first ∨ ∃ part ∈ parts.later, pattern <:+: kept ++ part := by
  obtain ⟨first, later⟩ := parts
  induction later generalizing first with
  | nil => simp [Parts.join]
  | cons part later ih =>
      have rejoined : Parts.join (List.replicate count fill ++ kept) ⟨first, part :: later⟩ =
          first ++ (List.replicate count fill ++
            Parts.join (List.replicate count fill ++ kept) ⟨kept ++ part, later⟩) := by
        simp [Parts.join]
      rw [rejoined, infix_fill_iff outside nonempty filled, ih]
      simp

/-- A masked text has the pattern exactly where a part completes what the mask before it
has kept. -/
theorem infix_replaceAll_iff (outside : fill ∉ pattern) (short : kept.length < pattern.length)
    {count : Nat} (filled : 0 < count) (text : List Letter) :
    pattern <:+: replaceAll pattern (fun _ _ => List.replicate count fill ++ kept) text ↔
      ∃ part ∈ (split pattern text).later, Completes pattern kept part := by
  have nonempty : pattern ≠ [] := List.ne_nil_of_length_pos (by omega)
  obtain ⟨avoidsFirst, avoidsLater⟩ := split_avoids nonempty text
  rw [replaceAll_eq_join nonempty, infix_join_iff outside nonempty filled,
    or_iff_right avoidsFirst]
  refine exists_congr fun part => and_congr_right fun member => ?_
  rw [List.infix_append_iff_ne_nil, or_iff_right (fun inside => ?_),
    or_iff_right (avoidsLater part member)]
  · constructor
    · rintro ⟨overlap, rest, some, -, whole, ends, starts⟩
      exact ⟨overlap, rest, some, whole, ends, starts⟩
    · rintro ⟨overlap, rest, some, whole, ends, starts⟩
      refine ⟨overlap, rest, some, ?_, whole, ends, starts⟩
      rintro rfl
      have fits := ends.length_le
      rw [List.append_nil] at whole
      exact absurd short (Nat.not_lt.mpr (whole ▸ fits))
  · exact absurd short (Nat.not_lt.mpr inside.length_le)

end Masking

end ObjectProcessor.Library
