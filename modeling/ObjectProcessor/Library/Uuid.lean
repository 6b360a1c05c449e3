import ObjectProcessor.Library.Hex

/-!
# Texts that denote UUIDs

The canonical form has five groups of hexadecimal digits joined by hyphens.  The
lenient form of version 4 also admits brackets, and a colon or nothing in place
of the hyphens.
-/

namespace ObjectProcessor.Library

/-- What follows a number of hexadecimal digits. -/
def skipHex : Nat → List Char → Option (List Char)
  | 0, text => some text
  | _ + 1, [] => none
  | count + 1, digit :: rest => if isHexDigit digit then skipHex count rest else none

/-- What follows one allowed character. -/
def skipOne (allowed : Char → Bool) : List Char → Option (List Char)
  | [] => none
  | char :: rest => if allowed char then some rest else none

/-- What follows a character that may be left out. -/
def skipOptional (separator : Option Char) : List Char → List Char
  | [] => []
  | char :: rest => if some char = separator then rest else char :: rest

def isHyphen (char : Char) : Bool := char = '-'

/-- The canonical form: 8-4-4-4-12 hexadecimal digits. -/
def isUuid (text : String) : Bool :=
  ((skipHex 8 text.toList).bind fun rest =>
    (skipOne isHyphen rest).bind fun rest => (skipHex 4 rest).bind fun rest =>
    (skipOne isHyphen rest).bind fun rest => (skipHex 4 rest).bind fun rest =>
    (skipOne isHyphen rest).bind fun rest => (skipHex 4 rest).bind fun rest =>
    (skipOne isHyphen rest).bind fun rest => skipHex 12 rest) = some []

/-- The opening bracket of a text, with the closing bracket it asks for. -/
def openingBracket : List Char → List Char × List Char
  | '[' :: rest => ([']'], rest)
  | '(' :: rest => ([')'], rest)
  | '\x7b' :: rest => (['\x7d'], rest)
  | text => ([], text)

/-- The separator after the first group, if there is one. -/
def leadingSeparator : List Char → Option Char
  | ':' :: _ => some ':'
  | '-' :: _ => some '-'
  | _ => none

/-- The lenient form of a version 4 UUID. -/
def isLenientUuidV4 (text : String) : Bool :=
  let (closing, body) := openingBracket text.toList
  ((skipHex 8 body).bind fun rest =>
    let separator := leadingSeparator rest
    (skipHex 4 (skipOptional separator rest)).bind fun rest =>
    (skipOne (· = '4')
      (skipOptional separator rest)).bind fun rest => (skipHex 3 rest).bind fun rest =>
    (skipOne (fun char => char ∈ ['8', '9', 'a', 'b', 'A', 'B'])
      (skipOptional separator rest)).bind fun rest => (skipHex 3 rest).bind fun rest =>
    skipHex 12 (skipOptional separator rest)) = some closing

theorem skipHex_eq_some {count : Nat} {text rest : List Char}
    (skipped : skipHex count text = some rest) :
    ∃ digits, text = digits ++ rest ∧ digits.length = count ∧ ∀ digit ∈ digits,
      isHexDigit digit = true := by
  induction count generalizing text with
  | zero =>
      cases skipped
      exact ⟨[], rfl, rfl, by simp⟩
  | succ count ih =>
      cases text with
      | nil => cases skipped
      | cons digit text =>
          simp only [skipHex, Option.ite_none_right_eq_some] at skipped
          obtain ⟨isHex, later⟩ := skipped
          obtain ⟨digits, rfl, length, all⟩ := ih later
          refine ⟨digit :: digits, rfl, by simp [length], ?_⟩
          intro other member
          rcases List.mem_cons.mp member with rfl | member
          · exact isHex
          · exact all other member

theorem skipOne_eq_some {allowed : Char → Bool} {text rest : List Char}
    (skipped : skipOne allowed text = some rest) :
    ∃ char, text = char :: rest ∧ allowed char = true := by
  cases text with
  | nil => cases skipped
  | cons char text =>
      simp only [skipOne, Option.ite_none_right_eq_some, Option.some.injEq] at skipped
      exact ⟨char, by rw [skipped.2], skipped.1⟩

/-- A canonical UUID consists of hexadecimal digits and hyphens. -/
theorem isUuid_chars {text : String} (canonical : isUuid text = true) :
    ∀ char ∈ text.toList, isHexDigit char = true ∨ char = '-' := by
  simp only [isUuid, decide_eq_true_eq, Option.bind_eq_some_iff] at canonical
  obtain ⟨r1, h1, r2, s1, r3, h2, r4, s2, r5, h3, r6, s3, r7, h4, r8, s4, h5⟩ := canonical
  obtain ⟨d1, e1, _, a1⟩ := skipHex_eq_some h1
  obtain ⟨c1, f1, b1⟩ := skipOne_eq_some s1
  obtain ⟨d2, e2, _, a2⟩ := skipHex_eq_some h2
  obtain ⟨c2, f2, b2⟩ := skipOne_eq_some s2
  obtain ⟨d3, e3, _, a3⟩ := skipHex_eq_some h3
  obtain ⟨c3, f3, b3⟩ := skipOne_eq_some s3
  obtain ⟨d4, e4, _, a4⟩ := skipHex_eq_some h4
  obtain ⟨c4, f4, b4⟩ := skipOne_eq_some s4
  obtain ⟨d5, e5, _, a5⟩ := skipHex_eq_some h5
  intro char member
  rw [e1, f1, e2, f2, e3, f3, e4, f4, e5] at member
  simp only [isHyphen, decide_eq_true_eq] at b1 b2 b3 b4
  simp only [List.mem_append, List.mem_cons, List.not_mem_nil, or_false] at member
  rcases member with m | rfl | m | rfl | m | rfl | m | rfl | m
  · exact Or.inl (a1 char m)
  · exact Or.inr b1
  · exact Or.inl (a2 char m)
  · exact Or.inr b2
  · exact Or.inl (a3 char m)
  · exact Or.inr b3
  · exact Or.inl (a4 char m)
  · exact Or.inr b4
  · exact Or.inl (a5 char m)

theorem isUuid_nonempty {text : String} (canonical : isUuid text = true) : 1 ≤ text.length := by
  rw [Nat.one_le_iff_ne_zero]
  intro empty
  rw [String.length_eq_zero_iff.mp empty] at canonical
  exact absurd canonical (by decide)

/-- A character of the lenient form. -/
def isLenientChar (char : Char) : Bool :=
  isHexDigit char || decide (char ∈ ['-', ':', '[', ']', '(', ')', '\x7b', '\x7d'])

/-- Only such characters were skipped. -/
def LenientSkip (text rest : List Char) : Prop :=
  ∃ front, text = front ++ rest ∧ ∀ char ∈ front, isLenientChar char = true

theorem LenientSkip.trans {text middle rest : List Char} (first : LenientSkip text middle)
    (second : LenientSkip middle rest) : LenientSkip text rest := by
  obtain ⟨front, rfl, lenient⟩ := first
  obtain ⟨next, rfl, lenientNext⟩ := second
  exact ⟨front ++ next, by simp, List.forall_mem_append.mpr ⟨lenient, lenientNext⟩⟩

theorem lenientSkip_hex {count : Nat} {text rest : List Char}
    (skipped : skipHex count text = some rest) : LenientSkip text rest := by
  obtain ⟨digits, same, _, hex⟩ := skipHex_eq_some skipped
  exact ⟨digits, same, fun char member => by simp [isLenientChar, hex char member]⟩

theorem lenientSkip_one {allowed : Char → Bool} {text rest : List Char}
    (skipped : skipOne allowed text = some rest)
    (lenient : ∀ char, allowed char = true → isLenientChar char = true) :
    LenientSkip text rest := by
  obtain ⟨char, same, isAllowed⟩ := skipOne_eq_some skipped
  exact ⟨[char], same, by simpa using lenient char isAllowed⟩

theorem lenientSkip_optional (following text : List Char) :
    LenientSkip text (skipOptional (leadingSeparator following) text) := by
  have separator {char : Char} (same : some char = leadingSeparator following) :
      isLenientChar char = true := by
    unfold leadingSeparator at same
    split at same <;> cases same <;> rfl
  cases text with
  | nil => exact ⟨[], rfl, by simp⟩
  | cons char rest =>
      by_cases same : some char = leadingSeparator following
      · exact ⟨[char], by simp [skipOptional, same], by simpa using separator same⟩
      · exact ⟨[], by simp [skipOptional, same], by simp⟩

theorem lenientSkip_bracket (text : List Char) :
    LenientSkip text (openingBracket text).2 ∧
      ∀ char ∈ (openingBracket text).1, isLenientChar char = true := by
  unfold openingBracket
  split
  · exact ⟨⟨['['], rfl, by simp [isLenientChar]⟩, by simp [isLenientChar]⟩
  · exact ⟨⟨['('], rfl, by simp [isLenientChar]⟩, by simp [isLenientChar]⟩
  · exact ⟨⟨['\x7b'], rfl, by simp [isLenientChar]⟩, by simp [isLenientChar]⟩
  · exact ⟨⟨[], rfl, by simp⟩, by simp⟩

/-- The lenient form consists of hexadecimal digits, separators and brackets. -/
theorem isLenientUuidV4_chars {text : String} (lenient : isLenientUuidV4 text = true) :
    ∀ char ∈ text.toList, isLenientChar char = true := by
  obtain ⟨opens, closing⟩ := lenientSkip_bracket text.toList
  simp only [isLenientUuidV4, decide_eq_true_eq, Option.bind_eq_some_iff] at lenient
  obtain ⟨r1, first, r2, second, r3, version, r4, third, r5, variant, r6, fourth, node⟩ := lenient
  have isVersion : ∀ char : Char, decide (char = '4') = true → isLenientChar char = true := by
    intro char same
    rw [of_decide_eq_true same]
    rfl
  have isVariant : ∀ char : Char, decide (char ∈ ['8', '9', 'a', 'b', 'A', 'B']) = true →
      isLenientChar char = true := by
    intro char member
    have cases := of_decide_eq_true member
    simp only [List.mem_cons, List.not_mem_nil, or_false] at cases
    rcases cases with rfl | rfl | rfl | rfl | rfl | rfl <;> rfl
  have whole : LenientSkip text.toList (openingBracket text.toList).1 :=
      opens.trans <| (lenientSkip_hex first).trans <|
        (lenientSkip_optional r1 r1).trans <| (lenientSkip_hex second).trans <|
        (lenientSkip_optional r1 r2).trans <| (lenientSkip_one version isVersion).trans <|
        (lenientSkip_hex third).trans <| (lenientSkip_optional r1 r4).trans <|
        (lenientSkip_one variant isVariant).trans <| (lenientSkip_hex fourth).trans <|
        (lenientSkip_optional r1 r6).trans (lenientSkip_hex node)
  obtain ⟨front, same, all⟩ := whole
  rw [same]
  exact List.forall_mem_append.mpr ⟨all, closing⟩

theorem isLenientUuidV4_nonempty {text : String} (lenient : isLenientUuidV4 text = true) :
    text ≠ "" := by
  rintro rfl
  exact absurd lenient (by decide)

/-! ## Lengths -/

theorem length_of_skipHex {count : Nat} {text rest : List Char}
    (skipped : skipHex count text = some rest) : text.length = count + rest.length := by
  obtain ⟨digits, rfl, length, _⟩ := skipHex_eq_some skipped
  rw [List.length_append, length]

theorem length_of_skipOne {allowed : Char → Bool} {text rest : List Char}
    (skipped : skipOne allowed text = some rest) : text.length = rest.length + 1 := by
  obtain ⟨char, rfl, _⟩ := skipOne_eq_some skipped
  rfl

theorem length_le_of_skipOptional (separator : Option Char) (text : List Char) :
    text.length ≤ (skipOptional separator text).length + 1 := by
  cases text with
  | nil => exact Nat.le_succ _
  | cons char rest =>
      rw [skipOptional]
      split
      · exact Nat.le_refl _
      · exact Nat.le_succ _

theorem length_openingBracket (text : List Char) :
    text.length ≤ (openingBracket text).2.length + (openingBracket text).1.length ∧
      (openingBracket text).1.length ≤ 1 := by
  unfold openingBracket
  split <;> simp

theorem isUuid_length {text : String} (canonical : isUuid text = true) : text.length = 36 := by
  simp only [isUuid, decide_eq_true_eq, Option.bind_eq_some_iff] at canonical
  obtain ⟨r1, h1, r2, s1, r3, h2, r4, s2, r5, h3, r6, s3, r7, h4, r8, s4, h5⟩ := canonical
  have first := length_of_skipHex h1
  have second := length_of_skipHex h2
  have third := length_of_skipHex h3
  have fourth := length_of_skipHex h4
  have fifth := length_of_skipHex h5
  have hyphens := And.intro (length_of_skipOne s1) (length_of_skipOne s2)
  have others := And.intro (length_of_skipOne s3) (length_of_skipOne s4)
  rw [← String.length_toList]
  rw [List.length_nil] at fifth
  omega

/-- Four separators and two brackets at most come to the thirty-two digits. -/
theorem isLenientUuidV4_length {text : String} (lenient : isLenientUuidV4 text = true) :
    text.length ≤ 38 := by
  obtain ⟨opens, closes⟩ := length_openingBracket text.toList
  simp only [isLenientUuidV4, decide_eq_true_eq, Option.bind_eq_some_iff] at lenient
  obtain ⟨r1, first, r2, second, r3, version, r4, third, r5, variant, r6, fourth, node⟩ := lenient
  have one := length_of_skipHex first
  have two := length_of_skipHex second
  have three := length_of_skipHex third
  have four := length_of_skipHex fourth
  have last := length_of_skipHex node
  have marks := And.intro (length_of_skipOne version) (length_of_skipOne variant)
  have gaps := And.intro (length_le_of_skipOptional (leadingSeparator r1) r1)
    (length_le_of_skipOptional (leadingSeparator r1) r2)
  have rest := And.intro (length_le_of_skipOptional (leadingSeparator r1) r4)
    (length_le_of_skipOptional (leadingSeparator r1) r6)
  rw [← String.length_toList]
  omega

end ObjectProcessor.Library
