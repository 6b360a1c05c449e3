import ObjectProcessor.Library.Hex

/-!
# Texts that denote URIs

A scheme and a colon are followed by the characters a URI may hold, with other
octets written as a percent sign and two hexadecimal digits.
-/

namespace ObjectProcessor.Library

def isLetter (char : Char) : Bool :=
  ('a' ≤ char && char ≤ 'z') || ('A' ≤ char && char ≤ 'Z')

def isSchemeChar (char : Char) : Bool :=
  isLetter char || char.isDigit || char ∈ ['+', '-', '.']

/-- The reserved and the unreserved characters. -/
def isUriChar (char : Char) : Bool :=
  isLetter char || char.isDigit ||
    char ∈ ['-', '.', '_', '~', ':', '/', '?', '#', '[', ']', '@', '!', '$', '&', '(', ')',
      '*', '+', ',', ';', '=', Char.ofNat 39]

/-- What follows the scheme and its colon. -/
def afterScheme : List Char → Option (List Char)
  | [] => none
  | char :: rest =>
      if char = ':' then some rest else if isSchemeChar char then afterScheme rest else none

/-- Whether a text holds URI characters and percent-encoded octets only. -/
def hasUriChars : List Char → Bool
  | [] => true
  | '%' :: high :: low :: rest => isHexDigit high && isHexDigit low && hasUriChars rest
  | char :: rest => isUriChar char && hasUriChars rest

def isUri (text : String) : Bool :=
  text.toList.head?.any isLetter && (afterScheme text.toList).any hasUriChars

theorem isUriChar_of_isHexDigit {char : Char} (digit : isHexDigit char = true) :
    isUriChar char = true := by
  have lower : 'a' ≤ char ↔ 97 ≤ char.toNat := Iff.rfl
  have lowerEnd : char ≤ 'z' ↔ char.toNat ≤ 122 := Iff.rfl
  have upper : 'A' ≤ char ↔ 65 ≤ char.toNat := Iff.rfl
  have upperEnd : char ≤ 'Z' ↔ char.toNat ≤ 90 := Iff.rfl
  have decimal : char.isDigit = true ↔ 48 ≤ char.toNat ∧ char.toNat ≤ 57 := by
    exact Char.isDigit_iff_toNat
  simp only [isHexDigit, hexValue?] at digit
  simp only [isUriChar, isLetter, Bool.or_eq_true, Bool.and_eq_true, decide_eq_true_eq, lower,
    lowerEnd, upper, upperEnd, decimal]
  split_ifs at digit with isDecimal isLower isUpper
  · exact Or.inl (Or.inr isDecimal)
  · exact Or.inl (Or.inl (Or.inl ⟨isLower.1, by omega⟩))
  · exact Or.inl (Or.inl (Or.inr ⟨isUpper.1, by omega⟩))
  · cases digit

theorem hasUriChars_cons {char : Char} (plain : isUriChar char = true) (rest : List Char) :
    hasUriChars (char :: rest) = hasUriChars rest := by
  have other : char ≠ '%' := by
    rintro rfl
    exact absurd plain (by decide)
  rw [hasUriChars, plain, Bool.true_and]
  rintro high low later percent
  exact absurd percent other

theorem hasUriChars_append {front back : List Char} (frontValid : hasUriChars front = true)
    (backValid : hasUriChars back = true) : hasUriChars (front ++ back) = true := by
  induction front using hasUriChars.induct with
  | case1 => exact backValid
  | case2 high low rest ih =>
      simp only [hasUriChars, Bool.and_eq_true] at frontValid
      simp only [List.cons_append, hasUriChars, Bool.and_eq_true]
      exact ⟨frontValid.1, ih frontValid.2⟩
  | case3 char rest single ih =>
      rw [hasUriChars, Bool.and_eq_true] at frontValid
      · rw [List.cons_append, hasUriChars_cons frontValid.1]
        exact ih frontValid.2
      · exact single

theorem hasUriChars_of_all {text : List Char} (all : ∀ char ∈ text, isUriChar char = true) :
    hasUriChars text = true := by
  induction text with
  | nil => rfl
  | cons char rest ih =>
      rw [hasUriChars_cons (all char (List.mem_cons_self ..))]
      exact ih fun other member => all other (List.mem_cons_of_mem _ member)

theorem afterScheme_append {front rest : List Char} (found : afterScheme front = some rest)
    (back : List Char) : afterScheme (front ++ back) = some (rest ++ back) := by
  induction front with
  | nil => cases found
  | cons char front ih =>
      simp only [afterScheme] at found
      simp only [List.cons_append, afterScheme]
      split at found
      · rename_i colon
        cases found
        rw [if_pos colon]
      · rename_i other
        rw [if_neg other]
        split at found
        · rename_i scheme
          rw [if_pos scheme]
          exact ih found
        · cases found

/-- A URI may be extended by any URI characters. -/
theorem isUri_append {base tail : String} (valid : isUri base = true)
    (all : ∀ char ∈ tail.toList, isUriChar char = true) : isUri (base ++ tail) = true := by
  rw [isUri, Bool.and_eq_true] at valid ⊢
  obtain ⟨letter, rest⟩ := valid
  obtain ⟨after, found, chars⟩ := (Option.any_eq_true _ _).mp rest
  rw [String.toList_append]
  constructor
  · cases front : base.toList with
    | nil => simp [front] at letter
    | cons char chars => simpa [front] using letter
  · rw [afterScheme_append found, Option.any_some]
    exact hasUriChars_append chars (hasUriChars_of_all all)

end ObjectProcessor.Library
