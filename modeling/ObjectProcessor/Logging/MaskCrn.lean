import ObjectProcessor.Callback.Schema
import ObjectProcessor.Library.Calendar
import ObjectProcessor.Library.Replace

/-!
# Masking a CRN in log text

The mask keeps the last four digits of a CRN, and the occurrences of a CRN are replaced
from the left.  What follows an occurrence can complete the digits its mask has kept to
the CRN again.
-/

namespace ObjectProcessor

open Library

/-- A string of the source: its UTF-16 code units, which need not make up characters. -/
abbrev Text := List UInt16

/-- The code units of a character: one, or two surrogates. -/
def utf16 (char : Char) : Text :=
  if char.toNat < 0x10000 then [UInt16.ofNat char.toNat]
  else
    let offset := char.toNat - 0x10000
    [UInt16.ofNat (0xD800 + offset / 0x400), UInt16.ofNat (0xDC00 + offset % 0x400)]

def codeUnits (text : String) : Text :=
  text.toList.flatMap utf16

/-- The code unit of `*`. -/
def star : UInt16 := 42

/-- The code unit of `$`. -/
def dollar : UInt16 := 36

/-- What is given for a CRN. -/
inductive CrnValue where
  | undefined
  | null
  | text (value : Text)
  | number (value : Int)
  deriving DecidableEq

/-- `String(crn)` -/
def CrnValue.string : CrnValue → Text
  | .undefined => codeUnits "undefined"
  | .null => codeUnits "null"
  | .text value => value
  | .number value => codeUnits (toString value)

def maskCrn (crn : CrnValue) : Text :=
  let value := crn.string
  if value.length ≤ 4 then value
  else
    let maskedLength := value.length - 4
    List.replicate maskedLength star ++ value.drop maskedLength

/-- What the string `replaceAll` is given stands for at an occurrence: a dollar and what
follows it can name the occurrence, the text before it or the text after it. -/
def getSubstitution (matched before after : Text) : Text → Text
  | [] => []
  | [unit] => [unit]
  | unit :: next :: rest =>
      if unit = dollar then
        if next = dollar then dollar :: getSubstitution matched before after rest
        else if next = 38 then matched ++ getSubstitution matched before after rest
        else if next = 96 then before ++ getSubstitution matched before after rest
        else if next = 39 then after ++ getSubstitution matched before after rest
        else unit :: getSubstitution matched before after (next :: rest)
      else unit :: getSubstitution matched before after (next :: rest)

def maskCrnInText (text : Option Text) (crn : CrnValue) : Option Text :=
  match text with
  | none => none
  | some text =>
      if crn = .undefined ∨ crn = .null ∨ crn = .text [] then some text
      else
        some (replaceAll crn.string
          (fun before after => getSubstitution crn.string before after (maskCrn crn)) text)

theorem getSubstitution_of_not_mem (matched before after : Text) {replacement : Text}
    (plain : dollar ∉ replacement) :
    getSubstitution matched before after replacement = replacement := by
  induction replacement with
  | nil => rfl
  | cons unit rest ih =>
      rw [List.mem_cons, not_or] at plain
      cases rest with
      | nil => rfl
      | cons next rest => rw [getSubstitution, if_neg (Ne.symm plain.1), ih plain.2]

theorem utf16_digit {digit : Char} (decimal : digit.isDigit = true) :
    ∃ unit : UInt16, utf16 digit = [unit] ∧ unit ≠ star ∧ unit ≠ dollar := by
  have range : 48 ≤ digit.toNat ∧ digit.toNat ≤ 57 := Char.isDigit_iff_toNat.mp decimal
  have value : (UInt16.ofNat digit.toNat).toNat = digit.toNat :=
    UInt16.toNat_ofNat_of_lt (Nat.lt_trans (by omega : digit.toNat < 58) (by decide))
  refine ⟨UInt16.ofNat digit.toNat, if_pos (by omega), ?_, ?_⟩
  · intro same
    rw [same, show star.toNat = 42 from rfl] at value
    omega
  · intro same
    rw [same, show dollar.toNat = 36 from rfl] at value
    omega

theorem flatMap_utf16_digits {digits : List Char}
    (decimal : ∀ digit ∈ digits, digit.isDigit = true) :
    (digits.flatMap utf16).length = digits.length ∧ star ∉ digits.flatMap utf16 ∧
      dollar ∉ digits.flatMap utf16 := by
  induction digits with
  | nil => simp
  | cons digit rest ih =>
      obtain ⟨unit, encoded, notStar, notDollar⟩ := utf16_digit (decimal digit (by simp))
      obtain ⟨length, noStar, noDollar⟩ :=
        ih fun other member => decimal other (List.mem_cons_of_mem _ member)
      rw [List.flatMap_cons, encoded, List.singleton_append]
      exact ⟨by simp [length], by simp [notStar.symm, noStar], by simp [notDollar.symm, noDollar]⟩

/-- A CRN in the range the schemas admit. -/
structure Crn where
  value : Nat
  least : schemaConsts.CRN_MIN ≤ value
  greatest : value ≤ schemaConsts.CRN_MAX

namespace Crn

variable (crn : Crn)

/-- The decimal form of a CRN. -/
def digits : Text :=
  codeUnits (toString crn.value)

/-- The digits that a mask keeps of a CRN. -/
def keptDigits : Text :=
  crn.digits.drop 6

theorem digits_spec : crn.digits.length = 10 ∧ star ∉ crn.digits ∧ dollar ∉ crn.digits := by
  have decimal : ∀ digit ∈ Nat.toDigits 10 crn.value, digit.isDigit = true :=
    fun digit member => Nat.isDigit_of_mem_toDigits (by decide) (by decide) member
  obtain ⟨length, noStar, noDollar⟩ := flatMap_utf16_digits decimal
  have greatest : crn.value < 10 ^ (9 + 1) := Nat.lt_of_le_of_lt crn.greatest (by decide)
  rw [length_toDigits (Nat.le_trans (by decide) crn.least) greatest] at length
  have written : crn.digits = (Nat.toDigits 10 crn.value).flatMap utf16 :=
    congrArg (List.flatMap utf16) Nat.toList_repr
  rw [written]
  exact ⟨length, noStar, noDollar⟩

theorem digits_length : crn.digits.length = 10 :=
  crn.digits_spec.1

theorem digits_ne_nil : crn.digits ≠ [] :=
  List.ne_nil_of_length_pos (by rw [crn.digits_length]; decide)

theorem keptDigits_length : crn.keptDigits.length = 4 := by
  rw [keptDigits, List.length_drop, crn.digits_length]

end Crn

/-- A CRN as its number, and as its decimal form. -/
inductive CrnGiven (crn : Crn) : CrnValue → Prop
  | number : CrnGiven crn (.number crn.value)
  | text : CrnGiven crn (.text crn.digits)

theorem CrnGiven.string {crn : Crn} {given : CrnValue} (givenCrn : CrnGiven crn given) :
    given.string = crn.digits := by
  cases givenCrn with
  | number => rfl
  | text => rfl

theorem maskCrn_eq {crn : Crn} {given : CrnValue} (givenCrn : CrnGiven crn given) :
    maskCrn given = List.replicate 6 star ++ crn.keptDigits := by
  rw [maskCrn, givenCrn.string, crn.digits_length]
  rfl

theorem maskCrnInText_eq {crn : Crn} {given : CrnValue} (givenCrn : CrnGiven crn given)
    (text : Text) :
    maskCrnInText (some text) given =
      some (replaceAll crn.digits (fun _ _ => List.replicate 6 star ++ crn.keptDigits) text) := by
  have supplied : ¬ (given = .undefined ∨ given = .null ∨ given = .text []) := by
    cases givenCrn with
    | number => simp
    | text => simpa using crn.digits_ne_nil
  have plain : dollar ∉ List.replicate 6 star ++ crn.keptDigits := by
    intro member
    rcases List.mem_append.mp member with filling | kept
    · exact absurd (List.eq_of_mem_replicate filling) (by decide)
    · exact crn.digits_spec.2.2 (List.mem_of_mem_drop kept)
  simp only [maskCrnInText, supplied, ↓reduceIte, givenCrn.string, maskCrn_eq givenCrn,
    getSubstitution_of_not_mem _ _ _ plain]

/-- Directly behind an occurrence that `replaceAll` takes, the text goes on with what is
missing of the CRN after some of the digits that the mask keeps. -/
def Rejoined (text : Text) (crn : Crn) : Prop :=
  ∃ part ∈ (split crn.digits text).later, Completes crn.digits crn.keptDigits part

theorem disclosed_iff_rejoined {crn : Crn} {given : CrnValue} (givenCrn : CrnGiven crn given)
    {text masked : Text} (answered : maskCrnInText (some text) given = some masked) :
    crn.digits <:+: masked ↔ Rejoined text crn := by
  rw [maskCrnInText_eq givenCrn] at answered
  cases answered
  refine infix_replaceAll_iff crn.digits_spec.2.1 ?_ (by decide) text
  rw [crn.keptDigits_length, crn.digits_length]
  decide

/-- A CRN is masked in a text: no occurrence is left, and a text without it is unchanged. -/
def Masked (text : Text) (crn : Crn) : Prop :=
  ∀ given, CrnGiven crn given → ∃ masked, maskCrnInText (some text) given = some masked ∧
    ¬ crn.digits <:+: masked ∧ (¬ crn.digits <:+: text → masked = text)

/-- A CRN is masked in a text exactly when no occurrence is followed by the rest of another
one that begins with kept digits. -/
theorem masked_iff_not_rejoined (text : Text) (crn : Crn) :
    Masked text crn ↔ ¬ Rejoined text crn := by
  constructor
  · intro masks rejoined
    obtain ⟨masked, answered, hidden, -⟩ := masks _ .number
    exact hidden ((disclosed_iff_rejoined .number answered).mpr rejoined)
  · intro apart given givenCrn
    have answered := maskCrnInText_eq givenCrn text
    refine ⟨_, answered, ?_, replaceAll_of_avoids crn.digits_ne_nil _⟩
    exact fun inside => apart ((disclosed_iff_rejoined givenCrn answered).mp inside)

/-- The mask keeps `0105`, and `0000105` follows. -/
theorem crn_left_in_masked_text :
    ¬ Masked (codeUnits "10500001050000105") ⟨1050000105, by decide, by decide⟩ := by
  intro masks
  obtain ⟨masked, answered, hidden, -⟩ := masks _ .number
  have left : maskCrnInText (some (codeUnits "10500001050000105"))
      (.number ((1050000105 : Nat) : Int)) = some (codeUnits "******01050000105") := by
    decide +kernel
  rw [left] at answered
  obtain rfl := Option.some.inj answered
  have inside : codeUnits (toString 1050000105) <:+: codeUnits "******01050000105" := by
    decide +kernel
  exact hidden inside

/-- A CRN is hidden in every text exactly when none of its beginnings of at most four digits
is its end as well. -/
theorem hidden_in_every_text_iff (crn : Crn) :
    (∀ text given masked, CrnGiven crn given → maskCrnInText (some text) given = some masked →
        ¬ crn.digits <:+: masked) ↔
      ∀ count, 0 < count → count ≤ 4 → ¬ crn.digits.take count <:+ crn.digits := by
  constructor
  · intro hidden count positive atMost ends
    have short : ¬ crn.digits <:+: crn.digits.drop count := by
      intro inside
      have fits := inside.length_le
      rw [List.length_drop, crn.digits_length] at fits
      omega
    have answered := maskCrnInText_eq (.number : CrnGiven crn _)
      (crn.digits ++ crn.digits.drop count)
    refine hidden _ _ _ .number answered ((disclosed_iff_rejoined .number answered).mpr ?_)
    rw [Rejoined, split_taken crn.digits_ne_nil, split_of_avoids short]
    refine ⟨_, List.mem_singleton_self _, crn.digits.take count, crn.digits.drop count, ?_,
      (List.take_append_drop ..).symm, ?_, List.prefix_refl _⟩
    · exact List.ne_nil_of_length_pos (by rw [List.length_take, crn.digits_length]; omega)
    · refine List.suffix_of_suffix_length_le ends (List.drop_suffix ..) ?_
      rw [crn.keptDigits_length, List.length_take]
      omega
  · intro apart text given masked givenCrn answered inside
    obtain ⟨part, -, overlap, rest, some, whole, ends, -⟩ :=
      (disclosed_iff_rejoined givenCrn answered).mp inside
    refine apart overlap.length (List.length_pos_iff.mpr some) ?_ ?_
    · exact crn.keptDigits_length ▸ ends.length_le
    · have starts : crn.digits.take overlap.length = overlap := by
        rw [whole, List.take_left]
      rw [starts]
      exact ends.trans (List.drop_suffix ..)

end ObjectProcessor
