import Mathlib.Data.Nat.Basic
import Mathlib.Algebra.Order.Group.Nat

/-!
# Fixed-width hexadecimal texts

A number is written with a fixed count of lower-case digits, the most
significant first, and read back digit by digit in either case.
-/

namespace ObjectProcessor.Library

/-- The lower-case digit of a value below sixteen. -/
def hexDigit (value : Nat) : Char :=
  if value < 10 then Char.ofNat (48 + value) else Char.ofNat (87 + value)

/-- The value of a digit of either case. -/
def hexValue? (digit : Char) : Option Nat :=
  let code := digit.toNat
  if 48 ≤ code ∧ code ≤ 57 then some (code - 48)
  else if 97 ≤ code ∧ code ≤ 102 then some (code - 87)
  else if 65 ≤ code ∧ code ≤ 70 then some (code - 55)
  else none

def isHexDigit (digit : Char) : Bool := (hexValue? digit).isSome

/-- The last `width` digits of a number. -/
def hexDigits : Nat → Nat → List Char
  | 0, _ => []
  | width + 1, value => hexDigits width (value / 16) ++ [hexDigit (value % 16)]

/-- Read digits from the most significant one on, continuing from a prefix value. -/
def readHexFrom (prefixValue : Nat) : List Char → Option Nat
  | [] => some prefixValue
  | digit :: rest =>
      (hexValue? digit).bind fun value => readHexFrom (16 * prefixValue + value) rest

def readHex (digits : List Char) : Option Nat := readHexFrom 0 digits

theorem hexValue_hexDigit {value : Nat} (small : value < 16) :
    hexValue? (hexDigit value) = some value := by
  have each : ∀ digit : Fin 16, hexValue? (hexDigit digit) = some digit.val := by decide
  exact each ⟨value, small⟩

@[simp]
theorem length_hexDigits (width value : Nat) : (hexDigits width value).length = width := by
  induction width generalizing value with
  | zero => rfl
  | succ width ih => simp [hexDigits, ih]

theorem readHexFrom_append (prefixValue : Nat) (front rest : List Char) :
    readHexFrom prefixValue (front ++ rest) =
      (readHexFrom prefixValue front).bind fun value => readHexFrom value rest := by
  induction front generalizing prefixValue with
  | nil => rfl
  | cons digit front ih =>
      simp only [List.cons_append, readHexFrom]
      cases hexValue? digit with
      | none => rfl
      | some value => exact ih _

/-- A number is read back from as many digits as it needs. -/
theorem readHex_hexDigits {width value : Nat} (fits : value < 16 ^ width) :
    readHex (hexDigits width value) = some value := by
  induction width generalizing value with
  | zero =>
      have zero : value = 0 := by simpa using fits
      rw [zero]
      rfl
  | succ width ih =>
      have front : readHexFrom 0 (hexDigits width (value / 16)) = some (value / 16) :=
        ih (by rw [Nat.pow_succ] at fits; omega)
      rw [readHex, hexDigits, readHexFrom_append, front]
      simp only [Option.bind_some, readHexFrom,
        hexValue_hexDigit (Nat.mod_lt value (by decide : 0 < 16))]
      rw [Nat.div_add_mod]

/-! ## The texts of digits -/

theorem hexValue_lt {digit : Char} {value : Nat} (isValue : hexValue? digit = some value) :
    value < 16 := by
  simp only [hexValue?] at isValue
  split at isValue
  · cases isValue
    omega
  · split at isValue
    · cases isValue
      omega
    · split at isValue
      · cases isValue
        omega
      · cases isValue

/-- A digit is an ASCII character. -/
theorem toNat_lt_of_isHexDigit {digit : Char} (isDigit : isHexDigit digit = true) :
    digit.toNat < 128 := by
  by_contra beyond
  simp only [isHexDigit, hexValue?] at isDigit
  rw [if_neg (by omega), if_neg (by omega), if_neg (by omega)] at isDigit
  cases isDigit

theorem isHexDigit_of_mem_hexDigits {width value : Nat} {digit : Char}
    (member : digit ∈ hexDigits width value) : isHexDigit digit = true := by
  induction width generalizing value with
  | zero => cases member
  | succ width ih =>
      rcases List.mem_append.mp member with front | last
      · exact ih front
      · rw [List.mem_singleton.mp last, isHexDigit,
          hexValue_hexDigit (Nat.mod_lt value (by decide : 0 < 16))]
        rfl

theorem exists_readHexFrom {digits : List Char} (allDigits : ∀ digit ∈ digits,
    isHexDigit digit = true) (prefixValue : Nat) :
    ∃ value, readHexFrom prefixValue digits = some value ∧
      value < (prefixValue + 1) * 16 ^ digits.length := by
  induction digits generalizing prefixValue with
  | nil => exact ⟨prefixValue, rfl, by simp⟩
  | cons digit rest ih =>
      obtain ⟨isDigit, restDigits⟩ := List.forall_mem_cons.mp allDigits
      obtain ⟨value, isValue⟩ := Option.isSome_iff_exists.mp isDigit
      obtain ⟨read, reads, bound⟩ := ih restDigits (16 * prefixValue + value)
      refine ⟨read, by rw [readHexFrom, isValue]; exact reads, ?_⟩
      have small := hexValue_lt isValue
      calc read < (16 * prefixValue + value + 1) * 16 ^ rest.length := bound
        _ ≤ ((prefixValue + 1) * 16) * 16 ^ rest.length :=
          Nat.mul_le_mul_right _ (by omega)
        _ = (prefixValue + 1) * 16 ^ (digit :: rest).length := by
          rw [List.length_cons, Nat.pow_succ, Nat.mul_assoc, Nat.mul_comm 16]

/-- Digits are always read. -/
theorem exists_readHex {digits : List Char}
    (allDigits : ∀ digit ∈ digits, isHexDigit digit = true) :
    ∃ value, readHex digits = some value ∧ value < 16 ^ digits.length := by
  obtain ⟨value, reads, bound⟩ := exists_readHexFrom allDigits 0
  exact ⟨value, reads, by simpa using bound⟩

end ObjectProcessor.Library
