import Mathlib.Data.List.TakeWhile
import ObjectProcessor.Library.Uuid

/-!
# Calendar times as texts

Numbers are padded to a fixed width and read back.  A time is written in the ISO
format with milliseconds, which is a date-time of the Internet profile: a full
date, a time of day with an optional fraction, and an offset.
-/

namespace ObjectProcessor.Library

/-- `String(value).padStart(width, '0')` -/
def padStart (width value : Nat) : List Char :=
  List.replicate (width - (Nat.toDigits 10 value).length) '0' ++ Nat.toDigits 10 value

theorem length_padStart {width value : Nat} (wide : 0 < width) (fits : value < 10 ^ width) :
    (padStart width value).length = width := by
  have short := (Nat.length_toDigits_le_iff (by decide) wide).mpr fits
  rw [padStart, List.length_append, List.length_replicate]
  omega

theorem isDigit_of_mem_padStart {width value : Nat} {char : Char}
    (member : char ∈ padStart width value) : char.isDigit = true := by
  rcases List.mem_append.mp member with zero | digit
  · rw [List.eq_of_mem_replicate zero]
    rfl
  · exact Nat.isDigit_of_mem_toDigits (by decide) (by decide) digit

theorem ofDigitChars_padStart (width value : Nat) :
    Nat.ofDigitChars 10 (padStart width value) 0 = value := by
  rw [padStart, Nat.ofDigitChars_append, Nat.ofDigitChars_replicate_zero, Nat.mul_zero,
    Nat.ofDigitChars_ten_toDigits]

/-- A number of exactly `width` digits, and what follows it. -/
def takeNumber (width : Nat) (text : List Char) : Option (Nat × List Char) :=
  let digits := text.take width
  if digits.length = width ∧ digits.all Char.isDigit = true then
    some (Nat.ofDigitChars 10 digits 0, text.drop width)
  else
    none

/-- A padded number is read back. -/
theorem takeNumber_padStart {width value : Nat} (wide : 0 < width) (fits : value < 10 ^ width)
    (rest : List Char) : takeNumber width (padStart width value ++ rest) = some (value, rest) := by
  have length := length_padStart wide fits
  have digits : (padStart width value ++ rest).take width = padStart width value := by
    rw [List.take_append_of_le_length (by omega), List.take_of_length_le (by omega)]
  have after : (padStart width value ++ rest).drop width = rest := by
    rw [List.drop_append_of_le_length (by omega), List.drop_of_length_le (by omega),
      List.nil_append]
  have allDigits : (padStart width value).all Char.isDigit = true :=
    List.all_eq_true.mpr fun char member => isDigit_of_mem_padStart member
  rw [takeNumber, digits, after, if_pos ⟨length, allDigits⟩, ofDigitChars_padStart]

/-- The number of digits of a number in a decimal range. -/
theorem length_toDigits {width value : Nat} (least : 10 ^ width ≤ value)
    (greatest : value < 10 ^ (width + 1)) : (Nat.toDigits 10 value).length = width + 1 := by
  have short := (Nat.length_toDigits_le_iff (by decide) (Nat.succ_pos width)).mpr greatest
  rcases Nat.eq_zero_or_pos width with rfl | wide
  · have nonempty : 0 < (Nat.toDigits 10 value).length := Nat.length_toDigits_pos
    omega
  · have long : ¬ (Nat.toDigits 10 value).length ≤ width := fun within =>
      Nat.not_lt.mpr least ((Nat.length_toDigits_le_iff (by decide) wide).mp within)
    omega

/-! ## Times -/

def isLeapYear (year : Nat) : Bool := year % 4 = 0 && (year % 100 ≠ 0 || year % 400 = 0)

def daysInMonth (year month : Nat) : Nat :=
  if month = 2 then if isLeapYear year then 29 else 28
  else if month = 4 ∨ month = 6 ∨ month = 9 ∨ month = 11 then 30
  else 31

/-- A moment as the calendar and the clock of some zone show it. -/
structure CalendarTime where
  year : Nat
  month : Nat
  day : Nat
  hour : Nat
  minute : Nat
  second : Nat
  millisecond : Nat
  fourDigits : 1000 ≤ year ∧ year < 10000
  isMonth : 1 ≤ month ∧ month ≤ 12
  isDay : 1 ≤ day ∧ day ≤ daysInMonth year month
  ofDay : hour < 24 ∧ minute < 60 ∧ second < 60 ∧ millisecond < 1000

theorem daysInMonth_le (year month : Nat) : daysInMonth year month ≤ 31 := by
  unfold daysInMonth
  split_ifs <;> omega

/-- `date.toISOString()` of a moment shown in universal time. -/
def toISOString (time : CalendarTime) : String :=
  .ofList (padStart 4 time.year ++ '-' :: (padStart 2 time.month ++ '-' ::
    (padStart 2 time.day ++ 'T' :: (padStart 2 time.hour ++ ':' ::
      (padStart 2 time.minute ++ ':' :: (padStart 2 time.second ++ '.' ::
        (padStart 3 time.millisecond ++ ['Z'])))))))

/-- What follows an optional fraction of a second. -/
def skipFraction : List Char → Option (List Char)
  | '.' :: rest =>
      let after := rest.dropWhile Char.isDigit
      if after.length < rest.length then some after else none
  | text => some text

/-- The offset from universal time: `Z`, or hours and minutes with a sign. -/
def isOffset : List Char → Bool
  | ['Z'] | ['z'] => true
  | sign :: rest =>
      (sign = '+' || sign = '-') &&
        (takeNumber 2 rest).any fun hours =>
          (skipOne (· = ':') hours.2).any fun rest =>
            (takeNumber 2 rest).any fun minutes =>
              hours.1 < 24 && minutes.1 < 60 && minutes.2 = []
  | [] => false

/-- A date-time of the Internet profile.  A minute may have a leap second. -/
def isDateTime (text : String) : Bool :=
  (takeNumber 4 text.toList).any fun year =>
    (skipOne (· = '-') year.2).any fun rest => (takeNumber 2 rest).any fun month =>
    (skipOne (· = '-') month.2).any fun rest => (takeNumber 2 rest).any fun day =>
    (skipOne (fun char => char = 'T' || char = 't') day.2).any fun rest =>
    (takeNumber 2 rest).any fun hour =>
    (skipOne (· = ':') hour.2).any fun rest => (takeNumber 2 rest).any fun minute =>
    (skipOne (· = ':') minute.2).any fun rest => (takeNumber 2 rest).any fun second =>
    (skipFraction second.2).any fun rest =>
      1 ≤ month.1 && month.1 ≤ 12 && 1 ≤ day.1 && day.1 ≤ daysInMonth year.1 month.1 &&
        hour.1 < 24 && minute.1 < 60 && second.1 ≤ 60 && isOffset rest

theorem skipFraction_padStart (value : Nat) (fits : value < 1000) :
    skipFraction ('.' :: (padStart 3 value ++ ['Z'])) = some ['Z'] := by
  have after : (padStart 3 value ++ ['Z']).dropWhile Char.isDigit = ['Z'] := by
    rw [List.dropWhile_append_of_pos fun char member => isDigit_of_mem_padStart member]
    rfl
  have length := length_padStart (by decide : 0 < 3) fits
  simp [skipFraction, after, length]

/-- An ISO text of a moment is a date-time. -/
theorem isDateTime_toISOString (time : CalendarTime) : isDateTime (toISOString time) = true := by
  have days := daysInMonth_le time.year time.month
  obtain ⟨_, yearFits⟩ := time.fourDigits
  obtain ⟨firstMonth, lastMonth⟩ := time.isMonth
  obtain ⟨firstDay, lastDay⟩ := time.isDay
  obtain ⟨hour, minute, second, millisecond⟩ := time.ofDay
  simp only [isDateTime, toISOString, String.toList_ofList, skipOne, ↓reduceIte, decide_true,
    Bool.true_or, Option.any_some, skipFraction_padStart _ millisecond,
    takeNumber_padStart (by decide : 0 < 4) yearFits,
    takeNumber_padStart (by decide : 0 < 2) (by omega : time.month < 10 ^ 2),
    takeNumber_padStart (by decide : 0 < 2) (by omega : time.day < 10 ^ 2),
    takeNumber_padStart (by decide : 0 < 2) (by omega : time.hour < 10 ^ 2),
    takeNumber_padStart (by decide : 0 < 2) (by omega : time.minute < 10 ^ 2),
    takeNumber_padStart (by decide : 0 < 2) (by omega : time.second < 10 ^ 2)]
  simp [isOffset, firstMonth, lastMonth, firstDay, lastDay, hour, minute, Nat.le_of_lt second]

end ObjectProcessor.Library
