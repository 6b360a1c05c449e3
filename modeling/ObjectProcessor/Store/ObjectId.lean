import Mathlib.Order.Basic
import Mathlib.Order.Defs.LinearOrder
import ObjectProcessor.Library.Hex

/-!
# Database object identifiers

An identifier is twelve bytes, compared as a number.  Its text is the 24
hexadecimal digits the pagination cursor carries.
-/

namespace ObjectProcessor

open Library

@[ext]
structure ObjectId where
  value : Nat
  fits : value < 16 ^ 24
  deriving DecidableEq

namespace ObjectId

instance : LinearOrder ObjectId :=
  LinearOrder.lift' ObjectId.value fun _ _ same => ObjectId.ext same

/-- `id.toHexString()`; `id.toString()` is the same text. -/
def toHexString (id : ObjectId) : String := String.ofList (hexDigits 24 id.value)

/-- `ObjectId.createFromHexString(text)`, which refuses all but 24 digits. -/
def createFromHexString (text : String) : Option ObjectId :=
  if text.length = 24 then
    (readHex text.toList).bind fun value =>
      if fits : value < 16 ^ 24 then some ⟨value, fits⟩ else none
  else
    none

/-- An identifier is recovered from its text. -/
@[simp]
theorem createFromHexString_toHexString (id : ObjectId) :
    createFromHexString id.toHexString = some id := by
  have width : id.toHexString.length = 24 := by simp [toHexString]
  have digits : id.toHexString.toList = hexDigits 24 id.value := by simp [toHexString]
  rw [createFromHexString, if_pos width, digits, readHex_hexDigits id.fits, Option.bind_some,
    dif_pos id.fits]

end ObjectId

end ObjectProcessor
