import RadioBroker.Json.Basic

/-!
# Numbers in JSON

What a number means once its digits are read. A whole number of 64 bits is an integer. Every other
number is a decimal and has to be in the range of doubles, or the text that holds it is malformed.

A decimal is computed as a word of 64 bits times a power of ten: the word takes the digits in front
as far as they fit, the power makes up for the others. Word and power are rounded to doubles, and so
is their product, so this computation and not the number as it is written decides what is in range.
-/

namespace RadioBroker.Json

/-- The value of a decimal digit. -/
def digitValue (digit : Char) : Nat := digit.toNat - '0'.toNat

/-- The number a run of decimal digits writes. -/
def decimalValue (digits : List Char) : Nat :=
  digits.foldl (fun value digit => 10 * value + digitValue digit) 0

/-- Appends digits to a word up to the first one that does not fit. The word, and the number of the
digits that are left out. -/
def appendDigits (word : Nat) : List Char → Nat × Nat
  | [] => (word, 0)
  | digit :: digits =>
    let next := 10 * word + digitValue digit
    if next < 0x10000000000000000 then appendDigits next digits else (word, digits.length + 1)

/-- A natural number rounded to 53 significant bits, which are those of a double. A tie goes to the
even neighbour. -/
def roundToDouble (value : Nat) : Nat :=
  let unit := 1 <<< (value.log2 + 1 - 53)
  let below := value / unit
  let excess := value % unit
  if 2 * excess < unit || (2 * excess == unit && below % 2 == 0) then below * unit
  else (below + 1) * unit

/-- The least number that is rounded to more than the largest double. -/
def doubleLimit : Nat := 1 <<< 1024 - 1 <<< 970

/-- The largest power of ten that is a double. -/
def powerLimit : Nat := 308

/-- Whether `word * 10 ^ exponent`, computed in doubles, is more than the largest double. -/
def exceedsDouble (word : Nat) (exponent : Int) : Bool :=
  word ≠ 0 && exponent ≥ 0 &&
    (exponent > powerLimit ||
      roundToDouble word * roundToDouble (Nat.pow 10 exponent.toNat) ≥ doubleLimit)

/-- The value of a number, or nothing if it is out of range. `whole` are the digits in front of the
point and `fraction` those behind it, which follow the others into the word; `exponent` is the
power of ten that is written, and `written` the number itself. -/
def numberValue? (negative : Bool) (whole : List Char) (fraction : Option (List Char))
    (exponent : Option Int) (written : List Char) : Option Json :=
  let places := fraction.getD []
  let (front, dropped) := appendDigits 0 whole
  let (word, unused) := appendDigits front places
  let scale := exponent.getD 0 + dropped - ((places.length - unused : Nat) : Int)
  let isWord := fraction.isNone && exponent.isNone && dropped == 0
  if isWord && !negative then some (.integer front)
  else if isWord && 0 < front && front ≤ 0x8000000000000000 then some (.integer (-(front : Int)))
  else if exceedsDouble word scale then none
  else some (.decimal (String.ofList written))

end RadioBroker.Json
