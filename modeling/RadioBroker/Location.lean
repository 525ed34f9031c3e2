/-!
# Places in declaring files

Where a declaration, a method or an attribute is written, as far as that is known: a file, and a
range of byte offsets in it.
-/

namespace RadioBroker

/-- A range of byte offsets in a file. Both the file and the range may be unknown. -/
structure Location where
  /-- The declaring file, when it is known. -/
  file : Option String := none
  /-- The offset of the first byte. -/
  start : Nat := 0
  /-- The offset behind the last byte. -/
  stop : Nat := 0
deriving DecidableEq, Inhabited, Repr

namespace Location

/-- Nothing is known. -/
def unknown : Location := {}

/-- Offsets are words of 32 bits. -/
def offsetLimit : Nat := 0x100000000

/-- The number of bytes; a range that ends before it starts has none. -/
def length (place : Location) : Nat := place.stop - place.start

/-- Whether the range holds no byte. -/
def isEmpty (place : Location) : Bool := place.length = 0

/-- Whether neither a file nor a nonempty range is known. -/
def isUnknown (place : Location) : Bool := place.file.isNone && place.isEmpty

/-- The written form of a place, such as `Calc.cs@4..10`. -/
def display (place : Location) : String :=
  place.file.getD "<memory>" ++ "@" ++ toString place.start ++ ".." ++ toString place.stop

end Location

end RadioBroker
