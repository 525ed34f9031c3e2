/-!
# Reading texts

What the readers of all formats share. A reader takes the text that is left and returns the text
that is left behind what it has read, with the fact that this is shorter, so reading ends because
the text does.
-/

namespace RadioBroker.Text

/-- A text that is left behind a nonempty piece of `cs`. -/
abbrev Shorter (cs : List Char) := { rest : List Char // rest.length < cs.length }

/-- A text that is left behind a piece of `cs`, which may be empty. -/
abbrev NoLonger (cs : List Char) := { rest : List Char // rest.length ≤ cs.length }

/-- What is left behind the first character is shorter. -/
theorem length_lt_cons_self {c : Char} {cs : List Char} : cs.length < (c :: cs).length :=
  Nat.lt_succ_self _

/-- What is left behind a piece of a text is left behind more of it. -/
theorem length_lt_cons {c : Char} {cs rest : List Char} (h : rest.length < cs.length) :
    rest.length < (c :: cs).length := Nat.lt_succ_of_lt h

/-- The value of a hexadecimal digit of either case. -/
def hexDigit? (digit : Char) : Option Nat :=
  if digit.isDigit then some (digit.toNat - '0'.toNat)
  else if 'a' ≤ digit ∧ digit ≤ 'f' then some (digit.toNat - 'a'.toNat + 10)
  else if 'A' ≤ digit ∧ digit ≤ 'F' then some (digit.toNat - 'A'.toNat + 10)
  else none

/-- The number a run of hexadecimal digits writes. -/
def hexValue? (digits : List Char) : Option Nat :=
  digits.foldlM (fun value digit => (hexDigit? digit).map (16 * value + ·)) 0

end RadioBroker.Text
