/-!
# Segments of names

Cutting a name at a mark, joining pieces of a name, and the size of a text in UTF-8 bytes, which
is the unit in which positions in a text are counted.
-/

namespace RadioBroker.Text

/-- The number of bytes of a text in UTF-8. -/
def byteLength (cs : List Char) : Nat := (String.ofList cs).utf8ByteSize

/-- The part of `name` before the first `mark`, or all of it when there is none. -/
def before (mark : Char) (name : String) : String :=
  String.ofList (name.toList.takeWhile (· ≠ mark))

/-- The part of `name` after the last `mark`, or all of it when there is none. -/
def afterLast (mark : Char) (name : String) : String :=
  String.ofList (name.toList.reverse.takeWhile (· ≠ mark)).reverse

/-- The part of `name` before the last `mark`, when there is one. -/
def beforeLast? (mark : Char) (name : String) : Option String :=
  match name.toList.reverse.dropWhile (· ≠ mark) with
  | [] => none
  | _ :: front => some (String.ofList front.reverse)

/-- Pieces in angle brackets, separated by a comma and a space. -/
def angled (pieces : List String) : String :=
  "<" ++ String.intercalate ", " pieces ++ ">"

/-- `path` qualified by `scope`; an empty scope qualifies nothing. -/
def qualify (scope path : String) : String :=
  if scope = "" then path else scope ++ "." ++ path

/-- The bytes of a text are those of its parts. -/
theorem byteLength_append (cs ds : List Char) :
    byteLength (cs ++ ds) = byteLength cs + byteLength ds := by
  rw [byteLength, String.ofList_append, String.utf8ByteSize_append, byteLength, byteLength]

end RadioBroker.Text
