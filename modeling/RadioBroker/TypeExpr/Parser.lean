import RadioBroker.Text.Alphanumeric
import RadioBroker.Text.Blank
import RadioBroker.Text.Reading
import RadioBroker.TypeExpr.Basic

/-!
# Reading type expressions

`TypeExpr.parse` reads one written type. Blanks may stand between its parts. A
reader that fails says where by the text that is left there; `parse` turns that into a byte offset.
-/

namespace RadioBroker.TypeExpr

open Text (NoLonger Shorter)

/-- Why a text is not a type. -/
inductive ParseError where
  /-- A type was expected and the text ended. -/
  | empty
  /-- A character at a byte offset that neither continues nor ends the type before it. -/
  | unexpectedChar (found : Char) (offset : Nat)
  /-- A bracket, opened at a byte offset, that is not closed. -/
  | unclosed (opener : Char) (offset : Nat)
  /-- Something at a byte offset behind a whole type. -/
  | trailingInput (offset : Nat)
deriving DecidableEq, Repr

namespace ParseError

/-- The byte offset an error points at. -/
def offset? : ParseError → Option Nat
  | empty => none
  | unexpectedChar _ offset | unclosed _ offset | trailingInput offset => some offset

/-- The text of an error. -/
def message : ParseError → String
  | empty => "empty type reference"
  | unexpectedChar found offset =>
    "unexpected '" ++ found.toString ++ "' at offset " ++ toString offset ++ " in type reference"
  | unclosed opener offset =>
    "unclosed '" ++ opener.toString ++ "' opened at offset " ++ toString offset ++
      " in type reference"
  | trailingInput offset => "trailing input at offset " ++ toString offset ++ " in type reference"

end ParseError

/-- Why a reader stops, with the text that is left at the place it points at. -/
inductive Failure where
  /-- A type was expected and the text ended. -/
  | missing
  /-- `found` stands where it cannot, in front of `rest`. -/
  | unexpected (found : Char) (rest : List Char)
  /-- `opener`, in front of `rest`, is not closed. -/
  | unclosed (opener : Char) (rest : List Char)

/-- The error a failure stands for in the text `input`. -/
def Failure.toError (input : List Char) : Failure → ParseError
  | missing => .empty
  | unexpected found rest =>
    .unexpectedChar found (Text.byteLength input - Text.byteLength (found :: rest))
  | unclosed opener rest =>
    .unclosed opener (Text.byteLength input - Text.byteLength (opener :: rest))

/-- Whether `c` may stand in the name of a type. -/
def isNameChar (c : Char) : Bool :=
  Text.isAlphanumeric c || c == '_' || c == '.' || c == '@' || c == ':'

/-- Reads up to the bracket that closes `depth + 1` open ones, that bracket included. -/
def readTuple (depth : Nat) : (cs : List Char) → Option (List Char × Shorter cs)
  | [] => none
  | c :: cs =>
    let deeper? : Option Nat :=
      if c = '(' then some (depth + 1)
      else if c = ')' then (match depth with | 0 => none | d + 1 => some d)
      else some depth
    match deeper? with
    | none => some ([c], ⟨cs, Text.length_lt_cons_self⟩)
    | some deeper =>
      match readTuple deeper cs with
      | none => none
      | some (text, ⟨rest, hrest⟩) => some (c :: text, ⟨rest, Text.length_lt_cons hrest⟩)

/-- Reads the head of a type: a name that does not start with a dot, or a tuple. -/
def readHead : (cs : List Char) → Except Failure (String × Shorter cs)
  | [] => .error .missing
  | c :: cs =>
    if c = '(' then
      match readTuple 0 cs with
      | none => .error (.unclosed c cs)
      | some (text, ⟨rest, hrest⟩) =>
        .ok (String.ofList (c :: text), ⟨rest, Text.length_lt_cons hrest⟩)
    else if isNameChar c && c != '.' then
      .ok (String.ofList (c :: cs.takeWhile isNameChar), ⟨cs.dropWhile isNameChar,
        Nat.lt_succ_of_le (List.dropWhile_sublist isNameChar).length_le⟩)
    else .error (.unexpected c cs)

/-- Reads the commas of an array rank up to its closing bracket. `opened` is the text behind the
opening one. -/
def readRank (opened : List Char) : (cs : List Char) → Except Failure (List Char × Shorter cs)
  | [] => .error (.unclosed '[' opened)
  | c :: cs =>
    if c = ']' then .ok ([']'], ⟨cs, Text.length_lt_cons_self⟩)
    else if c = ',' then do
      let (marks, ⟨rest, hrest⟩) ← readRank opened cs
      .ok (',' :: marks, ⟨rest, Text.length_lt_cons hrest⟩)
    else if Text.isBlank c then do
      let (marks, ⟨rest, hrest⟩) ← readRank opened cs
      .ok (marks, ⟨rest, Text.length_lt_cons hrest⟩)
    else .error (.unexpected c cs)

/-- Reads the marks behind a type, without the blanks between them. -/
def readMarks (cs : List Char) : Except Failure (List Char × NoLonger cs) :=
  match hcs : Text.skipBlanks cs with
  | [] => .ok ([], ⟨[], Nat.zero_le _⟩)
  | c :: after =>
    have hafter : after.length < cs.length := by
      have := Text.length_skipBlanks_le cs
      rw [hcs] at this
      exact this
    if c = '?' ∨ c = '*' then do
      let (marks, ⟨rest, hrest⟩) ← readMarks after
      .ok (c :: marks, ⟨rest, Nat.le_trans hrest (Nat.le_of_lt hafter)⟩)
    else if c = '[' then do
      let (rank, ⟨behind, hbehind⟩) ← readRank after after
      let (marks, ⟨rest, hrest⟩) ← readMarks behind
      .ok ('[' :: rank ++ marks,
        ⟨rest, Nat.le_of_lt (Nat.lt_of_le_of_lt hrest (Nat.lt_trans hbehind hafter))⟩)
    else .ok ([], ⟨c :: after, hafter⟩)
termination_by cs.length

mutual

/-- Reads a type. -/
def readType (cs : List Char) : Except Failure (TypeExpr × Shorter cs) := do
  let (head, ⟨afterHead, hhead⟩) ← readHead (Text.skipBlanks cs)
  have hstart := Text.length_skipBlanks_le cs
  let (arguments, ⟨afterArguments, harguments⟩) ← readArguments afterHead
  let (marks, ⟨rest, hrest⟩) ← readMarks afterArguments
  .ok (⟨head, arguments, String.ofList marks⟩,
    ⟨rest, Nat.lt_of_le_of_lt (Nat.le_trans hrest harguments) (Nat.lt_of_lt_of_le hhead hstart)⟩)
termination_by 3 * cs.length + 1

/-- Reads the generic arguments in front of the marks, if there are any. -/
def readArguments (cs : List Char) : Except Failure (List TypeExpr × NoLonger cs) :=
  match hcs : Text.skipBlanks cs with
  | '<' :: opened => do
    have hopened : opened.length < cs.length := by
      have := Text.length_skipBlanks_le cs
      rw [hcs] at this
      exact this
    let (arguments, ⟨rest, hrest⟩) ← readArgumentList opened opened
    .ok (arguments, ⟨rest, Nat.le_of_lt (Nat.lt_trans hrest hopened)⟩)
  | rest => .ok ([], ⟨rest, hcs ▸ Text.length_skipBlanks_le cs⟩)
termination_by 3 * cs.length

/-- Reads generic arguments up to the closing bracket. `opened` is the text behind the opening
one. -/
def readArgumentList (opened cs : List Char) :
    Except Failure (List TypeExpr × Shorter cs) := do
  let (first, ⟨behind, hbehind⟩) ← readType cs
  match hcs : Text.skipBlanks behind with
  | [] => .error (.unclosed '<' opened)
  | c :: after =>
    have hafter : after.length < behind.length := by
      have := Text.length_skipBlanks_le behind
      rw [hcs] at this
      exact this
    if c = ',' then do
      let (others, ⟨rest, hrest⟩) ← readArgumentList opened after
      .ok (first :: others, ⟨rest, Nat.lt_trans hrest (Nat.lt_trans hafter hbehind)⟩)
    else if c = '>' then .ok ([first], ⟨after, Nat.lt_trans hafter hbehind⟩)
    else .error (.unexpected c after)
termination_by 3 * cs.length + 2

end

/-- The type that `cs` writes. -/
def parseChars (cs : List Char) : Except ParseError TypeExpr :=
  if Text.skipBlanks cs = [] then .error .empty
  else
    match readType cs with
    | .error failure => .error (failure.toError cs)
    | .ok (t, rest) =>
      match Text.skipBlanks rest.1 with
      | [] => .ok t
      | left => .error (.trailingInput (Text.byteLength cs - Text.byteLength left))

/-- The type that `text` writes. -/
def parse (text : String) : Except ParseError TypeExpr :=
  parseChars text.toList

end RadioBroker.TypeExpr
