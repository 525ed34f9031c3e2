import RadioBroker.Json.Number
import RadioBroker.Text.Reading
import RadioBroker.Text.Segment

/-!
# Reading JSON

A strict reader: no comments, no trailing commas, no byte order mark, at most 127 arrays and objects
inside each other. `Json.parse` reads a whole text. The readers of single tokens are shared with the
readers that match a text against a shape while they read it.

Each reader takes the text that is left and returns the text that is left behind what it has read,
with the fact that this is shorter.
-/

namespace RadioBroker.Json

open Text (NoLonger Shorter)

/-- Whether `c` may stand between tokens. -/
def isSpace (c : Char) : Bool := c == ' ' || c == '\t' || c == '\n' || c == '\r'

/-- Drops the space at the front of a text. -/
def skipSpace (cs : List Char) : List Char := cs.dropWhile isSpace

theorem length_skipSpace_le (cs : List Char) : (skipSpace cs).length ≤ cs.length :=
  (List.dropWhile_sublist isSpace).length_le

/-- Reads the letters of a literal. -/
def readLetters : (letters cs : List Char) → Except ReadError (NoLonger cs)
  | [], cs => .ok ⟨cs, Nat.le_refl _⟩
  | _ :: _, [] => .error .truncated
  | letter :: letters, c :: cs =>
    if c = letter then do
      let ⟨rest, hrest⟩ ← readLetters letters cs
      .ok ⟨rest, Nat.le_succ_of_le hrest⟩
    else .error .malformed

/-- Reads the four digits of an escaped code unit. A text of fewer than four bytes ends too
early, whatever it holds. -/
def readCodeUnit (cs : List Char) : Except ReadError (Nat × NoLonger cs) :=
  if Text.byteLength (cs.take 4) < 4 then .error .truncated
  else
    match Text.hexValue? (cs.take 4) with
    | none => .error .malformed
    | some value => .ok (value, ⟨cs.drop 4, by simp⟩)

/-- Reads the character behind an escaping backslash and `u`. Code units above the basic plane are
written as a pair. -/
def readEscapedChar (cs : List Char) : Except ReadError (Char × NoLonger cs) := do
  let (unit, ⟨rest, hrest⟩) ← readCodeUnit cs
  if 0xDC00 ≤ unit ∧ unit ≤ 0xDFFF then .error .malformed
  else if unit < 0xD800 ∨ 0xDBFF < unit then .ok (Char.ofNat unit, ⟨rest, hrest⟩)
  else
    match rest, hrest with
    | [], _ => .error .truncated
    | '\\' :: [], _ => .error .truncated
    | '\\' :: 'u' :: low, hlow => do
      let (second, ⟨behind, hbehind⟩) ← readCodeUnit low
      if 0xDC00 ≤ second ∧ second ≤ 0xDFFF then
        .ok (Char.ofNat (0x10000 + (unit - 0xD800) * 0x400 + (second - 0xDC00)),
          ⟨behind, by simp at hlow; omega⟩)
      else .error .malformed
    | _, _ => .error .malformed

/-- Reads the rest of a string, its closing quote included. -/
def readStringRest : (cs : List Char) → Except ReadError (List Char × Shorter cs)
  | [] => .error .truncated
  | '"' :: cs => .ok ([], ⟨cs, Text.length_lt_cons_self⟩)
  | '\\' :: [] => .error .truncated
  | '\\' :: 'u' :: cs => do
    let (c, ⟨behind, hbehind⟩) ← readEscapedChar cs
    let (text, ⟨rest, hrest⟩) ← readStringRest behind
    .ok (c :: text,
      ⟨rest, Text.length_lt_cons (Text.length_lt_cons (Nat.lt_of_lt_of_le hrest hbehind))⟩)
  | '\\' :: escape :: cs => do
    let c ← match escape with
      | '"' => .ok '"'
      | '\\' => .ok '\\'
      | '/' => .ok '/'
      | 'b' => .ok '\x08'
      | 'f' => .ok '\x0c'
      | 'n' => .ok '\n'
      | 'r' => .ok '\r'
      | 't' => .ok '\t'
      | _ => .error .malformed
    let (text, ⟨rest, hrest⟩) ← readStringRest cs
    .ok (c :: text, ⟨rest, Text.length_lt_cons (Text.length_lt_cons hrest)⟩)
  | c :: cs =>
    if c.toNat < 0x20 then .error .malformed
    else do
      let (text, ⟨rest, hrest⟩) ← readStringRest cs
      .ok (c :: text, ⟨rest, Text.length_lt_cons hrest⟩)
termination_by cs => cs.length
decreasing_by
  · exact Text.length_lt_cons (Nat.lt_succ_of_le ‹_›)
  · exact Text.length_lt_cons (Nat.lt_succ_self _)
  · exact Nat.lt_succ_self _

/-- Reads a nonempty run of digits. -/
def readDigits : (cs : List Char) → Except ReadError (List Char × Shorter cs)
  | [] => .error .truncated
  | c :: cs =>
    if c.isDigit then
      .ok (c :: cs.takeWhile Char.isDigit, ⟨cs.dropWhile Char.isDigit,
        Nat.lt_succ_of_le (List.dropWhile_sublist Char.isDigit).length_le⟩)
    else .error .malformed

/-- Reads the digits in front of point and exponent, which start with a zero only if they are
one. -/
def readWhole : (cs : List Char) → Except ReadError (List Char × Shorter cs)
  | '0' :: cs =>
    if (cs.head?.map Char.isDigit).getD false then .error .malformed
    else .ok (['0'], ⟨cs, Text.length_lt_cons_self⟩)
  | cs => readDigits cs

/-- Reads the digits behind a point, if there is one. -/
def readFraction : (cs : List Char) → Except ReadError (Option (List Char) × NoLonger cs)
  | '.' :: cs => do
    let (digits, ⟨rest, hrest⟩) ← readDigits cs
    .ok (some digits, ⟨rest, Nat.le_of_lt (Nat.lt_succ_of_lt hrest)⟩)
  | cs => .ok (none, ⟨cs, Nat.le_refl _⟩)

/-- Reads an exponent, if there is one. -/
def readExponent : (cs : List Char) → Except ReadError (Option Int × NoLonger cs)
  | [] => .ok (none, ⟨[], Nat.le_refl _⟩)
  | c :: cs =>
    if c = 'e' ∨ c = 'E' then
      match cs with
      | '+' :: behind => do
        let (digits, ⟨rest, hrest⟩) ← readDigits behind
        .ok (some (decimalValue digits), ⟨rest, by simp; omega⟩)
      | '-' :: behind => do
        let (digits, ⟨rest, hrest⟩) ← readDigits behind
        .ok (some (-(decimalValue digits : Int)), ⟨rest, by simp; omega⟩)
      | behind => do
        let (digits, ⟨rest, hrest⟩) ← readDigits behind
        .ok (some (decimalValue digits), ⟨rest, by simp; omega⟩)
    else .ok (none, ⟨c :: cs, Nat.le_refl _⟩)

/-- Reads a number behind its sign. -/
def readNumber (negative : Bool) (cs : List Char) : Except ReadError (Json × Shorter cs) := do
  let (whole, ⟨afterWhole, hwhole⟩) ← readWhole cs
  let (fraction, ⟨afterFraction, hfraction⟩) ← readFraction afterWhole
  let (exponent, ⟨rest, hrest⟩) ← readExponent afterFraction
  let written := (if negative then ['-'] else []) ++ cs.take (cs.length - rest.length)
  match numberValue? negative whole fraction exponent written with
  | none => .error .malformed
  | some value => .ok (value, ⟨rest, by omega⟩)

/-- Reads a value that is neither an array nor an object. The first character decides which. -/
def readScalar : (cs : List Char) → Except ReadError (Json × Shorter cs)
  | [] => .error .truncated
  | 'n' :: cs => do
    let ⟨rest, hrest⟩ ← readLetters ['u', 'l', 'l'] cs
    .ok (.null, ⟨rest, Nat.lt_succ_of_le hrest⟩)
  | 't' :: cs => do
    let ⟨rest, hrest⟩ ← readLetters ['r', 'u', 'e'] cs
    .ok (.bool true, ⟨rest, Nat.lt_succ_of_le hrest⟩)
  | 'f' :: cs => do
    let ⟨rest, hrest⟩ ← readLetters ['a', 'l', 's', 'e'] cs
    .ok (.bool false, ⟨rest, Nat.lt_succ_of_le hrest⟩)
  | '"' :: cs => do
    let (text, ⟨rest, hrest⟩) ← readStringRest cs
    .ok (.string (String.ofList text), ⟨rest, Text.length_lt_cons hrest⟩)
  | '-' :: cs => do
    let (value, ⟨rest, hrest⟩) ← readNumber true cs
    .ok (value, ⟨rest, Text.length_lt_cons hrest⟩)
  | c :: cs => if c.isDigit then readNumber false (c :: cs) else .error .malformed

/-- What stands next in an array. -/
inductive ElementStep (cs : List Char) where
  /-- The closing bracket, and what is left behind it. -/
  | close (rest : Shorter cs)
  /-- An element starts. -/
  | element (rest : NoLonger cs)

/-- Looks for the next element of an array, past the comma that every element but the `first`
needs. -/
def nextElement (first : Bool) (cs : List Char) : Except ReadError (ElementStep cs) :=
  have hskip := length_skipSpace_le cs
  match hcs : skipSpace cs with
  | [] => .error .truncated
  | c :: after =>
    have hafter : after.length < cs.length := by rw [hcs] at hskip; exact hskip
    if c = ']' then .ok (.close ⟨after, hafter⟩)
    else if first then .ok (.element ⟨c :: after, hafter⟩)
    else if c = ',' then
      have hbehind := length_skipSpace_le after
      match hafter : skipSpace after with
      | [] => .error .truncated
      | d :: behind =>
        if d = ']' then .error .malformed
        else .ok (.element ⟨d :: behind, by rw [hafter] at hbehind; omega⟩)
    else .error .malformed

/-- What stands next in an object. -/
inductive MemberStep (cs : List Char) where
  /-- The closing brace, and what is left behind it. -/
  | close (rest : Shorter cs)
  /-- A key, and what is left behind it. -/
  | key (name : String) (rest : Shorter cs)

/-- Looks for the next member of an object, past the comma that every member but the `first`
needs, and reads its key. -/
def nextMember (first : Bool) (cs : List Char) : Except ReadError (MemberStep cs) :=
  have hskip := length_skipSpace_le cs
  match hcs : skipSpace cs with
  | [] => .error .truncated
  | '}' :: after => .ok (.close ⟨after, by rw [hcs] at hskip; exact hskip⟩)
  | '"' :: after =>
    if first then do
      let (name, ⟨rest, hrest⟩) ← readStringRest after
      .ok (.key (String.ofList name) ⟨rest, by rw [hcs] at hskip; simp at hskip; omega⟩)
    else .error .malformed
  | ',' :: after =>
    if first then .error .malformed
    else
      have hbehind := length_skipSpace_le after
      match hafter : skipSpace after with
      | [] => .error .truncated
      | '"' :: behind => do
        let (name, ⟨rest, hrest⟩) ← readStringRest behind
        .ok (.key (String.ofList name)
          ⟨rest, by rw [hcs] at hskip; rw [hafter] at hbehind; simp at hskip hbehind; omega⟩)
      | _ => .error .malformed
  | _ => .error .malformed

/-- Reads the colon between a key and its value. -/
def readColon (cs : List Char) : Except ReadError (Shorter cs) :=
  have hskip := length_skipSpace_le cs
  match hcs : skipSpace cs with
  | [] => .error .truncated
  | ':' :: rest => .ok ⟨rest, by rw [hcs] at hskip; exact hskip⟩
  | _ => .error .malformed

mutual

/-- Reads a value with at most `depth` arrays and objects inside each other, itself included. -/
def readValue (depth : Nat) (cs : List Char) : Except ReadError (Json × Shorter cs) :=
  have hskip := length_skipSpace_le cs
  match hcs : skipSpace cs with
  | '[' :: opened =>
    match depth with
    | 0 => .error .malformed
    | depth + 1 => do
      have hopened : opened.length < cs.length := by rw [hcs] at hskip; exact hskip
      let (elements, ⟨rest, hrest⟩) ← readElements depth true opened
      .ok (.array elements, ⟨rest, by omega⟩)
  | '{' :: opened =>
    match depth with
    | 0 => .error .malformed
    | depth + 1 => do
      have hopened : opened.length < cs.length := by rw [hcs] at hskip; exact hskip
      let (members, ⟨rest, hrest⟩) ← readMembers depth true opened
      .ok (.object members, ⟨rest, by omega⟩)
  | start => do
    let (value, ⟨rest, hrest⟩) ← readScalar start
    .ok (value, ⟨rest, by rw [hcs] at hskip; omega⟩)
termination_by 2 * cs.length

/-- Reads the elements of an array and its closing bracket. -/
def readElements (depth : Nat) (first : Bool) (cs : List Char) :
    Except ReadError (List Json × Shorter cs) := do
  match ← nextElement first cs with
  | .close rest => .ok ([], rest)
  | .element ⟨start, hstart⟩ =>
    let (value, ⟨behind, hbehind⟩) ← readValue depth start
    let (values, ⟨rest, hrest⟩) ← readElements depth false behind
    .ok (value :: values, ⟨rest, by omega⟩)
termination_by 2 * cs.length + 1

/-- Reads the members of an object and its closing brace. -/
def readMembers (depth : Nat) (first : Bool) (cs : List Char) :
    Except ReadError (List (String × Json) × Shorter cs) := do
  match ← nextMember first cs with
  | .close rest => .ok ([], rest)
  | .key name ⟨afterKey, hkey⟩ =>
    let ⟨start, hstart⟩ ← readColon afterKey
    let (value, ⟨behind, hbehind⟩) ← readValue depth start
    let (members, ⟨rest, hrest⟩) ← readMembers depth false behind
    .ok ((name, value) :: members, ⟨rest, by omega⟩)
termination_by 2 * cs.length + 1

end

/-- How many arrays and objects may stand inside each other. -/
def depthLimit : Nat := 127

/-- Fails unless only space is left. -/
def expectEnd (cs : List Char) : Except ReadError Unit :=
  if skipSpace cs = [] then .ok () else .error .malformed

/-- The value at the front of a text, and what is left behind it. -/
def parseFront (text : String) : Except ReadError (Json × List Char) := do
  let (value, rest) ← readValue depthLimit text.toList
  .ok (value, rest.1)

/-- The value that a text holds. -/
def parse (text : String) : Except ReadError Json := do
  let (value, rest) ← parseFront text
  expectEnd rest
  .ok value

end RadioBroker.Json
