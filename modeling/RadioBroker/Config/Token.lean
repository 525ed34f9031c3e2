import RadioBroker.Text.Reading

/-!
# Tokens of configuration files

Configuration files are written in a small TOML. `Config.readTokens` cuts a text into words, strings
on one line, marks and ends of lines. Space and comments mean nothing and leave no token. Characters
that only values of other kinds are written with are refused, since no setting has such a value.
-/

namespace RadioBroker.Config

open Text (Shorter)

/-- A piece of a configuration file. -/
inductive Token where
  /-- A run of letters, digits, underscores and hyphens. -/
  | word (text : String)
  /-- The text of a string. -/
  | quoted (text : String)
  /-- One of the characters that stand for themselves. -/
  | mark (sign : Char)
  | lineEnd
deriving DecidableEq, Repr

/-- Whether `c` is space within a line. -/
def isGap (c : Char) : Bool := c == ' ' || c == '\t'

/-- Whether `c` may stand in comments and strings as it is. -/
def isPlain (c : Char) : Bool := (0x20 ≤ c.toNat && c.toNat ≠ 0x7F) || c == '\t'

/-- Whether `c` may stand in a word. -/
def isWordChar (c : Char) : Bool := c.isAlphanum || c == '_' || c == '-'

/-- Whether `c` is a mark. -/
def isMark (c : Char) : Bool := ['.', '=', ',', '[', ']', '\x7b', '\x7d'].contains c

/-- The character with a code point that hexadecimal digits write. -/
def charOfHex? (digits : List Char) : Option Char := do
  let value ← Text.hexValue? digits
  if value.isValidChar then some (Char.ofNat value) else none

/-- How many hexadecimal digits follow a letter behind a backslash, where some do. -/
def escapeWidth? : Char → Option Nat
  | 'x' => some 2
  | 'u' => some 4
  | 'U' => some 8
  | _ => none

/-- The character that a letter behind a backslash stands for on its own. -/
def escapedChar? : Char → Option Char
  | 'b' => some '\x08'
  | 't' => some '\t'
  | 'n' => some '\n'
  | 'f' => some '\x0c'
  | 'r' => some '\r'
  | 'e' => some '\x1b'
  | '"' => some '"'
  | '\\' => some '\\'
  | _ => none

/-- Reads what stands behind a backslash. -/
def readEscapedChar : (cs : List Char) → Option (Char × Shorter cs)
  | [] => none
  | letter :: cs =>
    match escapeWidth? letter with
    | none => (escapedChar? letter).map fun c => (c, ⟨cs, Text.length_lt_cons_self⟩)
    | some width =>
      if width ≤ cs.length then
        (charOfHex? (cs.take width)).map fun c =>
          (c, ⟨cs.drop width, Nat.lt_succ_of_le (List.drop_sublist width cs).length_le⟩)
      else none

/-- Reads the rest of a string in double quotes, in which a backslash escapes. -/
def readBasicRest : (cs : List Char) → Option (List Char × Shorter cs)
  | [] => none
  | c :: cs =>
    if c = '"' then some ([], ⟨cs, Text.length_lt_cons_self⟩)
    else if c = '\\' then do
      let (escaped, ⟨behind, hbehind⟩) ← readEscapedChar cs
      let (text, ⟨rest, hrest⟩) ← readBasicRest behind
      some (escaped :: text, ⟨rest, by simp; omega⟩)
    else if isPlain c then do
      let (text, ⟨rest, hrest⟩) ← readBasicRest cs
      some (c :: text, ⟨rest, Text.length_lt_cons hrest⟩)
    else none
termination_by cs => cs.length

/-- Reads the rest of a string in single quotes, in which nothing escapes. -/
def readLiteralRest : (cs : List Char) → Option (List Char × Shorter cs)
  | [] => none
  | c :: cs =>
    if c = '\'' then some ([], ⟨cs, Text.length_lt_cons_self⟩)
    else if isPlain c then do
      let (text, ⟨rest, hrest⟩) ← readLiteralRest cs
      some (c :: text, ⟨rest, Text.length_lt_cons hrest⟩)
    else none

/-- The tokens of a text. A comment reaches to the end of its line, which is a line feed that a
carriage return may stand in front of. -/
def readTokens : (cs : List Char) → Option (List Token)
  | [] => some []
  | '\r' :: '\n' :: cs => (readTokens cs).map (.lineEnd :: ·)
  | c :: cs =>
    if c = '\n' then (readTokens cs).map (.lineEnd :: ·)
    else if isGap c then readTokens cs
    else if c = '#' then
      have := (List.dropWhile_sublist isPlain (l := cs)).length_le
      readTokens (cs.dropWhile isPlain)
    else if isMark c then (readTokens cs).map (.mark c :: ·)
    else if c = '"' then do
      let (text, ⟨rest, _⟩) ← readBasicRest cs
      (readTokens rest).map (.quoted (String.ofList text) :: ·)
    else if c = '\'' then do
      let (text, ⟨rest, _⟩) ← readLiteralRest cs
      (readTokens rest).map (.quoted (String.ofList text) :: ·)
    else if isWordChar c then
      have := (List.dropWhile_sublist isWordChar (l := cs)).length_le
      (readTokens (cs.dropWhile isWordChar)).map
        (.word (String.ofList (c :: cs.takeWhile isWordChar)) :: ·)
    else none
termination_by cs => cs.length

end RadioBroker.Config
