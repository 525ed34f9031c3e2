import RadioBroker.Config.Token
import RadioBroker.Text.Segment

/-!
# Statements of configuration files

A configuration file is a list of statements: headers of tables, and values under dotted keys. A
statement takes one line, but for an inline table, inside of which ends of lines mean nothing.
`Config.parseStatements` reads the statements of a file, one by one, without saying what they mean
together. Values are strings, booleans and inline tables of them under plain keys; others are
refused, since no setting has one.
-/

namespace RadioBroker.Config

/-- A value of a setting. -/
inductive Scalar where
  | bool (value : Bool)
  | string (value : String)
deriving DecidableEq, Repr

/-- A value in a file. -/
inductive Value where
  | scalar (value : Scalar)
  /-- An inline table. -/
  | table (entries : List (String × Scalar))
deriving DecidableEq, Repr

/-- What a file says in one place. -/
inductive Statement where
  /-- The keys that follow belong to this table. -/
  | header (path : List String)
  /-- A value under a dotted key. -/
  | entry (path : List String) (value : Value)
deriving DecidableEq, Repr

/-- The opening brace of an inline table. -/
def Token.opening : Token := .mark '\x7b'

/-- The closing brace of an inline table. -/
def Token.closing : Token := .mark '\x7d'

/-- The key a token is. -/
def Token.key? : Token → Option String
  | .word text | .quoted text => some text
  | _ => none

/-- The string or boolean a token is. -/
def Token.scalar? : Token → Option Scalar
  | .word "true" => some (.bool true)
  | .word "false" => some (.bool false)
  | .quoted text => some (.string text)
  | _ => none

/-- The keys that dots stand between. -/
def keyPath? (tokens : List Token) : Option (List String) :=
  (tokens.splitOn (.mark '.')).mapM fun piece =>
    match piece with
    | [token] => token.key?
    | _ => none

/-- The entry of an inline table that `tokens` write. -/
def tableEntry? : List Token → Option (String × Scalar)
  | [key, .mark '=', value] => do some (← key.key?, ← value.scalar?)
  | _ => none

/-- The entries between the braces of an inline table. A comma may stand behind the last one. -/
def tableEntries? (tokens : List Token) : Option (List (String × Scalar)) :=
  let pieces := tokens.splitOn (.mark ',')
  let entries := if pieces.getLast? = some [] then pieces.dropLast else pieces
  entries.mapM tableEntry?

/-- The value that `tokens` write. -/
def value? : List Token → Option Value
  | [token] => token.scalar?.map .scalar
  | first :: others =>
    if first = .opening ∧ others.getLast? = some .closing then
      (tableEntries? others.dropLast).map .table
    else none
  | [] => none

/-- The statement that `tokens` write. -/
def statement? : List Token → Option Statement
  | .mark '[' :: others =>
    if others.getLast? = some (.mark ']') then (keyPath? others.dropLast).map .header else none
  | tokens =>
    match tokens.dropWhile (· ≠ .mark '=') with
    | [] => none
    | _ :: behind => do
      some (.entry (← keyPath? (tokens.takeWhile (· ≠ .mark '='))) (← value? behind))

/-- The tokens without the ends of lines inside of braces. `inside` says whether a brace is open. -/
def joinTables (inside : Bool) : List Token → List Token
  | [] => []
  | token :: tokens =>
    if token = .lineEnd then
      if inside then joinTables inside tokens else token :: joinTables inside tokens
    else token :: joinTables (token = .opening || inside && token ≠ .closing) tokens

/-- The statements of a text. A byte order mark in front means nothing. -/
def parseStatements (text : String) : Option (List Statement) := do
  let cs := text.toList
  let tokens ← readTokens (if cs.head? = some '\uFEFF' then cs.drop 1 else cs)
  let lines := (joinTables false tokens).splitOn .lineEnd
  (lines.filter (· ≠ [])).mapM statement?

end RadioBroker.Config
