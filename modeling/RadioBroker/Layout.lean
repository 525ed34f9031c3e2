/-!
# Laid out text

A `Layout` says what is written and where lines break; nesting says how far the lines that start
inside it are indented. Indentation is written when the first text of its line arrives, so a line
without text is empty. `Layout.render` is the text.
-/

namespace RadioBroker

/-- A text with line breaks and nested indentation. -/
inductive Layout where
  /-- Nothing. -/
  | empty
  /-- A piece of text. -/
  | text (piece : String)
  /-- A line break. The next text is indented by the nesting around the break. -/
  | line
  /-- Adds `amount` to the indentation of the lines that start inside `body`. -/
  | nest (amount : Int) (body : Layout)
  /-- One layout after another. -/
  | sequence (parts : List Layout)
deriving Inhabited

namespace Layout

instance : Coe String Layout := ⟨text⟩

/-- What has been written, and the indentation still owed to the line that was begun last. -/
structure Page where
  written : String
  owed : Option Int

namespace Page

/-- A page before anything is written. -/
def blank : Page := ⟨"", none⟩

/-- Writes a piece of text behind the indentation that is owed. An empty piece writes nothing. -/
def write (page : Page) (piece : String) : Page :=
  if piece = "" then page
  else
    let margin := "".pushn ' ' (page.owed.getD 0).toNat
    ⟨page.written ++ margin ++ piece, none⟩

/-- Ends the line and owes `indent` to the next. -/
def breakLine (page : Page) (indent : Int) : Page :=
  ⟨page.written.push '\n', some indent⟩

end Page

mutual

/-- Writes a layout on a page, at the nesting `indent`. -/
def draw (indent : Int) (page : Page) : Layout → Page
  | empty => page
  | text piece => page.write piece
  | line => page.breakLine indent
  | nest amount body => draw (indent + amount) page body
  | sequence parts => drawAll indent page parts

/-- Writes layouts one after another. -/
def drawAll (indent : Int) (page : Page) : List Layout → Page
  | [] => page
  | part :: parts => drawAll indent (draw indent page part) parts

end

/-- The text of a layout. -/
def render (layout : Layout) : String :=
  (draw 0 Page.blank layout).written

theorem drawAll_eq_foldl (indent : Int) (page : Page) (parts : List Layout) :
    drawAll indent page parts = parts.foldl (draw indent) page := by
  induction parts generalizing page with
  | nil => rfl
  | cons part parts ih => rw [drawAll, List.foldl_cons, ih]

/-- How far a braced block indents what it holds. -/
def indentWidth : Int := 4

/-- Layouts one after another. If the first of several is a sequence, the others are put behind its
parts. -/
def gather : List Layout → Layout
  | sequence parts :: second :: rest => sequence (parts ++ second :: rest)
  | parts => sequence parts

/-- Layouts with a separator between each two of them. -/
def join (parts : List Layout) (separator : Layout) : Layout :=
  sequence (parts.intersperse separator)

/-- Layouts on a line of their own each, the first one included. -/
def lines (parts : List Layout) : Layout :=
  sequence (parts.flatMap fun part => [line, part])

/-- A header, and below it a braced and indented body. The body brings its own line breaks. -/
def block (header body : Layout) : Layout :=
  sequence [header, line, text "\x7b", nest indentWidth body, line, text "\x7d"]

end Layout

end RadioBroker
