import RadioBroker.Layout

/-!
# Lines on a page

Drawing a layout writes pieces and breaks lines. Pieces that are written one after another are one
piece, so what is drawn behind a line break can be said as a list of lines, each with its
indentation. -/

namespace RadioBroker.Layout

namespace Page

/-- Writing two pieces is writing them as one. -/
theorem write_write (page : Page) (first second : String) :
    (page.write first).write second = page.write (first ++ second) := by
  have hnothing : "".pushn ' ' 0 = "" := rfl
  unfold write
  by_cases hfirst : first = ""
  · simp [hfirst]
  · by_cases hsecond : second = ""
    · simp [hsecond, hfirst]
    · simp [hfirst, hsecond, hnothing, String.append_assoc]

/-- Writing nothing leaves the page as it is, and the indentation owed. -/
theorem write_empty (page : Page) : page.write "" = page := rfl

/-- Writes lines, each indented by `indent` and an amount of its own. -/
def writeLines (page : Page) (indent : Int) (lines : List (Int × String)) : Page :=
  lines.foldl (fun page entry => (page.breakLine (indent + entry.1)).write entry.2) page

theorem writeLines_nil (page : Page) (indent : Int) : page.writeLines indent [] = page := rfl

theorem writeLines_cons (page : Page) (indent : Int) (entry : Int × String)
    (lines : List (Int × String)) :
    page.writeLines indent (entry :: lines) =
      ((page.breakLine (indent + entry.1)).write entry.2).writeLines indent lines := rfl

/-- Lines are written one after another. -/
theorem writeLines_append (page : Page) (indent : Int) (first second : List (Int × String)) :
    page.writeLines indent (first ++ second) =
      (page.writeLines indent first).writeLines indent second :=
  List.foldl_append

end Page

/-- A header, and below it lines in braces. -/
def braced (header : String) (inner : List (Int × String)) : List (Int × String) :=
  (0, header) :: (0, "\x7b") ::
    ((inner.map fun entry => (indentWidth + entry.1, entry.2)) ++ [(0, "\x7d")])

/-- Lines in braces are written as lines that are indented further. -/
theorem Page.writeLines_braced (page : Page) (indent : Int) (header : String)
    (inner : List (Int × String)) :
    page.writeLines indent (braced header inner) =
      (((((page.breakLine indent).write header).breakLine indent).write "\x7b").writeLines
        (indent + indentWidth) inner |>.breakLine indent).write "\x7d" := by
  simp only [braced, writeLines, List.foldl_cons, List.foldl_append, List.foldl_nil,
    List.foldl_map, Int.add_assoc, Int.add_zero]

/-- Layouts are drawn one after another. -/
theorem drawAll_append (indent : Int) (page : Page) (first second : List Layout) :
    drawAll indent page (first ++ second) = drawAll indent (drawAll indent page first) second := by
  rw [drawAll_eq_foldl, drawAll_eq_foldl, drawAll_eq_foldl, List.foldl_append]

variable {indent : Int} {page : Page}

/-- Layouts on lines of their own are drawn one after another. -/
theorem draw_lines (parts : List Layout) :
    draw indent page (lines parts) =
      parts.foldl (fun page part => draw indent (page.breakLine indent) part) page := by
  show drawAll indent page (parts.flatMap fun part => [line, part]) = _
  induction parts generalizing page with
  | nil => rfl
  | cons part parts ih =>
      rw [List.flatMap_cons, List.foldl_cons, ← ih]
      rfl

end RadioBroker.Layout
