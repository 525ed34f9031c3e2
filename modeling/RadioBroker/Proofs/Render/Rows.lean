import Mathlib.Logic.Relation
import RadioBroker.Proofs.Render.Margins

/-!
# Layouts read line by line

Laid out flat, a layout is texts and line breaks, and each break has a margin: the sum of the
nesting around it. Cut at its breaks this is an opening and rows of texts, and the text of the
layout is what is read off these. How the layout is grouped, and parts that write nothing, do not
matter for it. -/

namespace RadioBroker.Layout

/-! ## Leaves and rows -/

/-- A text, or a line break with the sum of the nesting around it. -/
inductive Leaf where
  | text (piece : String)
  | lineBreak (margin : Int)

/-- A leaf with more nesting around it. -/
def Leaf.nest (amount : Int) : Leaf → Leaf
  | text piece => text piece
  | lineBreak margin => lineBreak (amount + margin)

mutual

/-- A layout laid out flat. -/
def leaves : Layout → List Leaf
  | empty => []
  | text piece => [.text piece]
  | line => [.lineBreak 0]
  | nest amount body => (leaves body).map (Leaf.nest amount)
  | sequence parts => leavesOf parts

/-- Layouts laid out flat one after another. -/
def leavesOf : List Layout → List Leaf
  | [] => []
  | part :: parts => leaves part ++ leavesOf parts

end

/-- The texts in front of the first line break. -/
def openingTexts : List Leaf → List String
  | .text piece :: rest => piece :: openingTexts rest
  | _ => []

/-- For each line break its margin, and the texts up to the next one. -/
def rows : List Leaf → List (Int × List String)
  | [] => []
  | .text _ :: rest => rows rest
  | .lineBreak margin :: rest => (margin, openingTexts rest) :: rows rest

/-- What is written behind a line break: the texts behind as many blanks as the margin says, if any
of them is not empty, and otherwise nothing. A negative margin is none. -/
def rowText (margin : Int) (texts : List String) : String :=
  if ∃ piece ∈ texts, piece ≠ "" then "".pushn ' ' (max 0 margin).toNat ++ String.join texts else ""

/-- Rows, each behind a line break. -/
def rowsText (rows : List (Int × List String)) : String :=
  String.join (rows.map fun row => "\n" ++ rowText row.1 row.2)

/-- Rows below other rows are written behind them. -/
theorem rowsText_append (first second : List (Int × List String)) :
    rowsText (first ++ second) = rowsText first ++ rowsText second := by
  rw [rowsText, List.map_append, String.join_append]
  rfl

theorem rowsText_cons (row : Int × List String) (rest : List (Int × List String)) :
    rowsText (row :: rest) = "\n" ++ rowText row.1 row.2 ++ rowsText rest :=
  String.join_cons

/-- Texts are something together if one of them is something. -/
theorem join_ne_empty_iff {texts : List String} :
    String.join texts ≠ "" ↔ ∃ piece ∈ texts, piece ≠ "" := by
  induction texts with
  | nil => simp
  | cons piece texts ih =>
      rw [String.join_cons, Ne, String.append_eq_empty_iff, Decidable.not_and_iff_or_not,
        ← Ne, ← Ne, ih]
      simp only [List.mem_cons, exists_eq_or_imp]

/-- A row without text has no margin either. -/
theorem rowText_of_empty {texts : List String} (h : ∀ piece ∈ texts, piece = "") (margin : Int) :
    rowText margin texts = "" :=
  if_neg fun ⟨piece, hpiece, hne⟩ => hne (h piece hpiece)

/-- A row is the line that has its texts as one. -/
theorem toList_rowText (margin : Int) (texts : List String) :
    (rowText margin texts).toList = lineText margin (String.join texts) := by
  by_cases h : ∃ piece ∈ texts, piece ≠ ""
  · have hmargin : (max 0 margin).toNat = margin.toNat := by omega
    rw [rowText, if_pos h, lineText_of_ne_empty (join_ne_empty_iff.mpr h), String.toList_append,
      toList_pushn, hmargin]
    rfl
  · have hnothing : String.join texts = "" := Decidable.not_not.mp (mt join_ne_empty_iff.mp h)
    rw [rowText, if_neg h, hnothing, lineText_empty]
    rfl

/-- Rows are read as the lines are written that have their texts as one. -/
theorem toList_rowsText (rows : List (Int × List String)) :
    (rowsText rows).toList =
      Text.newLines (writtenLines 0 (rows.map fun row => (row.1, String.join row.2))) := by
  have hrow (row : Int × List String) : ("\n" ++ rowText row.1 row.2).toList =
      '\n' :: lineText (0 + row.1) (String.join row.2) := by
    rw [String.toList_append, toList_rowText, Int.zero_add]
    rfl
  rw [rowsText, String.toList_join, Text.newLines, writtenLines, List.flatMap_map, List.flatMap_map,
    List.flatMap_map]
  simp only [hrow]

/-! ## Drawing leaves -/

/-- Puts a leaf on a page. -/
def Page.put (indent : Int) (page : Page) : Leaf → Page
  | .text piece => page.write piece
  | .lineBreak margin => page.breakLine (indent + margin)

/-- A leaf of a nesting is put on a page as it is from further to the right. -/
theorem Page.put_nest (indent amount : Int) (page : Page) (leaf : Leaf) :
    page.put indent (leaf.nest amount) = page.put (indent + amount) leaf := by
  cases leaf with
  | text piece => rfl
  | lineBreak margin => rw [Leaf.nest, put, put, Int.add_assoc]

mutual

/-- A layout is drawn leaf by leaf. -/
theorem draw_eq_foldl_leaves (indent : Int) (page : Page) (layout : Layout) :
    draw indent page layout = layout.leaves.foldl (Page.put indent) page := by
  cases layout with
  | empty => rfl
  | text piece => rfl
  | line => rw [leaves, List.foldl_cons, List.foldl_nil, Page.put, Int.add_zero, draw]
  | nest amount body =>
      rw [leaves, List.foldl_map, draw, draw_eq_foldl_leaves]
      simp only [Page.put_nest]
  | sequence parts => exact drawAll_eq_foldl_leaves indent page parts

/-- Layouts are drawn leaf by leaf. -/
theorem drawAll_eq_foldl_leaves (indent : Int) (page : Page) (parts : List Layout) :
    drawAll indent page parts = (leavesOf parts).foldl (Page.put indent) page := by
  cases parts with
  | nil => rfl
  | cons part parts =>
      rw [drawAll, leavesOf, List.foldl_append, draw_eq_foldl_leaves, drawAll_eq_foldl_leaves]

end

/-- Leaves that are put on a page are one text behind what is there, and lines below. -/
theorem foldl_put_eq (indent : Int) (page : Page) (leaves : List Leaf) :
    leaves.foldl (Page.put indent) page =
      (page.write (String.join (openingTexts leaves))).writeLines indent
        ((rows leaves).map fun row => (row.1, String.join row.2)) := by
  -- The page carries the indentation that is owed. A text joins the texts behind it on its line, so
  -- the first of them that is not empty uses it up.
  induction leaves generalizing page with
  | nil => rfl
  | cons leaf leaves ih =>
      rw [List.foldl_cons, ih]
      cases leaf with
      | text piece => rw [Page.put, Page.write_write, openingTexts, String.join_cons, rows]
      | lineBreak margin => rfl

/-- The text of a layout is its opening, and its rows behind line breaks. -/
theorem render_eq_rowsText (layout : Layout) :
    layout.render = String.join (openingTexts layout.leaves) ++ rowsText (rows layout.leaves) := by
  have hopening (text : String) : (Page.blank.write text).written = text := by
    rw [Page.write]
    split
    · next h => rw [h, Page.blank]
    · rfl
  rw [← String.toList_inj, render, draw_eq_foldl_leaves, foldl_put_eq, Page.written_writeLines,
    hopening, String.toList_append, toList_rowsText]

/-- The lines of a layout: its opening, and what its rows are read as. -/
def renderedLines (layout : Layout) : List String :=
  String.join (openingTexts layout.leaves) ::
    (rows layout.leaves).map fun row => rowText row.1 row.2

/-- The text of a layout is its lines, with a line break between each two of them. -/
theorem render_eq_intercalate (layout : Layout) :
    layout.render = String.intercalate "\n" layout.renderedLines := by
  rw [render_eq_rowsText, renderedLines]
  generalize String.join (openingTexts layout.leaves) = opening
  induction rows layout.leaves generalizing opening with
  | nil => rw [List.map_nil, String.intercalate_singleton, rowsText, List.map_nil, String.join_nil,
      String.append_empty]
  | cons row rest ih =>
      rw [List.map_cons, String.intercalate_cons_cons, ← ih, rowsText_cons, String.append_assoc,
        String.append_assoc]

/-! ## Regrouping -/

/-- Layouts are drawn as they are gathered. -/
theorem draw_gather (indent : Int) (page : Page) (parts : List Layout) :
    draw indent page (gather parts) = drawAll indent page parts := by
  unfold gather
  split
  · rw [draw, drawAll_append]
    rfl
  · rw [draw]

/-- One thing that does not matter is taken out of a layout, anywhere in it: a nesting around
nothing but another one, a sequence inside a sequence or around a single part, or a part that writes
nothing. Or layouts one after another are gathered. -/
inductive Tidies : Layout → Layout → Prop
  | nests (outer inner : Int) (body : Layout) :
      Tidies (nest outer (nest inner body)) (nest (outer + inner) body)
  | single (part : Layout) : Tidies (sequence [part]) part
  | parts (before parts after : List Layout) :
      Tidies (sequence (before ++ sequence parts :: after)) (sequence (before ++ parts ++ after))
  | gathers (parts : List Layout) : Tidies (sequence parts) (gather parts)
  | empty (before after : List Layout) :
      Tidies (sequence (before ++ empty :: after)) (sequence (before ++ after))
  | emptyText (before after : List Layout) :
      Tidies (sequence (before ++ text "" :: after)) (sequence (before ++ after))
  | inNest (amount : Int) {first second : Layout} :
      Tidies first second → Tidies (nest amount first) (nest amount second)
  | inSequence (before after : List Layout) {first second : Layout} :
      Tidies first second →
        Tidies (sequence (before ++ first :: after)) (sequence (before ++ second :: after))

/-- What is tidied is drawn as before. -/
theorem Tidies.draw_eq {first second : Layout} (h : Tidies first second) (indent : Int)
    (page : Page) : draw indent page first = draw indent page second := by
  -- The nesting and the page are those of the place where something is taken out.
  induction h generalizing indent page with
  | nests outer inner body => rw [draw, draw, draw, Int.add_assoc]
  | single part => rfl
  | parts before parts after =>
      rw [draw, draw, drawAll_append, drawAll_append, drawAll_append, drawAll, draw]
  | gathers parts => rw [draw, draw_gather]
  | empty before after => rw [draw, draw, drawAll_append, drawAll_append, drawAll, draw]
  | emptyText before after =>
      rw [draw, draw, drawAll_append, drawAll_append, drawAll, draw, Page.write_empty]
  | inNest amount _ ih => rw [draw, draw, ih]
  | inSequence before after _ ih =>
      rw [draw, draw, drawAll_append, drawAll_append, drawAll, drawAll, ih]

/-- Layouts that are made from each other by tidying and its converse. -/
def Rearranged : Layout → Layout → Prop := Relation.EqvGen Tidies

/-- Layouts that are arranged in two ways draw the same. -/
theorem Rearranged.draw_eq {first second : Layout} (h : Rearranged first second) (indent : Int)
    (page : Page) : draw indent page first = draw indent page second := by
  induction h with
  | rel _ _ h => exact h.draw_eq indent page
  | refl _ => rfl
  | symm _ _ _ ih => exact ih.symm
  | trans _ _ _ _ _ ihfirst ihsecond => exact ihfirst.trans ihsecond

/-! ## The text of a layout -/

/-- The text of a layout is what is read off its leaves. -/
structure ReadByRows (layout : Layout) : Prop where
  /-- It is the opening, and each row behind its line break. -/
  written : layout.render =
    String.join (openingTexts layout.leaves) ++ rowsText (rows layout.leaves)
  /-- A row without text leaves its line empty. -/
  blank : ∀ before margin texts after,
    rows layout.leaves = before ++ (margin, texts) :: after → (∀ piece ∈ texts, piece = "") →
      layout.render =
        String.join (openingTexts layout.leaves) ++ rowsText before ++ "\n" ++ rowsText after
  /-- It is the text of every layout that differs only in what does not matter. -/
  rearranged : ∀ other, Rearranged layout other → other.render = layout.render

/-- Layouts are rendered as they are read line by line. -/
theorem render_readByRows (layout : Layout) : ReadByRows layout where
  written := render_eq_rowsText layout
  blank := by
    intro before margin texts after hrows hempty
    rw [render_eq_rowsText, hrows, rowsText_append, rowsText_cons, rowText_of_empty hempty,
      String.append_empty, String.append_assoc, String.append_assoc]
  rearranged := by
    intro other h
    rw [render, render, h.draw_eq]

/-- A text that is indented by the break in front of it and not by the nesting around it, next to
lines without text and a nesting to the left. -/
def hanging : Layout :=
  sequence
    ["a", nest 4 (sequence [line, nest 2 (sequence ["", line]), empty]), "b",
     nest (-3) (sequence [line, "", line, "c"]), line]

/-- The same without the part that writes nothing, in another grouping. -/
def hangingParts : List Layout :=
  [sequence ["a", nest 4 (sequence [line, nest 2 (sequence ["", line])])], "b",
   nest (-3) (sequence [line, "", line, "c"]), line]

/-- The text is written line by line. The margin of a line without text does not show, and neither
does the grouping. -/
theorem render_hanging :
    hanging.render = "a\n\n      b\n\nc\n" ∧
      hanging.render = "a" ++ "\n\n      b" ++ "\n" ++ "\nc\n" ∧
      (sequence hangingParts).render = hanging.render := by
  obtain ⟨hwritten, hblank, hrearranged⟩ := render_readByRows hanging
  refine ⟨?written, ?blank, ?rearranged⟩
  case written =>
    rw [hwritten]
    rfl
  case blank =>
    rw [hblank [(4, [""]), (6, ["b"])] (-3) [""] [(-3, ["c"]), (0, [])] rfl (by simp)]
    rfl
  case rearranged =>
    have hnothing : Tidies hanging (gather hangingParts) :=
      .inSequence ["a"] ["b", nest (-3) (sequence [line, "", line, "c"]), line]
        (.inNest 4 (.empty [line, nest 2 (sequence ["", line])] []))
    exact hrearranged _
      (.trans _ _ _ (.rel _ _ hnothing) (.symm _ _ (.rel _ _ (.gathers hangingParts))))

end RadioBroker.Layout
