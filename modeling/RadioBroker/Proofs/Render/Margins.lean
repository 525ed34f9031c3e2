import RadioBroker.Proofs.Render.Lines
import RadioBroker.Text.Blank

/-!
# Margins and braces

A text is well laid if its braces are nested and each of its lines is indented by the braces that
are open in front of it. Lines that are put together from phrases, blank lines and lines in braces
are laid so wherever they are written, and so is a layout that is drawn in such lines.
-/

namespace RadioBroker

namespace Text

/-! ## Nested braces -/

/-- How many braces a text opens, those that it closes taken off. -/
def openBraces (text : List Char) : Int := text.count '{' - text.count '}'

theorem openBraces_nil : openBraces [] = 0 := rfl

/-- A text opens the braces that its parts open. -/
theorem openBraces_append (first second : List Char) :
    openBraces (first ++ second) = openBraces first + openBraces second := by
  simp only [openBraces, List.count_append]
  omega

/-- The braces of a text are nested: none closes what is not open, and none is left open. -/
structure Nested (text : List Char) : Prop where
  opened : ∀ front behind, text = front ++ behind → 0 ≤ openBraces front
  settled : openBraces text = 0

variable {first second text : List Char}

/-- A text without braces opens none. -/
theorem openBraces_of_free (h : ∀ c ∈ text, c ≠ '{' ∧ c ≠ '}') : openBraces text = 0 := by
  have hopening : text.count '{' = 0 := List.count_eq_zero.mpr fun hc => (h _ hc).1 rfl
  have hclosing : text.count '}' = 0 := List.count_eq_zero.mpr fun hc => (h _ hc).2 rfl
  rw [openBraces, hopening, hclosing]
  rfl

/-- A text without braces. -/
theorem Nested.of_free (h : ∀ c ∈ text, c ≠ '{' ∧ c ≠ '}') : Nested text where
  opened := by
    rintro front behind rfl
    have hfront := openBraces_of_free fun c hc => h c (List.mem_append_left behind hc)
    omega
  settled := openBraces_of_free h

/-- Braces that are nested in each of two texts are nested in both together. -/
theorem Nested.append (hfirst : Nested first) (hsecond : Nested second) :
    Nested (first ++ second) where
  opened := by
    intro front behind h
    rcases List.append_eq_append_iff.mp h with ⟨rest, rfl, hrest⟩ | ⟨rest, hrest, -⟩
    · rw [openBraces_append, hfirst.settled, Int.zero_add]
      exact hsecond.opened rest behind hrest
    · exact hfirst.opened front rest hrest
  settled := by
    rw [openBraces_append, hfirst.settled, hsecond.settled]
    rfl

/-- A text in braces. -/
theorem Nested.braced (h : Nested text) : Nested ('{' :: (text ++ ['}'])) where
  opened := by
    have hopening : openBraces ['{'] = 1 := by decide
    have hclosing : openBraces ['}'] = -1 := by decide
    intro front behind hfront
    -- The front ends before the braces, inside them, or behind the closing one.
    rcases List.cons_eq_append_iff.mp hfront with ⟨rfl, -⟩ | ⟨front, rfl, hsplit⟩
    · exact Int.le_refl 0
    · rw [← List.singleton_append, openBraces_append, hopening]
      rcases List.append_eq_append_iff.mp hsplit with ⟨rest, rfl, hbrace⟩ | ⟨rest, hinside, -⟩
      · rw [openBraces_append, h.settled]
        rcases List.cons_eq_append_iff.mp hbrace with ⟨rfl, -⟩ | ⟨rest, rfl, hnil⟩
        · decide
        · obtain rfl := (List.append_eq_nil_iff.mp hnil.symm).1
          rw [hclosing]
          decide
      · have hfront := h.opened front rest hinside
        omega
  settled := by
    have hboth : openBraces ['{'] + openBraces ['}'] = 0 := by decide
    rw [← List.singleton_append, openBraces_append, openBraces_append, h.settled, Int.zero_add,
      hboth]

/-! ## Indented lines -/

/-- The lines of a text. -/
def linesOf (text : String) : List (List Char) := text.toList.splitOn '\n'

/-- A line at a place where `depth` braces are open. It does not end in a blank. If there is
anything on it, it is indented by four for each of these braces, without the one that it closes at
its start. -/
structure IndentedLine (depth : Int) (line : List Char) : Prop where
  ending : ∀ c ∈ line.getLast?, isBlank c = false
  margin : line ≠ [] → ∃ (width : Nat) (c : Char) (rest : List Char),
    line = List.replicate width ' ' ++ c :: rest ∧ isBlank c = false ∧
      (width : Int) = 4 * (depth - if c = '}' then 1 else 0)

/-- Lines at a place where `depth` braces are open. Each is indented by the braces that are open in
front of it. -/
def Indented (depth : Int) (lines : List (List Char)) : Prop :=
  ∀ before line after, lines = before ++ line :: after →
    IndentedLine (depth + openBraces before.flatten) line

/-- A text with nested braces whose lines are indented by the braces that are open in front of
them. -/
structure WellLaid (text : String) : Prop where
  indented : Indented 0 (linesOf text)
  nested : Nested text.toList

variable {depth : Int} {line : List Char} {lines more : List (List Char)}

theorem indented_nil : Indented depth [] := by simp [Indented]

/-- A line that is indented, in front of lines that are indented by what it leaves open. -/
theorem indented_cons (hline : IndentedLine depth line)
    (hlines : Indented (depth + openBraces line) lines) : Indented depth (line :: lines) := by
  intro before here after h
  rcases List.cons_eq_append_iff.mp h with ⟨rfl, hhere⟩ | ⟨before, rfl, hlines'⟩
  · obtain ⟨rfl, -⟩ := List.cons.inj hhere
    rwa [List.flatten_nil, openBraces_nil, Int.add_zero]
  · rw [List.flatten_cons, openBraces_append, ← Int.add_assoc]
    exact hlines before here after hlines'

/-- Indented lines, in front of lines that are indented by what they leave open. -/
theorem Indented.append (hlines : Indented depth lines)
    (hmore : Indented (depth + openBraces lines.flatten) more) :
    Indented depth (lines ++ more) := by
  intro before line after h
  rcases List.append_eq_append_iff.mp h with ⟨front, rfl, hmore'⟩ | ⟨front, rfl, hfront⟩
  · rw [List.flatten_append, openBraces_append, ← Int.add_assoc]
    exact hmore front line after hmore'
  · cases front with
    | nil =>
        simpa [openBraces_nil] using hmore [] line after hfront.symm
    | cons here front =>
        obtain ⟨rfl, -⟩ := List.cons.inj hfront
        exact hlines before line front rfl

/-- Lines, each behind a line break. -/
def newLines (lines : List (List Char)) : List Char := lines.flatMap ('\n' :: ·)

theorem newLines_append (lines more : List (List Char)) :
    newLines (lines ++ more) = newLines lines ++ newLines more := List.flatMap_append

/-- Line breaks open no braces. -/
theorem openBraces_newLines (lines : List (List Char)) :
    openBraces (newLines lines) = openBraces lines.flatten := by
  induction lines with
  | nil => rfl
  | cons line lines ih =>
      have hbreak : openBraces ['\n'] = 0 := by decide
      rw [← List.singleton_append, newLines_append, openBraces_append, ih, newLines,
        List.flatMap_singleton, ← List.singleton_append, openBraces_append, hbreak, Int.zero_add,
        ← openBraces_append]
      rfl

/-- Lines that are laid well at a place where `depth` braces are open, and that leave no more
open. -/
structure Laid (depth : Int) (lines : List (List Char)) : Prop where
  indented : Indented depth lines
  nested : Nested (newLines lines)
  unbroken : ∀ line ∈ lines, '\n' ∉ line

/-- No lines are laid well anywhere. -/
theorem Laid.nil : Laid depth [] := ⟨indented_nil, .of_free (by simp [newLines]), by simp⟩

/-- An indented line with nested braces is laid well. -/
theorem Laid.singleton (hline : IndentedLine depth line) (hnested : Nested line)
    (hunbroken : '\n' ∉ line) : Laid depth [line] where
  indented := indented_cons hline indented_nil
  nested := by
    have hbreak : Nested ['\n'] := .of_free (by simp)
    simpa [newLines] using hbreak.append hnested
  unbroken := by simpa using hunbroken

/-- A line with nothing on it. -/
theorem Laid.blank : Laid depth [[]] :=
  .singleton ⟨by simp, fun h => absurd rfl h⟩ (.of_free (by simp)) (by simp)

/-- Well-laid lines leave no braces open, so that others are laid well behind them. -/
theorem Laid.append (hlines : Laid depth lines) (hmore : Laid depth more) :
    Laid depth (lines ++ more) where
  indented := by
    refine hlines.indented.append ?_
    rw [← openBraces_newLines, hlines.nested.settled, Int.add_zero]
    exact hmore.indented
  nested := by
    rw [newLines_append]
    exact hlines.nested.append hmore.nested
  unbroken := List.forall_mem_append.mpr ⟨hlines.unbroken, hmore.unbroken⟩

end Text

namespace Layout

open Text

/-! ## Lines of phrases -/

/-- A text that may stand on a line of its own: no blanks around it, no brace closed at its start,
no line breaks, and nested braces. -/
structure IsPhrase (text : String) : Prop where
  first : ∃ c ∈ text.toList.head?, isBlank c = false ∧ c ≠ '}'
  last : ∃ c ∈ text.toList.getLast?, isBlank c = false
  unbroken : '\n' ∉ text.toList
  nested : Nested text.toList

/-- Lines with their margins: blank ones, phrases, and lines in braces below a phrase. -/
inductive Block : List (Int × String) → Prop
  | nil : Block []
  | blank {rest : List (Int × String)} : Block rest → Block ((0, "") :: rest)
  | phrase {text : String} {rest : List (Int × String)} :
      IsPhrase text → Block rest → Block ((0, text) :: rest)
  | braced {header : String} {inner rest : List (Int × String)} :
      IsPhrase header → Block inner → Block rest → Block (braced header inner ++ rest)

/-- Lines of phrases below lines of phrases. -/
theorem Block.append {first second : List (Int × String)} (hfirst : Block first)
    (hsecond : Block second) : Block (first ++ second) := by
  induction hfirst with
  | nil => exact hsecond
  | blank _ ih => exact .blank ih
  | phrase htext _ ih => exact .phrase htext ih
  | braced hheader hinner _ _ ih =>
      rw [List.append_assoc]
      exact .braced hheader hinner ih

/-- A line as it is written: nothing, or a text behind its margin. -/
def lineText (margin : Int) (text : String) : List Char :=
  if text = "" then [] else List.replicate margin.toNat ' ' ++ text.toList

theorem lineText_empty (margin : Int) : lineText margin "" = [] := rfl

/-- The lines that are written for lines with margins. -/
def writtenLines (indent : Int) (lines : List (Int × String)) : List (List Char) :=
  lines.map fun entry => lineText (indent + entry.1) entry.2

theorem writtenLines_append (indent : Int) (first second : List (Int × String)) :
    writtenLines indent (first ++ second) =
      writtenLines indent first ++ writtenLines indent second :=
  List.map_append

/-- Lines in braces are written with a greater margin. -/
theorem writtenLines_braced (indent : Int) (header : String) (inner : List (Int × String)) :
    writtenLines indent (braced header inner) =
      lineText indent header :: lineText indent "\x7b" ::
        (writtenLines (indent + indentWidth) inner ++ [lineText indent "\x7d"]) := by
  simp [writtenLines, braced, Int.add_assoc]

section Phrases

variable {text : String} {depth : Nat} {c : Char} {line : List Char}

/-- A phrase is not empty: it has a first character. -/
theorem IsPhrase.ne_empty (h : IsPhrase text) : text ≠ "" := by
  rintro rfl
  obtain ⟨c, hc, -⟩ := h.first
  cases hc

theorem lineText_of_ne_empty (h : text ≠ "") (margin : Int) :
    lineText margin text = List.replicate margin.toNat ' ' ++ text.toList := if_neg h

/-- A margin opens no braces. -/
theorem openBraces_lineText (margin : Int) (text : String) :
    openBraces (lineText margin text) = openBraces text.toList := by
  have hspaces : ∀ c ∈ List.replicate margin.toNat ' ', c ≠ '{' ∧ c ≠ '}' := by
    intro c hc
    rw [List.eq_of_mem_replicate hc]
    decide
  by_cases htext : text = ""
  · rw [htext, lineText_empty]
    rfl
  · rw [lineText_of_ne_empty htext, openBraces_append, openBraces_of_free hspaces, Int.zero_add]

/-- A margin nests no braces. -/
theorem nested_lineText (margin : Int) (h : Nested text.toList) :
    Nested (lineText margin text) := by
  by_cases htext : text = ""
  · rw [htext, lineText_empty]
    exact .of_free (by simp)
  · rw [lineText_of_ne_empty htext]
    refine Nested.append (.of_free fun c hc => ?_) h
    rw [List.eq_of_mem_replicate hc]
    decide

/-- A margin breaks no lines. -/
theorem notMem_lineText (margin : Int) (h : '\n' ∉ text.toList) : '\n' ∉ lineText margin text := by
  by_cases htext : text = ""
  · rw [htext, lineText_empty]
    exact List.not_mem_nil
  · rw [lineText_of_ne_empty htext, List.mem_append]
    rintro (hmargin | hin)
    · exact absurd (List.eq_of_mem_replicate hmargin) (by decide)
    · exact h hin

/-- A text behind the margin of the braces that are open in front of it, without the one that it
closes. -/
theorem indentedLine_lineText (first : Char) {margin : Int} (hmargin : 0 ≤ margin)
    (hfirst : first ∈ text.toList.head?) (hblank : isBlank first = false)
    (hlast : ∃ c ∈ text.toList.getLast?, isBlank c = false) :
    IndentedLine (margin + if first = '}' then 1 else 0) (lineText (4 * margin) text) := by
  obtain ⟨rest, htext⟩ := List.head?_eq_some_iff.mp hfirst
  have hne : text ≠ "" := by
    rintro rfl
    cases htext
  obtain ⟨last, hlast, hend⟩ := hlast
  rw [lineText_of_ne_empty hne]
  refine ⟨?_, fun _ => ⟨(4 * margin).toNat, first, rest, by rw [htext], hblank, ?_⟩⟩
  · intro c hc
    rw [List.getLast?_append, Option.mem_def.mp hlast, Option.some_or] at hc
    rwa [← Option.some.inj hc]
  · omega

end Phrases

/-- A phrase is laid well at its place. -/
theorem IsPhrase.laid {text : String} (h : IsPhrase text) {depth : Int} (hdepth : 0 ≤ depth) :
    Laid depth [lineText (4 * depth) text] := by
  obtain ⟨first, hfirst, hblank, hbrace⟩ := h.first
  have hline := indentedLine_lineText first hdepth hfirst hblank h.last
  rw [if_neg hbrace, Int.add_zero] at hline
  exact .singleton hline (nested_lineText _ h.nested) (notMem_lineText _ h.unbroken)

/-- Lines that are laid well one level further in are laid well in braces. -/
theorem laid_braces {depth : Int} (hdepth : 0 ≤ depth) {inner : List (List Char)}
    (h : Laid (depth + 1) inner) :
    Laid depth (lineText (4 * depth) "\x7b" :: (inner ++ [lineText (4 * depth) "\x7d"])) where
  indented := by
    have hopening : IndentedLine (depth + 0) (lineText (4 * depth) "\x7b") :=
      indentedLine_lineText '{' hdepth rfl (by decide) ⟨'{', rfl, by decide⟩
    have hclosing : IndentedLine (depth + 1) (lineText (4 * depth) "\x7d") :=
      indentedLine_lineText '}' hdepth rfl (by decide) ⟨'}', rfl, by decide⟩
    have hopened : openBraces "\x7b".toList = 1 := by decide
    rw [Int.add_zero] at hopening
    refine indented_cons hopening ?_
    rw [openBraces_lineText, hopened]
    refine h.indented.append ?_
    -- In front of the closing brace its own block is open and nothing else inside it.
    rw [← openBraces_newLines, h.nested.settled, Int.add_zero]
    exact indented_cons hclosing indented_nil
  nested := by
    have hmargin : Nested ('\n' :: List.replicate (4 * depth).toNat ' ') := by
      refine .of_free fun c hc => ?_
      rcases List.mem_cons.mp hc with rfl | hc
      · decide
      · rw [List.eq_of_mem_replicate hc]
        decide
    have hbraces := hmargin.append (h.nested.append hmargin).braced
    simpa [newLines, lineText] using hbraces
  unbroken := by
    simp only [List.forall_mem_cons, List.forall_mem_append]
    exact ⟨notMem_lineText _ (by decide), h.unbroken, notMem_lineText _ (by decide), by simp⟩

/-- Lines of phrases are laid well wherever as many braces are open as their margin says. -/
theorem Block.laid {lines : List (Int × String)} (h : Block lines) {depth : Int}
    (hdepth : 0 ≤ depth) : Laid depth (writtenLines (4 * depth) lines) := by
  induction h generalizing depth with
  | nil => exact .nil
  | blank _ ih => exact Laid.append .blank (ih hdepth)
  | phrase htext _ ih =>
      rw [writtenLines, List.map_cons, Int.add_zero]
      exact (htext.laid hdepth).append (ih hdepth)
  | @braced header inner rest hheader _ _ hinner hrest =>
      have hdeeper : 4 * depth + indentWidth = 4 * (depth + 1) := by
        rw [indentWidth]
        omega
      rw [writtenLines_append, writtenLines_braced, hdeeper]
      have hbraces := laid_braces hdepth (hinner (by omega : 0 ≤ depth + 1))
      exact ((hheader.laid hdepth).append hbraces).append (hrest hdepth)

/-! ## Written pages -/

/-- A character pushed several times stands as often at the end. -/
theorem toList_pushn (text : String) (c : Char) (count : Nat) :
    (text.pushn c count).toList = text.toList ++ List.replicate count c := by
  rw [String.pushn_eq_repeat_push]
  induction count with
  | zero => simp [Nat.repeat]
  | succ count ih =>
      rw [Nat.repeat, String.toList_push, ih, List.append_assoc, ← List.replicate_succ']

namespace Page

/-- What is on a page once a line is broken and a text is written on the next. -/
theorem written_breakLine_write (page : Page) (margin : Int) (text : String) :
    ((page.breakLine margin).write text).written.toList =
      page.written.toList ++ '\n' :: lineText margin text := by
  unfold write
  split
  · next h => simp [breakLine, h, lineText_empty]
  · next h => simp [breakLine, lineText_of_ne_empty h, toList_pushn]

/-- What is on a page once lines are written on it. -/
theorem written_writeLines (page : Page) (indent : Int) (lines : List (Int × String)) :
    (page.writeLines indent lines).written.toList =
      page.written.toList ++ newLines (writtenLines indent lines) := by
  induction lines generalizing page with
  | nil => simp [writeLines_nil, writtenLines, newLines]
  | cons entry lines ih =>
      rw [writeLines_cons, ih, written_breakLine_write]
      simp [writtenLines, newLines]

end Page

/-- A text of lines is cut into these lines. -/
theorem linesOf_of_lines {text : String} {first : List Char} {lines : List (List Char)}
    (htext : text.toList = first ++ newLines lines)
    (hunbroken : ∀ line ∈ first :: lines, '\n' ∉ line) : linesOf text = first :: lines := by
  have hjoined : text.toList = ['\n'].intercalate (first :: lines) := by
    rw [htext]
    clear htext hunbroken
    induction lines generalizing first with
    | nil => simp [newLines]
    | cons line lines ih =>
        rw [List.intercalate_cons_cons, ← ih]
        simp [newLines]
  rw [linesOf, hjoined, List.splitOn_intercalate _ hunbroken (List.cons_ne_nil _ _)]

/-- A page that begins with a phrase and goes on with lines of phrases is laid well. -/
theorem wellLaid_writeLines {first : String} {lines : List (Int × String)} (hfirst : IsPhrase first)
    (hlines : Block lines) :
    WellLaid ((Page.blank.write first).writeLines 0 lines).written := by
  have hlaid : Laid 0 (lineText 0 first :: writtenLines 0 lines) :=
    (hfirst.laid (Int.le_refl 0)).append (hlines.laid (Int.le_refl 0))
  have hwritten : ((Page.blank.write first).writeLines 0 lines).written.toList =
      lineText 0 first ++ newLines (writtenLines 0 lines) := by
    rw [Page.written_writeLines, Page.write, if_neg hfirst.ne_empty]
    simp [Page.blank, lineText_of_ne_empty hfirst.ne_empty, toList_pushn]
  refine ⟨?_, ?_⟩
  · rw [linesOf_of_lines hwritten hlaid.unbroken]
    exact hlaid.indented
  · rw [hwritten]
    exact (nested_lineText 0 hfirst.nested).append (hlines.laid (Int.le_refl 0)).nested

/-! ## Layouts of lines -/

/-- A layout that is written as a phrase. -/
def SpellsPhrase (layout : Layout) : Prop :=
  ∃ text, IsPhrase text ∧ ∀ (indent : Int) (page : Page), draw indent page layout = page.write text

/-- A layout that is drawn in lines of phrases once a line is begun. -/
def StartsLine (layout : Layout) : Prop :=
  ∃ lines, Block lines ∧ ∀ (indent : Int) (page : Page),
    draw indent (page.breakLine indent) layout = page.writeLines indent lines

/-- A layout that is drawn in lines of phrases below the line that it stands on. -/
def AddsLines (layout : Layout) : Prop :=
  ∃ lines, Block lines ∧ ∀ (indent : Int) (page : Page),
    draw indent page layout = page.writeLines indent lines

section Layouts

variable {layout part header body : Layout} {parts rest : List Layout}

/-- A phrase is written as it is. -/
theorem spellsPhrase_text {piece : String} (h : IsPhrase piece) : SpellsPhrase (text piece) :=
  ⟨piece, h, fun _ _ => rfl⟩

/-- A phrase is a line of its own once a line is begun. -/
theorem SpellsPhrase.startsLine (h : SpellsPhrase layout) : StartsLine layout := by
  obtain ⟨text, htext, hwrites⟩ := h
  refine ⟨[(0, text)], .phrase htext .nil, fun indent page => ?_⟩
  rw [hwrites, Page.writeLines_cons, Page.writeLines_nil, Int.add_zero]

/-- What adds lines leaves the line blank that is begun. -/
theorem AddsLines.startsLine (h : AddsLines layout) : StartsLine layout := by
  obtain ⟨lines, hlines, hdrawn⟩ := h
  refine ⟨(0, "") :: lines, .blank hlines, fun indent page => ?_⟩
  rw [hdrawn, Page.writeLines_cons, Page.write_empty, Int.add_zero]

theorem addsLines_empty : AddsLines empty := ⟨[], .nil, fun _ _ => rfl⟩

theorem addsLines_nil : AddsLines (sequence []) := ⟨[], .nil, fun _ _ => rfl⟩

/-- Lines of phrases, and more of them below. -/
theorem AddsLines.cons (hpart : AddsLines part) (hrest : AddsLines (sequence rest)) :
    AddsLines (sequence (part :: rest)) := by
  obtain ⟨first, hfirst, hdrawn⟩ := hpart
  obtain ⟨second, hsecond, hbelow⟩ := hrest
  refine ⟨first ++ second, hfirst.append hsecond, fun indent page => ?_⟩
  rw [Page.writeLines_append, ← hdrawn, ← hbelow]
  rfl

/-- A line that is begun, and more lines below. -/
theorem StartsLine.cons (hpart : StartsLine part) (hrest : AddsLines (sequence rest)) :
    StartsLine (sequence (part :: rest)) := by
  obtain ⟨first, hfirst, hdrawn⟩ := hpart
  obtain ⟨second, hsecond, hbelow⟩ := hrest
  refine ⟨first ++ second, hfirst.append hsecond, fun indent page => ?_⟩
  rw [Page.writeLines_append, ← hdrawn, ← hbelow]
  rfl

/-- A line break in front of what starts a line. -/
theorem StartsLine.addsLines (h : StartsLine (sequence rest)) :
    AddsLines (sequence (line :: rest)) :=
  let ⟨lines, hlines, hdrawn⟩ := h
  ⟨lines, hlines, hdrawn⟩

/-- Layouts that start a line, each on a line of its own. -/
theorem addsLines_lines (h : ∀ part ∈ parts, StartsLine part) : AddsLines (lines parts) := by
  unfold lines
  induction parts with
  | nil => exact addsLines_nil
  | cons part parts ih =>
      obtain ⟨hpart, hparts⟩ := List.forall_mem_cons.mp h
      exact (hpart.cons (ih hparts)).addsLines

/-- A phrase, and below it lines in braces. -/
theorem startsLine_block (hheader : SpellsPhrase header) (hbody : AddsLines body) :
    StartsLine (block header body) := by
  obtain ⟨text, htext, hwrites⟩ := hheader
  obtain ⟨lines, hlines, hdrawn⟩ := hbody
  refine ⟨braced text lines ++ [], .braced htext hlines .nil, fun indent page => ?_⟩
  rw [List.append_nil, Page.writeLines_braced, ← hdrawn, ← hwrites]
  rfl

/-- A text that begins with a phrase and goes on below it in lines of phrases is laid well. -/
theorem wellLaid_render {piece : String} (hfirst : IsPhrase piece)
    (hrest : AddsLines (sequence rest)) :
    WellLaid (sequence (text piece :: rest)).render := by
  obtain ⟨lines, hlines, hdrawn⟩ := hrest
  have hdraw : draw 0 Page.blank (sequence (text piece :: rest)) =
      (Page.blank.write piece).writeLines 0 lines := hdrawn 0 (Page.blank.write piece)
  rw [render, hdraw]
  exact wellLaid_writeLines hfirst hlines

end Layouts

end Layout

end RadioBroker
