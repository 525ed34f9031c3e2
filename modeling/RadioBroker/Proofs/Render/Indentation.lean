import RadioBroker.Proofs.Render.Margins
import RadioBroker.Proofs.Render.ResultsBuffer
import RadioBroker.Proofs.Render.Rows
import RadioBroker.Render.Source

/-!
# Indentation of source files

The files that are rendered are laid well, whatever they hold, if the names and types in them are
plain texts: no line ends in a blank, each is indented by the braces that are open in front of it,
and all braces are closed in the end. Each construct is written as a phrase, as lines that begin
with a phrase, or as lines below a phrase, and so is what it is put together from.
-/

namespace RadioBroker

namespace Text

/-! ## Plain texts and names -/

/-- A text without line breaks and braces. -/
def IsPlain (text : String) : Prop := ∀ c ∈ text.toList, c ≠ '\n' ∧ c ≠ '{' ∧ c ≠ '}'

instance (text : String) : Decidable (IsPlain text) :=
  List.decidableBAll _ _

/-- A plain text with something in it and no blanks around it. -/
structure IsName (text : String) : Prop where
  nonempty : text ≠ ""
  leading : ∀ c ∈ text.toList.head?, isBlank c = false
  trailing : ∀ c ∈ text.toList.getLast?, isBlank c = false
  plain : IsPlain text

/-- A name is recognised by its characters. -/
theorem isName_iff {text : String} : IsName text ↔
    text ≠ "" ∧ text.toList.head?.all (!isBlank ·) = true ∧
      text.toList.getLast?.all (!isBlank ·) = true ∧ IsPlain text := by
  simp only [Option.all_eq_true, Bool.not_eq_eq_eq_not, Bool.not_true]
  exact ⟨fun h => ⟨h.nonempty, h.leading, h.trailing, h.plain⟩,
    fun ⟨hnonempty, hleading, htrailing, hplain⟩ => ⟨hnonempty, hleading, htrailing, hplain⟩⟩

instance (text : String) : Decidable (IsName text) := decidable_of_iff _ isName_iff.symm

/-- A text that begins with a character that is neither blank nor closes a brace. -/
def Opens (text : String) : Prop := ∃ c ∈ text.toList.head?, isBlank c = false ∧ c ≠ '}'

/-- A text that ends in a character that is not blank. -/
def Ends (text : String) : Prop := ∃ c ∈ text.toList.getLast?, isBlank c = false

instance (text : String) : Decidable (Opens text) :=
  Option.decidableExistsMem _

instance (text : String) : Decidable (Ends text) :=
  Option.decidableExistsMem _

variable {first second text : String} {pieces : List String}

/-- A text is plain if its parts are. -/
@[simp] theorem isPlain_append : IsPlain (first ++ second) ↔ IsPlain first ∧ IsPlain second := by
  simp only [IsPlain, String.toList_append, List.forall_mem_append]

/-- A text behind another one does not change how that begins. -/
theorem Opens.append (h : Opens first) (second : String) : Opens (first ++ second) := by
  obtain ⟨c, hc, hopens⟩ := h
  obtain ⟨rest, hfirst⟩ := List.head?_eq_some_iff.mp hc
  exact ⟨c, by simp [hfirst], hopens⟩

/-- A text in front of another one does not change how that ends. -/
theorem Ends.append (h : Ends second) (first : String) : Ends (first ++ second) := by
  obtain ⟨c, hc, hends⟩ := h
  refine ⟨c, ?_, hends⟩
  rw [String.toList_append, List.getLast?_append, Option.mem_def.mp hc, Option.some_or]
  rfl

/-- A name may stand at the start of a line. -/
theorem IsName.opens (h : IsName text) : Opens text := by
  obtain ⟨c, rest, htext⟩ := List.exists_cons_of_ne_nil (mt String.toList_eq_nil_iff.mp h.nonempty)
  have hc : c ∈ text.toList.head? := by simp [htext]
  exact ⟨c, hc, h.leading c hc, (h.plain c (by simp [htext])).2.2⟩

/-- A name may stand at the end of a line. -/
theorem IsName.ends (h : IsName text) : Ends text := by
  have hne : text.toList ≠ [] := mt String.toList_eq_nil_iff.mp h.nonempty
  have hc := List.getLast?_eq_some_getLast hne
  exact ⟨_, hc, h.trailing _ hc⟩

/-- Plain pieces with a plain separator are plain. -/
theorem isPlain_intercalate (hfirst : IsPlain first) (h : ∀ piece ∈ pieces, IsPlain piece) :
    IsPlain (String.intercalate first pieces) := by
  induction pieces with
  | nil => exact (by decide : IsPlain "")
  | cons piece pieces ih =>
      obtain ⟨hpiece, hpieces⟩ := List.forall_mem_cons.mp h
      cases pieces with
      | nil => exact hpiece
      | cons next pieces =>
          rw [String.intercalate_cons_cons, isPlain_append, isPlain_append]
          exact ⟨⟨hpiece, hfirst⟩, ih hpieces⟩

/-- Plain pieces in angle brackets are plain. -/
theorem isPlain_angled (h : ∀ piece ∈ pieces, IsPlain piece) : IsPlain (angled pieces) := by
  have hseparated := isPlain_intercalate (by decide : IsPlain ", ") h
  rw [angled, isPlain_append, isPlain_append]
  exact ⟨⟨by decide, hseparated⟩, by decide⟩

/-- Written numbers are plain. -/
theorem isPlain_repr (count : Nat) : IsPlain count.repr := by
  intro c hc
  rw [Nat.toList_repr] at hc
  have hdigit := Nat.isDigit_of_mem_toDigits (by decide) (by decide) hc
  refine ⟨?_, ?_, ?_⟩ <;> rintro rfl <;> exact absurd hdigit (by decide)

theorem isPlain_repr_int (value : Int) : IsPlain value.repr := by
  cases value with
  | ofNat count => exact isPlain_repr count
  | negSucc count =>
      have hsign : IsPlain "-" := by decide
      exact isPlain_append.mpr ⟨hsign, isPlain_repr (count + 1)⟩

end Text

namespace Layout

open Text

/-- Pieces that are drawn one after another are drawn as one. -/
theorem draw_pieces (indent : Int) (page : Page) (pieces : List String) :
    draw indent page (sequence (pieces.map text)) = page.write (String.join pieces) := by
  show drawAll indent page (pieces.map text) = _
  induction pieces generalizing page with
  | nil => rfl
  | cons piece pieces ih =>
      rw [String.join_cons, ← Page.write_write, ← ih]
      rfl

/-- Plain pieces, the first of which opens and the last of which ends a phrase. -/
theorem spellsPhrase_pieces (first : String) (middle : List String) (last : String)
    (h : Opens first ∧ Ends last ∧ ∀ piece ∈ first :: (middle ++ [last]), IsPlain piece) :
    SpellsPhrase (sequence ((first :: (middle ++ [last])).map text)) := by
  obtain ⟨hopens, hends, hplain⟩ := h
  have hjoined : IsPlain (String.join (first :: (middle ++ [last]))) := by
    intro c hc
    rw [String.toList_join] at hc
    obtain ⟨piece, hpiece, hc⟩ := List.mem_flatMap.mp hc
    exact hplain piece hpiece c hc
  refine ⟨_, ⟨?_, ?_, ?_, ?_⟩, fun indent page => draw_pieces indent page _⟩
  · rw [String.join_cons]
    exact hopens.append _
  · rw [String.join_cons, String.join_append, String.join_cons, String.join_nil,
      String.append_empty]
    exact (hends.append _).append _
  · exact fun hbreak => (hjoined _ hbreak).1 rfl
  · exact .of_free fun c hc => (hjoined c hc).2

/-- A layout of several parts in front of others. -/
theorem render_sequence_cons (first second : List Layout) :
    (sequence (sequence first :: second)).render = (sequence (first ++ second)).render :=
  congrArg Page.written (drawAll_append 0 Page.blank first second).symm

/-- Layouts that start a line together, and more lines below. -/
theorem StartsLine.append {parts rest : List Layout} (hparts : StartsLine (sequence parts))
    (hrest : AddsLines (sequence rest)) : StartsLine (sequence (parts ++ rest)) := by
  obtain ⟨lines, hlines, hdrawn⟩ := hparts.cons hrest
  refine ⟨lines, hlines, fun indent page => ?_⟩
  rw [← hdrawn]
  exact drawAll_append indent _ parts rest

/-- Nothing in front of a phrase. -/
theorem SpellsPhrase.nothing_cons {parts : List Layout} (h : SpellsPhrase (sequence parts)) :
    SpellsPhrase (sequence (text "" :: parts)) := h

/-- A plain text is a phrase if it opens and ends one. -/
theorem isPhrase_plain {piece : String} (h : IsPlain piece ∧ Opens piece ∧ Ends piece) :
    IsPhrase piece :=
  ⟨h.2.1, h.2.2, fun hbreak => (h.1 _ hbreak).1 rfl, .of_free fun c hc => (h.1 c hc).2⟩

theorem spellsPhrase_plain {piece : String} (h : IsPlain piece ∧ Opens piece ∧ Ends piece) :
    SpellsPhrase (text piece) :=
  spellsPhrase_text (isPhrase_plain h)

/-- A plain text that opens and ends a phrase is a line of its own. -/
theorem startsLine_plain {piece : String} (h : IsPlain piece ∧ Opens piece ∧ Ends piece) :
    StartsLine (text piece) :=
  (spellsPhrase_plain h).startsLine

/-- A line break in front of what starts a line. -/
theorem StartsLine.addsLines_singleton {part : Layout} (h : StartsLine part) :
    AddsLines (sequence [line, part]) :=
  (h.cons addsLines_nil).addsLines

/-- A line break in front of what adds lines leaves a line blank. -/
theorem AddsLines.blank {rest : List Layout} (h : AddsLines (sequence rest)) :
    AddsLines (sequence (line :: rest)) :=
  h.startsLine.addsLines

end Layout

/-! ## The names in a program -/

namespace Statement

mutual

/-- The names and types that are written for a statement. -/
def texts : Statement → List String
  | declareResults result => [result.display]
  | declarePending element => [element.display]
  | forEachLive body => textsIn body
  | invoke call | collectResult call | collectPending call => [call.method]
  | byCount zero one many => textsIn zero ++ (textsIn one ++ textsIn many)
  | takeSnapshot | breakIfFull _ | countInvocation | shrinkToCount _ | awaitFirst | awaitAll
  | finish _ => []

/-- The names and types that are written for several statements. -/
def textsIn : List Statement → List String
  | [] => []
  | first :: rest => first.texts ++ textsIn rest

end

end Statement

/-- The names that are written for a registration. -/
def Registration.texts (entry : Registration) : List String := [entry.interface, entry.broker]

/-- The names that are written for a routine. -/
def Routine.texts (routine : Routine) : List String :=
  routine.registrations.flatMap Registration.texts ++ routine.childCalls

/-- The names and types that are written for a method. -/
def BrokerMethod.texts (method : BrokerMethod) : List String :=
  [method.returnType.display, method.interface, method.name] ++
    (method.parameters.map TypeExpr.display ++ Statement.textsIn method.body)

/-- The names and types that are written for a broker class. -/
def BrokerClass.texts (broker : BrokerClass) : List String :=
  [broker.name, broker.interface] ++ (broker.typeParameters ++
    (broker.methods.flatMap BrokerMethod.texts ++
      broker.selfRegistration.toList.flatMap Registration.texts))

namespace Item

mutual

/-- The names and types that are written for an item. -/
def texts : Item → List String
  | broker brokerClass => brokerClass.texts
  | scope _ _ name items initializer =>
    name :: (textsIn items ++ initializer.toList.flatMap Routine.texts)

/-- The names and types that are written for several items. -/
def textsIn : List Item → List String
  | [] => []
  | first :: rest => first.texts ++ textsIn rest

end

end Item

/-- The names and types that are written for a namespace. Types without a namespace have none to
write. -/
def NamespaceUnit.texts (unit : NamespaceUnit) : List String :=
  (if unit.namespaceName = "" then [] else [unit.namespaceName]) ++ Item.textsIn unit.items

/-- The names that are written for the startup hook. -/
def ModuleHook.texts (hook : ModuleHook) : List String := [hook.namespaceName, hook.className]

namespace Render

open Layout Text

/-! ## Statements -/

section Statements

variable {result : Option TypeExpr} {type : TypeExpr} {call : Call}

theorem isPlain_argumentNames (count : Nat) : ∀ name ∈ argumentNames count, IsPlain name := by
  intro name hname
  obtain ⟨index, -, rfl⟩ := List.mem_map.mp hname
  exact isPlain_append.mpr ⟨by decide, isPlain_repr (index + 1)⟩

/-- The call of a method is plain: its arguments are numbered, and its name is a name. -/
theorem isPlain_invocation (h : IsName call.method) : IsPlain (invocation call) := by
  have harguments := isPlain_intercalate (by decide : IsPlain ", ")
    (isPlain_argumentNames call.arguments)
  simp +decide [invocation, h.plain, harguments]

theorem opens_invocation (call : Call) : Opens (invocation call) := by
  have hfront : Opens "instance." := by decide
  exact ((hfront.append _).append _ |>.append _).append _

/-- The parts of a written type are plain if it is. -/
theorem isPlain_arrayCreation (h : IsName type.display) :
    IsPlain (arrayCreation type "countHint") := by
  have hparts := h.plain
  rw [← elementFront_append, isPlain_append] at hparts
  rw [arrayCreation_eq]
  simp +decide [hparts]

/-- The buffer is allocated in lines of phrases. -/
theorem startsLine_allocation {allocated : String} (h : IsPlain allocated) : StartsLine
    (block "if (results is null)"
      (sequence [line, "results = ", allocated, ";", line, "results[0] = firstResult;"])) := by
  have hphrase := spellsPhrase_pieces "results = " [allocated] ";" (by simp +decide [h])
  have hmoved : StartsLine "results[0] = firstResult;" := startsLine_plain (by decide)
  exact startsLine_block (spellsPhrase_plain (by decide))
    (hphrase.startsLine.append hmoved.addsLines_singleton).addsLines

/-- Keeping a value is written in lines of phrases. -/
theorem startsLine_collectResult (hcall : IsName call.method)
    (hresult : ∀ type ∈ result, IsName type.display) :
    StartsLine (collectResult result call) := by
  have hheader := spellsPhrase_pieces "if (" [invocation call] ".TryGetSingleResult(out var r))"
    (by simp +decide [isPlain_invocation hcall])
  have hslot : StartsLine "firstResult = r;" := startsLine_plain (by decide)
  have hfirst : StartsLine (block "if (count == 0)" (sequence [line, "firstResult = r;"])) :=
    startsLine_block (spellsPhrase_plain (by decide)) hslot.addsLines_singleton
  have hstored : StartsLine "results[count] = r;" := startsLine_plain (by decide)
  have hcounted : StartsLine "count++;" := startsLine_plain (by decide)
  have helse : SpellsPhrase "else" := spellsPhrase_plain (by decide)
  -- The text of the new array is all in which the two cases differ.
  have hfurther {allocated : String} (h : IsPlain allocated) :=
    startsLine_block helse
      ((startsLine_allocation h).cons hstored.addsLines_singleton.blank).addsLines
  have hall {allocated : String} (h : IsPlain allocated) :=
    startsLine_block hheader
      (hfirst.cons ((hfurther h).cons hcounted.addsLines_singleton.blank).addsLines).addsLines
  cases result with
  | none => exact hall (by decide : IsPlain "new object[countHint]")
  | some type => exact hall (isPlain_arrayCreation (hresult type rfl))

theorem isPlain_answer (value : Answer) : IsPlain (answer value) := by
  cases value <;> decide +kernel

theorem isPlain_bufferName (buffer : Buffer) : IsPlain (bufferName buffer) := by
  cases buffer <;> decide

/-- An entry that no longer resolves is passed over on one line. -/
theorem spellsPhrase_disposal : SpellsPhrase
    "if (!x.TryGetInstance(out var instance)) \x7b x.Dispose(); continue; \x7d" := by
  have hfront : IsPlain "if (!x.TryGetInstance(out var instance)) " := by decide
  have hinner : IsPlain " x.Dispose(); continue; " := by decide
  have hbraces : Nested ('{' :: (" x.Dispose(); continue; ".toList ++ ['}'])) :=
    .braced (.of_free fun c hc => (hinner c hc).2)
  exact spellsPhrase_text ⟨⟨'i', rfl, by decide⟩, ⟨'}', rfl, by decide⟩, by decide,
    .append (.of_free fun c hc => (hfront c hc).2) hbraces⟩

mutual

/-- A statement is written in lines of phrases. -/
theorem startsLine_statement (hresult : ∀ type ∈ result, IsName type.display) :
    ∀ current : Statement, (∀ text ∈ current.texts, IsName text) →
      StartsLine (statement result current)
  | .takeSnapshot, _ => startsLine_plain (by decide)
  | .declareResults type, h => by
      have htype : IsName type.display := List.forall_mem_singleton.mp h
      have hslot := spellsPhrase_pieces type.display [] " firstResult = default!;"
        (by simp +decide [htype.opens, htype.plain])
      have hbuffer := spellsPhrase_pieces type.display [] "[]? results = default;"
        (by simp +decide [htype.opens, htype.plain])
      have hstored : StartsLine "var count = 0;" := startsLine_plain (by decide)
      have hinvoked : StartsLine "var invoked = 0;" := startsLine_plain (by decide)
      exact hslot.startsLine.append (hbuffer.startsLine.append
        (hstored.cons hinvoked.addsLines_singleton).addsLines).addsLines
  | .declarePending element, h => by
      have helement := isPlain_arrayCreation (List.forall_mem_singleton.mp h)
      have hbuffer := spellsPhrase_pieces "var tasks = " [arrayCreation element "countHint"] ";"
        (by simp +decide [helement])
      have hstored : StartsLine "var count = 0;" := startsLine_plain (by decide)
      exact hbuffer.startsLine.append hstored.addsLines_singleton
  | .forEachLive body, h => by
      have hbody := addsLines_lines (startsLine_statements hresult body h)
      refine startsLine_block (spellsPhrase_plain (by decide)) ?_
      have hskipped : StartsLine "if (x is null) continue;" := startsLine_plain (by decide)
      exact (hskipped.cons (spellsPhrase_disposal.startsLine.cons
        (hbody.cons addsLines_nil)).addsLines).addsLines
  | .breakIfFull .stored, _ => startsLine_plain (by decide)
  | .breakIfFull .invoked, _ => startsLine_plain (by decide)
  | .countInvocation, _ => startsLine_plain (by decide)
  | .invoke call, h => by
      have hcall := isPlain_invocation (List.forall_mem_singleton.mp h)
      exact (spellsPhrase_pieces (invocation call) [] ";"
        (by simp +decide [opens_invocation, hcall])).startsLine
  | .collectResult call, h => startsLine_collectResult (List.forall_mem_singleton.mp h) hresult
  | .collectPending call, h => by
      have hcall := isPlain_invocation (List.forall_mem_singleton.mp h)
      exact (spellsPhrase_pieces "tasks[count++] = " [invocation call] ";"
        (by simp +decide [hcall])).startsLine
  | .byCount zero one many, h => by
      obtain ⟨hzero, h⟩ := List.forall_mem_append.mp h
      obtain ⟨hone, hmany⟩ := List.forall_mem_append.mp h
      have hnone : StartsLine (block "if (count == 0)" (lines (statements result zero))) :=
        startsLine_block (spellsPhrase_plain (by decide))
          (addsLines_lines (startsLine_statements hresult zero hzero))
      have hsingle : StartsLine (block "else if (count == 1)" (lines (statements result one))) :=
        startsLine_block (spellsPhrase_plain (by decide))
          (addsLines_lines (startsLine_statements hresult one hone))
      have hseveral : StartsLine (block "else" (lines (statements result many))) :=
        startsLine_block (spellsPhrase_plain (by decide))
          (addsLines_lines (startsLine_statements hresult many hmany))
      exact hnone.cons (hsingle.cons hseveral.addsLines_singleton).addsLines
  | .shrinkToCount buffer, _ =>
      (spellsPhrase_pieces "if (count < countHint) Array.Resize(ref " [bufferName buffer]
        ", count);" (by simp +decide [isPlain_bufferName])).startsLine
  | .awaitFirst, _ => startsLine_plain (by decide)
  | .awaitAll, _ => startsLine_plain (by decide)
  | .finish none, _ => startsLine_plain (by decide)
  | .finish (some value), _ =>
      (spellsPhrase_pieces "return " [answer value] ";"
        (by simp +decide [isPlain_answer])).startsLine

/-- Statements are written in lines of phrases each. -/
theorem startsLine_statements (hresult : ∀ type ∈ result, IsName type.display) :
    ∀ current : List Statement, (∀ text ∈ Statement.textsIn current, IsName text) →
      ∀ part ∈ statements result current, StartsLine part
  | [], _ => by simp [statements]
  | first :: rest, h => by
      obtain ⟨hfirst, hrest⟩ := List.forall_mem_append.mp h
      exact List.forall_mem_cons.mpr ⟨startsLine_statement hresult first hfirst,
        startsLine_statements hresult rest hrest⟩

end

end Statements

/-! ## Registrations and routines -/

section Routines

variable {entry : Registration} {current : Routine}

/-- A registration is a line of its own. -/
theorem startsLine_registration (h : ∀ text ∈ entry.texts, IsName text) :
    StartsLine (registration entry) := by
  obtain ⟨hinterface, h⟩ := List.forall_mem_cons.mp h
  have hbroker := (List.forall_mem_singleton.mp h).plain
  exact (spellsPhrase_pieces "ChannelRegistry.Register(new(typeof("
    [entry.interface, "), x => new ", entry.broker, "(x), () => new Channel<", entry.interface,
     ">(), (a) => new Channel<", entry.interface, ">(a), ", toString entry.maxLinks]
    "));" (by simp +decide [hinterface.plain, hbroker, isPlain_repr_int])).startsLine

/-- The call of a nested routine is a line of its own. -/
theorem startsLine_childCall {child : String} (h : IsName child) : StartsLine (childCall child) :=
  (spellsPhrase_pieces child [".", initializerName] "();"
    (by simp +decide [h.opens, h.plain])).startsLine

/-- A routine is written in lines of phrases. -/
theorem startsLine_routine (h : ∀ text ∈ current.texts, IsName text) :
    StartsLine (routine current) := by
  obtain ⟨hregistrations, hcalls⟩ := List.forall_mem_append.mp h
  refine startsLine_block (spellsPhrase_pieces "internal static void " [initializerName] "()"
    (by decide)) (addsLines_lines ?_)
  refine List.forall_mem_append.mpr ⟨List.forall_mem_map.mpr fun entry hentry => ?_,
    List.forall_mem_map.mpr fun child hchild => startsLine_childCall (hcalls child hchild)⟩
  exact startsLine_registration fun text htext =>
    hregistrations text (List.mem_flatMap.mpr ⟨entry, hentry, htext⟩)

end Routines

/-! ## Broker classes and scopes -/

section Items

variable {members : List Layout}

/-- Members that start a line, with blank lines between them, start a line. -/
theorem startsLine_separated (h : ∀ member ∈ members, StartsLine member) :
    StartsLine (separated members) := by
  unfold separated join
  induction members with
  | nil => exact addsLines_nil.startsLine
  | cons member members ih =>
      obtain ⟨hmember, hmembers⟩ := List.forall_mem_cons.mp h
      cases members with
      | nil => exact hmember.cons addsLines_nil
      | cons next members =>
          have hrest : AddsLines (sequence (sequence [line, line] ::
              (next :: members).intersperse (sequence [line, line]))) :=
            (ih hmembers).addsLines.blank
          exact hmember.cons hrest

/-- Members that start a line are the body of a block. -/
theorem addsLines_blockBody (h : ∀ member ∈ members, StartsLine member) :
    AddsLines (blockBody members) := by
  unfold blockBody
  split
  · exact addsLines_empty
  · exact (startsLine_separated h).addsLines_singleton

/-- The type that a body declares for its values is one of those that are written for it. -/
theorem isName_resultType {statements : List Statement} {type : TypeExpr}
    (h : ∀ text ∈ Statement.textsIn statements, IsName text)
    (htype : type ∈ resultType? statements) : IsName type.display := by
  unfold resultType? at htype
  split at htype
  · next first result rest =>
      obtain rfl := Option.some.inj htype
      exact h _ (List.mem_append_right _ (List.mem_append_left _ (List.mem_singleton_self _)))
  · cases htype

/-- The parameters of a method are plain if their types are. -/
theorem isPlain_parameterList {types : List TypeExpr}
    (h : ∀ type ∈ types, IsName type.display) : IsPlain (parameterList types) := by
  refine isPlain_intercalate (by decide) (List.forall_mem_map.mpr fun parameter hparameter => ?_)
  obtain ⟨htype, hname⟩ := List.of_mem_zip hparameter
  have hname := isPlain_argumentNames _ _ hname
  simp +decide [(h _ htype).plain, hname]

/-- A method is written in lines of phrases. -/
theorem startsLine_brokerMethod {method : BrokerMethod} (h : ∀ text ∈ method.texts, IsName text) :
    StartsLine (brokerMethod method) := by
  obtain ⟨hsignature, h⟩ := List.forall_mem_append.mp h
  obtain ⟨hparameters, hbody⟩ := List.forall_mem_append.mp h
  have hreturns : IsName method.returnType.display := hsignature _ (by simp)
  have hinterface : IsName method.interface := hsignature _ (by simp)
  have hname : IsName method.name := hsignature _ (by simp)
  have hplain := And.intro hreturns.plain (And.intro hinterface.plain (And.intro hname.plain
    (isPlain_parameterList (List.forall_mem_map.mp hparameters))))
  have hstatements := addsLines_lines (startsLine_statements
    (fun type htype => isName_resultType hbody htype) method.body hbody)
  refine startsLine_block ?_ hstatements
  cases method.isAsync with
  | true =>
      exact spellsPhrase_pieces "async " [method.returnType.display, " ", method.interface, ".",
        method.name, "(", parameterList method.parameters] ")" (by simp +decide [hplain])
  | false =>
      exact (spellsPhrase_pieces method.returnType.display [" ", method.interface, ".",
        method.name, "(", parameterList method.parameters] ")"
        (by simp +decide [hplain, hreturns.opens])).nothing_cons

/-- The method by which a broker class registers itself is written in lines of phrases. -/
theorem startsLine_selfRegistration {entry : Registration}
    (h : ∀ text ∈ entry.texts, IsName text) : StartsLine (selfRegistration entry) :=
  startsLine_block
    (spellsPhrase_pieces "public static void " [initializerName] "()" (by decide))
    (startsLine_registration h).addsLines_singleton

/-- The constructor of a broker class keeps its channel. -/
theorem startsLine_constructor {name channel : String} (hname : IsPlain name)
    (hchannel : IsPlain channel) : StartsLine
      (block (sequence ["public ", name, "(object channel)"])
        (sequence [line, "this.channel = (", channel, ")channel;"])) := by
  have hheader := spellsPhrase_pieces "public " [name] "(object channel)"
    (by simp +decide [hname])
  have hassignment := spellsPhrase_pieces "this.channel = (" [channel] ")channel;"
    (by simp +decide [hchannel])
  exact startsLine_block hheader hassignment.startsLine.addsLines

/-- A broker class is written in lines of phrases. -/
theorem startsLine_brokerClass {broker : BrokerClass} (h : ∀ text ∈ broker.texts, IsName text) :
    StartsLine (brokerClass broker) := by
  obtain ⟨hnames, h⟩ := List.forall_mem_append.mp h
  obtain ⟨hparameters, h⟩ := List.forall_mem_append.mp h
  obtain ⟨hmethods, hregistration⟩ := List.forall_mem_append.mp h
  have hname : IsName broker.name := hnames _ (by simp)
  have hinterface : IsName broker.interface := hnames _ (by simp)
  have hchannel : IsPlain ("Channel<" ++ broker.interface ++ ">") := by
    simp +decide [hinterface.plain]
  have hfield := spellsPhrase_pieces "private readonly " ["Channel<" ++ broker.interface ++ ">"]
    " channel;" (by simp +decide [hinterface.plain])
  have haccess : IsPlain (if broker.nested then "private" else "internal") ∧
      Opens (if broker.nested then "private" else "internal") := by
    cases broker.nested <;> decide
  have hangled : IsPlain
      (if broker.typeParameters.isEmpty then "" else angled broker.typeParameters) := by
    split
    · exact (by decide : IsPlain "")
    · exact isPlain_angled fun parameter hparameter => (hparameters parameter hparameter).plain
  have hheader := spellsPhrase_pieces (if broker.nested then "private" else "internal")
    [" class ", broker.name,
     if broker.typeParameters.isEmpty then "" else angled broker.typeParameters, " : "]
    broker.interface
    (by simp +decide only [List.cons_append, List.nil_append, List.forall_mem_cons, haccess,
      hname.plain, hangled, hinterface.ends, hinterface.plain])
  refine startsLine_block hheader (addsLines_blockBody (List.forall_mem_append.mpr
    ⟨List.forall_mem_append.mpr ⟨?_, List.forall_mem_map.mpr fun method hmethod => ?_⟩,
      List.forall_mem_map.mpr fun entry hentry => ?_⟩))
  · exact List.forall_mem_cons.mpr ⟨hfield.startsLine,
      List.forall_mem_singleton.mpr (startsLine_constructor hname.plain hchannel)⟩
  · exact startsLine_brokerMethod fun text htext =>
      hmethods text (List.mem_flatMap.mpr ⟨method, hmethod, htext⟩)
  · exact startsLine_selfRegistration fun text htext =>
      hregistration text (List.mem_flatMap.mpr ⟨entry, hentry, htext⟩)

mutual

/-- An item is written in lines of phrases. -/
theorem startsLine_item : ∀ current : Item, (∀ text ∈ current.texts, IsName text) →
    StartsLine (item current)
  | .broker broker, h => startsLine_brokerClass h
  | .scope accessibility kind name contents initializer, h => by
      obtain ⟨hname, h⟩ := List.forall_mem_cons.mp h
      obtain ⟨hcontents, hroutines⟩ := List.forall_mem_append.mp h
      have hheader : SpellsPhrase
          (sequence [accessibility.keyword, " partial ", kind.keyword, " ", name]) := by
        have haccess : Opens accessibility.keyword ∧ IsPlain accessibility.keyword := by
          cases accessibility <;> decide
        have hkind : IsPlain kind.keyword := by cases kind <;> decide
        exact spellsPhrase_pieces accessibility.keyword [" partial ", kind.keyword, " "] name
          (by simp +decide [haccess, hkind, hname.ends, hname.plain])
      refine startsLine_block hheader (addsLines_blockBody (List.forall_mem_append.mpr
        ⟨startsLine_items contents hcontents, List.forall_mem_map.mpr fun routine hroutine => ?_⟩))
      exact startsLine_routine fun text htext =>
        hroutines text (List.mem_flatMap.mpr ⟨routine, hroutine, htext⟩)

/-- Items are written in lines of phrases each. -/
theorem startsLine_items : ∀ current : List Item, (∀ text ∈ Item.textsIn current, IsName text) →
    ∀ part ∈ items current, StartsLine part
  | [], _ => by simp [items]
  | first :: rest, h => by
      obtain ⟨hfirst, hrest⟩ := List.forall_mem_append.mp h
      exact List.forall_mem_cons.mpr ⟨startsLine_item first hfirst, startsLine_items rest hrest⟩

end

end Items

/-! ## Files -/

/-- A comment, and below it lines: a file is what stands at the top of all files, and what starts a
line behind that. -/
theorem wellLaid_file {rest : List Layout} (h : StartsLine (sequence rest)) :
    WellLaid (sequence (header :: rest)).render := by
  have husings : AddsLines (lines (usedNamespaces.map fun (name : String) =>
      sequence ["using ", name, ";"])) := by
    refine addsLines_lines (List.forall_mem_map.mpr fun name hname => ?_)
    have hplain : ∀ name ∈ usedNamespaces, IsPlain name := by decide
    exact (spellsPhrase_pieces "using " [name] ";" (by simp +decide [hplain name hname])).startsLine
  have hnullable : StartsLine "#nullable enable" := startsLine_plain (by decide)
  have hcomments : StartsLine "#pragma warning disable CS1591" := startsLine_plain (by decide)
  have hawaits : StartsLine "#pragma warning disable CS1998" := startsLine_plain (by decide)
  have hbelow := husings.cons (hnullable.cons (hcomments.cons
    (hawaits.cons h.addsLines.blank).addsLines).addsLines).addsLines.blank
  have hcomment : IsPlain "// <auto-generated/>" ∧ Opens "// <auto-generated/>" ∧
      Ends "// <auto-generated/>" := by decide
  rw [header, render_sequence_cons]
  exact wellLaid_render (isPhrase_plain hcomment) hbelow

/-- The class of the root routine is written in lines of phrases. -/
theorem startsLine_rootClass {root : Routine} (h : ∀ text ∈ root.texts, IsName text) :
    StartsLine (rootClass root) := by
  have hclass : SpellsPhrase "internal static class Root" := spellsPhrase_plain (by decide)
  have hnamespace := spellsPhrase_pieces "namespace " [] rootNamespace (by decide)
  exact startsLine_block hnamespace
    (startsLine_block hclass (startsLine_routine h).addsLines_singleton).addsLines_singleton

/-- The method of the startup class is written in lines of phrases. -/
theorem startsLine_initializeMethod : StartsLine initializeMethod := by
  have hguard : StartsLine "if (Initialized) return;" := startsLine_plain (by decide)
  have hmark : StartsLine "Initialized = true;" := startsLine_plain (by decide)
  have hcall := spellsPhrase_pieces rootNamespace [".Root.", initializerName] "();" (by decide)
  exact startsLine_block (spellsPhrase_plain (by decide))
    (hguard.cons (hmark.cons hcall.startsLine.addsLines).addsLines).addsLines

/-- The class of the startup hook is written in lines of phrases. -/
theorem startsLine_hookClass {hook : ModuleHook} (h : ∀ text ∈ hook.texts, IsName text) :
    StartsLine (hookClass hook) := by
  obtain ⟨hnamespace, h⟩ := List.forall_mem_cons.mp h
  have hclass : IsName hook.className := List.forall_mem_singleton.mp h
  have hflag : StartsLine "private static bool Initialized;" := startsLine_plain (by decide)
  have hmark : AddsLines
      (if hook.useModuleInitializer then sequence [line, "[ModuleInitializer]"] else empty) := by
    split
    · exact (startsLine_plain (by decide)).addsLines_singleton
    · exact addsLines_empty
  have hmembers := hflag.cons
    (hmark.cons startsLine_initializeMethod.addsLines_singleton).blank
  have hheader := spellsPhrase_pieces "public static class " [] hook.className
    (by simp +decide [hclass.ends, hclass.plain])
  exact startsLine_block (spellsPhrase_pieces "namespace " [] hook.namespaceName
    (by simp +decide [hnamespace.ends, hnamespace.plain]))
    (startsLine_block hheader hmembers.addsLines).addsLines_singleton

/-- Every file of a namespace is laid well, and so is every file of a root routine and a startup
hook, if the names and types in it are names. -/
theorem sources_wellLaid :
    (∀ unit : NamespaceUnit, (∀ text ∈ unit.texts, IsName text) →
      WellLaid (namespaceSource unit)) ∧
    ∀ (root : Routine) (hook : ModuleHook), (∀ text ∈ root.texts ++ hook.texts, IsName text) →
      WellLaid (initializerSource root hook) := by
  constructor
  · intro unit h
    obtain ⟨hnamespace, hitems⟩ := List.forall_mem_append.mp h
    have hmembers := startsLine_separated (startsLine_items unit.items hitems)
    have hend : AddsLines (sequence [line]) := addsLines_nil.blank
    have hbehind := hmembers.cons hend
    refine wellLaid_file ?_
    by_cases hglobal : unit.namespaceName = ""
    · rw [if_pos hglobal]
      exact hbehind
    · rw [if_neg hglobal] at hnamespace ⊢
      have hname : IsName unit.namespaceName := List.forall_mem_singleton.mp hnamespace
      have hscope := spellsPhrase_pieces "namespace " [unit.namespaceName] ";"
        (by simp +decide [hname.plain])
      exact hscope.startsLine.append hbehind.addsLines.blank
  · intro root hook h
    obtain ⟨hroot, hhook⟩ := List.forall_mem_append.mp h
    have hend : AddsLines (sequence [line]) := addsLines_nil.blank
    exact wellLaid_file ((startsLine_rootClass hroot).cons
      ((startsLine_hookClass hhook).cons hend).addsLines.blank)

/-- A broker that collects results, in a type that declares its interface. -/
def collectingScope : Item :=
  .scope .internalAccess .classType "Hub"
    [.broker
      { name := "Broker", typeParameters := ["T"], nested := true, interface := "I<T>"
        methods :=
          [{ name := "Get", interface := "N.Hub.I<T>", returnType := ⟨"Result", [⟨"T", [], ""⟩], ""⟩
             parameters := [⟨"int", [], "[]"⟩], kind := .singleResult
             body := resultsBody ⟨"Get", 1⟩ ⟨"T", [], ""⟩ }]
        selfRegistration := some ⟨"N.Hub.I<T>", "N.Hub.Broker<T>", 3⟩ }]
    (some ⟨[⟨"N.Hub.I<int>", "N.Hub.Broker<int>", 3⟩], ["Inner"]⟩)

/-- The lines that all files start with. -/
def headLines : List String :=
  ["// <auto-generated/>", "using System;", "using System.Collections.Generic;",
   "using System.Diagnostics.CodeAnalysis;", "using System.Linq;",
   "using System.Runtime.CompilerServices;", "using System.Threading.Tasks;",
   "using CrossChannel;", "", "#nullable enable", "#pragma warning disable CS1591",
   "#pragma warning disable CS1998", ""]

/-- The first lines behind the head in the file of a namespace that holds `collectingScope`. -/
def scopeLines : List String :=
  ["namespace N;", "",
   "internal partial class Hub",
   "\x7b",
   "    private class Broker<T> : I<T>",
   "    \x7b",
   "        private readonly Channel<I<T>> channel;", "",
   "        public Broker(object channel)",
   "        \x7b",
   "            this.channel = (Channel<I<T>>)channel;",
   "        \x7d", "",
   "        Result<T> N.Hub.I<T>.Get(int[] a1)",
   "        \x7b",
   "            (var array, var countHint) = this.channel.InternalGetList();",
   "            T firstResult = default!;",
   "            T[]? results = default;"]

/-- The lines behind the head in the file of a startup hook, where the root routine calls one
other. -/
def startupLines : List String :=
  ["namespace CrossChannel.Generated",
   "\x7b",
   "    internal static class Root",
   "    \x7b",
   "        internal static void __InitializeCC__()",
   "        \x7b",
   "            N.Hub.__InitializeCC__();",
   "        \x7d",
   "    \x7d",
   "\x7d", "",
   "namespace N",
   "\x7b",
   "    public static class Startup",
   "    \x7b",
   "        private static bool Initialized;", "",
   "        [ModuleInitializer]",
   "        public static void Initialize()",
   "        \x7b",
   "            if (Initialized) return;",
   "            Initialized = true;",
   "            CrossChannel.Generated.Root.__InitializeCC__();",
   "        \x7d",
   "    \x7d",
   "\x7d", ""]

/-- The file of a namespace with two such types, and that of a startup hook, are laid well; and
these are their lines. -/
theorem sources_wellLaid_collecting :
    (∀ text ∈ (NamespaceUnit.mk "N" [collectingScope, collectingScope]).texts, IsName text) ∧
      WellLaid (namespaceSource ⟨"N", [collectingScope, collectingScope]⟩) ∧
      WellLaid (initializerSource ⟨[], ["N.Hub"]⟩ ⟨"N", "Startup", true⟩) ∧
      (∃ rest, namespaceSource ⟨"N", [collectingScope, collectingScope]⟩ =
        String.intercalate "\n" (headLines ++ scopeLines ++ rest)) ∧
      initializerSource ⟨[], ["N.Hub"]⟩ ⟨"N", "Startup", true⟩ =
        String.intercalate "\n" (headLines ++ startupLines) := by
  have hunit : ∀ text ∈ (NamespaceUnit.mk "N" [collectingScope, collectingScope]).texts,
      IsName text := by decide +kernel
  have hscope : headLines ++ scopeLines <+:
      (namespaceLayout ⟨"N", [collectingScope, collectingScope]⟩).renderedLines :=
    List.isPrefixOf_iff_prefix.mp (by decide +kernel)
  have hstartup : (initializerLayout ⟨[], ["N.Hub"]⟩ ⟨"N", "Startup", true⟩).renderedLines =
      headLines ++ startupLines := by
    decide +kernel
  refine ⟨hunit, sources_wellLaid.1 _ hunit, sources_wellLaid.2 _ _ (by decide +kernel), ?_, ?_⟩
  · obtain ⟨rest, hrest⟩ := hscope
    exact ⟨rest, by rw [hrest]; exact render_eq_intercalate _⟩
  · rw [← hstartup]
    exact render_eq_intercalate _

end Render

end RadioBroker
