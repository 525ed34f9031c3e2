import Mathlib.Data.List.Induction
import RadioBroker.Proofs.Dispatch.Body
import RadioBroker.Proofs.Render.Lines
import RadioBroker.Render.Statement
import RadioBroker.TypeExpr.Parser

/-!
# The buffer of results

The body of a method with single results declares a buffer for the values and allocates it once
there is a second value. The declaration writes a rank behind the type of the values, the allocation
writes it in front of the ranks that this type has itself, so the two write one type only where all
marks from the first rank on are plain ranks. For values that are arrays of several dimensions, or
arrays that may be null, they write different types.
-/

namespace RadioBroker.Render

open Layout

variable {indent : Int} {page : Page} {result : TypeExpr} {call : Call}

/-! ## The two types of the buffer -/

/-- The type with which the buffer is declared. -/
def declaredBuffer (result : TypeExpr) : String := result.display ++ "[]"

/-- A written type up to its first rank. -/
def elementFront (t : TypeExpr) : String :=
  (TypeExpr.applied t.head t.arguments).display ++
    String.ofList (t.suffix.toList.takeWhile (· ≠ '['))

/-- The marks of a type from its first rank on. -/
def elementRanks (t : TypeExpr) : String := String.ofList (t.suffix.toList.dropWhile (· ≠ '['))

/-- The type of the array that is allocated for values of a type. -/
def allocatedBuffer (result : TypeExpr) : String :=
  elementFront result ++ "[]" ++ elementRanks result

/-- An allocation names the type of the array, with the size in its first rank. -/
theorem arrayCreation_eq (result : TypeExpr) (size : String) :
    arrayCreation result size =
      "new " ++ elementFront result ++ "[" ++ size ++ "]" ++ elementRanks result := by
  simp [arrayCreation, elementFront, elementRanks, String.append_assoc]

/-! ## The lines of a body that keeps results -/

/-- The lines that keep a value. -/
def collectLines (call : Call) (result : TypeExpr) : List (Int × String) :=
  braced ("if (" ++ invocation call ++ ".TryGetSingleResult(out var r))")
    (braced "if (count == 0)" [(0, "firstResult = r;")] ++
      (braced "else"
        (braced "if (results is null)"
          [(0, "results = " ++ arrayCreation result "countHint" ++ ";"),
           (0, "results[0] = firstResult;")] ++
          [(0, ""), (0, "results[count] = r;")]) ++
      [(0, ""), (0, "count++;")]))

/-- Keeping a value is written in these lines. -/
theorem draw_collectResult :
    draw indent (page.breakLine indent) (collectResult (some result) call) =
      page.writeLines indent (collectLines call result) := by
  simp only [collectResult, block, draw, drawAll, Page.write_write, String.append_assoc]
  simp only [collectLines, Page.writeLines_braced, Page.writeLines_append, Page.writeLines_cons,
    Page.writeLines_nil, Page.write_empty, Int.add_zero, String.append_assoc]

/-- The lines of a body that keeps results. -/
def resultsLines (call : Call) (result : TypeExpr) : List (Int × String) :=
  [(0, "(var array, var countHint) = this.channel.InternalGetList();"),
   (0, result.display ++ " firstResult = default!;"),
   (0, declaredBuffer result ++ "? results = default;"),
   (0, "var count = 0;"),
   (0, "var invoked = 0;")] ++
  (braced "foreach (var x in array)"
    ([(0, "if (x is null) continue;"),
      (0, "if (!x.TryGetInstance(out var instance)) \x7b x.Dispose(); continue; \x7d"),
      (0, "if (invoked >= countHint) break;"),
      (0, "invoked++;")] ++
      collectLines call result) ++
   (braced "if (count == 0)" [(0, "return default;")] ++
    (braced "else if (count == 1)" [(0, "return new(firstResult);")] ++
     braced "else"
      [(0, "if (count < countHint) Array.Resize(ref results, count);"),
       (0, "return new(results!);")])))

/-- One of the lines declares the buffer, and one allocates it. -/
theorem mem_resultsLines (call : Call) (result : TypeExpr) :
    (0, declaredBuffer result ++ "? results = default;") ∈ resultsLines call result ∧
      (16, "results = " ++ arrayCreation result "countHint" ++ ";") ∈ resultsLines call result := by
  constructor <;> simp [resultsLines, collectLines, braced, indentWidth]

/-- The statements of a body that keeps results. -/
def resultsBody (call : Call) (result : TypeExpr) : List Statement :=
  [.takeSnapshot,
   .declareResults result,
   .forEachLive [.breakIfFull .invoked, .countInvocation, .collectResult call],
   .byCount [.finish (some .default)] [.finish (some .wrapFirst)]
     [.shrinkToCount .results, .finish (some .wrapResults)]]

/-- A body that keeps results is written in these lines. -/
theorem draw_resultsBody :
    draw indent page (body (resultsBody call result)) =
      page.writeLines indent (resultsLines call result) := by
  have hdefault : answer .default = "default" := rfl
  have hfirst : answer .wrapFirst = "new(firstResult)" := rfl
  have hall : answer .wrapResults = "new(results!)" := rfl
  simp only [body, resultsBody, resultType?, statements, statement, draw_lines, block, draw,
    drawAll, List.foldl_cons, List.foldl_nil, draw_collectResult, hdefault, hfirst, hall,
    bufferName, Page.write_write]
  simp only [resultsLines, Page.writeLines_braced, Page.writeLines_append, Page.writeLines_cons,
    Page.writeLines_nil, declaredBuffer, Int.add_zero, String.append_assoc, String.reduceAppend]

/-! ## Where the two types agree -/

/-- A text is the same with a pair of brackets in front of it and behind it if it is made of such
pairs. -/
theorem append_brackets_eq_iff {ranks : List Char} :
    ranks ++ ['[', ']'] = '[' :: ']' :: ranks ↔
      ∃ count, ranks = (List.replicate count ['[', ']']).flatten := by
  constructor
  · intro h
    induction ranks using List.twoStepInduction with
    | nil => exact ⟨0, rfl⟩
    | singleton c => simp at h
    | cons_cons c d ranks ih _ =>
        obtain ⟨rfl, h⟩ := List.cons.inj h
        obtain ⟨rfl, h⟩ := List.cons.inj h
        obtain ⟨count, rfl⟩ := ih h
        exact ⟨count + 1, rfl⟩
  · rintro ⟨count, rfl⟩
    induction count with
    | zero => rfl
    | succ count ih =>
        rw [List.replicate_succ, List.flatten_cons, List.append_assoc, ih]
        rfl

/-- A written type is what stands in front of its ranks and these. -/
theorem elementFront_append (t : TypeExpr) : elementFront t ++ elementRanks t = t.display := by
  obtain ⟨head, arguments, suffix⟩ := t
  have hmarks : String.ofList (suffix.toList.takeWhile (· ≠ '[')) ++
      String.ofList (suffix.toList.dropWhile (· ≠ '[')) = suffix := by
    rw [← String.ofList_append, List.takeWhile_append_dropWhile, String.ofList_toList]
  rw [elementFront, elementRanks, String.append_assoc, hmarks, TypeExpr.applied,
    TypeExpr.display_mk, TypeExpr.display_mk, String.append_empty]

/-- The two types of the buffer are one if the ranks of the values are plain. -/
theorem declaredBuffer_eq_iff :
    declaredBuffer result = allocatedBuffer result ↔
      ∃ count, (elementRanks result).toList = (List.replicate count ['[', ']']).flatten := by
  have hranks : declaredBuffer result = allocatedBuffer result ↔
      elementRanks result ++ "[]" = "[]" ++ elementRanks result := by
    rw [declaredBuffer, allocatedBuffer, ← elementFront_append, String.append_assoc,
      String.append_assoc, String.append_right_inj]
  rw [hranks, ← append_brackets_eq_iff, ← String.toList_inj, String.toList_append,
    String.toList_append]
  rfl

/-- The body of a method that returns results of a type is written in lines of which one declares
the buffer and one allocates it, for any size in the same way. The two write one type exactly if the
type of the values has no marks but plain ranks from its first rank on. -/
theorem results_buffer {method : ServiceMethod} (h : method.Classified)
    (hreturns : method.returnType = .applied radioResultName [result]) :
    (∃ statements, method.dispatchBody? = some statements ∧
      ∀ indent page, draw indent page (body statements) =
        page.writeLines indent (resultsLines method.call result)) ∧
      ((0, declaredBuffer result ++ "? results = default;") ∈ resultsLines method.call result ∧
        (16, "results = " ++ arrayCreation result "countHint" ++ ";") ∈
          resultsLines method.call result) ∧
      (∀ size, arrayCreation result size =
        "new " ++ elementFront result ++ "[" ++ size ++ "]" ++ elementRanks result) ∧
      (declaredBuffer result = allocatedBuffer result ↔
        ∃ count, (elementRanks result).toList = (List.replicate count ['[', ']']).flatten) := by
  refine ⟨⟨resultsBody method.call result, ?_, fun _ _ => draw_resultsBody⟩,
    mem_resultsLines method.call result, arrayCreation_eq result, declaredBuffer_eq_iff⟩
  have hclass : method.returnType.classify = ⟨.singleResult, some result⟩ := by
    rw [hreturns]
    simp [TypeExpr.classify, TypeExpr.isDefinition, TypeExpr.resultOf?, TypeExpr.applied,
      TypeExpr.arity, radioResultName]
  rw [h.classification] at hclass
  obtain ⟨hkind, hresult⟩ := Classification.mk.inj hclass
  rw [ServiceMethod.dispatchBody?, hkind, hresult]
  rfl

/-- A method that returns results of a type. -/
def getting (result : TypeExpr) : ServiceMethod where
  name := "Get"
  parameters := []
  returnType := .applied radioResultName [result]
  kind := .singleResult
  result := some result
  interface := "N.I"
  location := {}

/-- For values that are arrays of arrays the buffer is declared with the type it is allocated with.
-/
theorem results_buffer_arrays :
    declaredBuffer ⟨"int", [], "?[][]"⟩ = allocatedBuffer ⟨"int", [], "?[][]"⟩ ∧
      ∃ statements, (getting ⟨"int", [], "?[][]"⟩).dispatchBody? = some statements := by
  have hclassified : (getting ⟨"int", [], "?[][]"⟩).Classified := ⟨by decide, by decide⟩
  obtain ⟨⟨statements, hbody, _⟩, _, _, hsame⟩ := results_buffer hclassified rfl
  exact ⟨hsame.mpr ⟨2, by decide⟩, statements, hbody⟩

/-- For values that are arrays of two dimensions the buffer is declared with another type than it is
allocated with. -/
theorem results_buffer_plane :
    TypeExpr.parse "int[,]" = .ok ⟨"int", [], "[,]"⟩ ∧
      (getting ⟨"int", [], "[,]"⟩).Classified ∧
      (0, "int[,][]? results = default;") ∈
        resultsLines (getting ⟨"int", [], "[,]"⟩).call ⟨"int", [], "[,]"⟩ ∧
      (16, "results = new int[countHint][,];") ∈
        resultsLines (getting ⟨"int", [], "[,]"⟩).call ⟨"int", [], "[,]"⟩ ∧
      declaredBuffer ⟨"int", [], "[,]"⟩ = "int[,][]" ∧
      allocatedBuffer ⟨"int", [], "[,]"⟩ = "int[][,]" ∧
      declaredBuffer ⟨"int", [], "[,]"⟩ ≠ allocatedBuffer ⟨"int", [], "[,]"⟩ := by
  have hlines := mem_resultsLines (getting ⟨"int", [], "[,]"⟩).call ⟨"int", [], "[,]"⟩
  exact ⟨by decide +kernel, ⟨by decide, by decide⟩, hlines.1, hlines.2, by decide, by decide,
    by decide⟩

end RadioBroker.Render
