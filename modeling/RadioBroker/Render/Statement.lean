import RadioBroker.Dispatch.Statement
import RadioBroker.Layout
import RadioBroker.TypeExpr.Printer

/-!
# Rendering statements

The spelling of dispatch bodies. Names of locals are fixed: a snapshot has entries and a hint,
values are kept in a first slot and a buffer, pending operations in a buffer of tasks.
-/

namespace RadioBroker.Render

open Layout

/-- An array of elements of type `element` with room for `size` of them. The size stands in front
of the ranks that the element type has itself. -/
def arrayCreation (element : TypeExpr) (size : String) : String :=
  let marks := element.suffix.toList
  let inner := marks.takeWhile (· ≠ '[')
  let ranks := marks.dropWhile (· ≠ '[')
  "new " ++ (TypeExpr.applied element.head element.arguments).display ++ String.ofList inner ++
    "[" ++ size ++ "]" ++ String.ofList ranks

/-- The parameters of a broker method are called `a1`, `a2` and so on. -/
def argumentNames (count : Nat) : List String :=
  (List.range count).map fun index => "a" ++ toString (index + 1)

/-- A call on the subscriber. -/
def invocation (call : Call) : String :=
  "instance." ++ call.method ++ "(" ++ String.intercalate ", " (argumentNames call.arguments) ++ ")"

/-- What is returned. -/
def answer : Answer → String
  | .default => "default"
  | .wrapFirst => "new(firstResult)"
  | .wrapResults => "new(results!)"
  | .awaitFirst => "await tasks[0].ConfigureAwait(false)"
  | .awaitAllUnwrapped =>
    "new((await Task.WhenAll(tasks).ConfigureAwait(false))" ++
      ".Select(x => x.TryGetSingleResult(out var r) ? r : default!).ToArray())"

/-- Keeps a value: the first one in its slot, and all of them in the buffer once there is a
second. `result` is the type of the values, when it is known. -/
def collectResult (result : Option TypeExpr) (call : Call) : Layout :=
  let allocated :=
    match result with
    | some result => arrayCreation result "countHint"
    | none => "new object[countHint]"
  block (sequence ["if (", invocation call, ".TryGetSingleResult(out var r))"])
    (sequence
      [line, block "if (count == 0)" (sequence [line, "firstResult = r;"]),
       line, block "else"
        (sequence
          [line, block "if (results is null)"
            (sequence [line, "results = ", allocated, ";", line, "results[0] = firstResult;"]),
           line, line, "results[count] = r;"]),
       line, line, "count++;"])

/-- The name of a buffer. -/
def bufferName : Buffer → String
  | .results => "results"
  | .pending => "tasks"

mutual

/-- A statement. -/
def statement (result : Option TypeExpr) : Statement → Layout
  | .takeSnapshot => "(var array, var countHint) = this.channel.InternalGetList();"
  | .declareResults type =>
    sequence
      [type.display, " firstResult = default!;", line,
       type.display, "[]? results = default;", line,
       "var count = 0;", line,
       "var invoked = 0;"]
  | .declarePending element =>
    sequence ["var tasks = ", arrayCreation element "countHint", ";", line, "var count = 0;"]
  | .forEachLive body =>
    block "foreach (var x in array)"
      (sequence
        [line, "if (x is null) continue;",
         line, "if (!x.TryGetInstance(out var instance)) \x7b x.Dispose(); continue; \x7d",
         lines (statements result body)])
  | .breakIfFull .stored => "if (count >= countHint) break;"
  | .breakIfFull .invoked => "if (invoked >= countHint) break;"
  | .countInvocation => "invoked++;"
  | .invoke call => sequence [invocation call, ";"]
  | .collectResult call => collectResult result call
  | .collectPending call => sequence ["tasks[count++] = ", invocation call, ";"]
  | .byCount zero one many =>
    sequence
      [block "if (count == 0)" (lines (statements result zero)), line,
       block "else if (count == 1)" (lines (statements result one)), line,
       block "else" (lines (statements result many))]
  | .shrinkToCount buffer =>
    sequence ["if (count < countHint) Array.Resize(ref ", bufferName buffer, ", count);"]
  | .awaitFirst => "await tasks[0].ConfigureAwait(false);"
  | .awaitAll => "await Task.WhenAll(tasks).ConfigureAwait(false);"
  | .finish none => "return;"
  | .finish (some value) => sequence ["return ", answer value, ";"]

/-- Several statements. -/
def statements (result : Option TypeExpr) : List Statement → List Layout
  | [] => []
  | first :: rest => statement result first :: statements result rest

end

/-- The type of the values that a body declares behind its snapshot. -/
def resultType? : List Statement → Option TypeExpr
  | _ :: .declareResults result :: _ => some result
  | _ => none

/-- The statements of a body, each on lines of its own. -/
def body (body : List Statement) : Layout :=
  lines (statements (resultType? body) body)

end RadioBroker.Render
