import RadioBroker.TypeExpr.Basic

/-!
# Writing type expressions

`TypeExpr.display` is the one way a type is written: head, arguments in angle brackets separated by
a comma and a space, marks. Written types are the names under which types are declared and the
parameter lists by which methods are told apart.
-/

namespace RadioBroker.TypeExpr

mutual

/-- The written form of a type. -/
def display : TypeExpr → String
  | ⟨head, [], suffix⟩ => head ++ suffix
  | ⟨head, first :: others, suffix⟩ =>
    head ++ Text.angled (displayList (first :: others)) ++ suffix

/-- The written forms of several types. -/
def displayList : List TypeExpr → List String
  | [] => []
  | t :: ts => display t :: displayList ts

end

@[simp] theorem displayList_eq_map (ts : List TypeExpr) : displayList ts = ts.map display := by
  induction ts with
  | nil => rfl
  | cons t ts ih => simp [displayList, ih]

theorem display_mk (head suffix : String) (arguments : List TypeExpr) :
    display ⟨head, arguments, suffix⟩ =
      head ++ (if arguments = [] then "" else Text.angled (arguments.map display)) ++ suffix := by
  cases arguments with
  | nil => simp [display]
  | cons t ts => simp [display]

@[simp] theorem display_named (name : String) : (named name).display = name := by
  simp [named, display]

instance : ToString TypeExpr := ⟨display⟩

end RadioBroker.TypeExpr
