import RadioBroker.Text.Segment

/-!
# Type expressions

A type as it is mentioned in a declaration: the qualified name of its definition (or a tuple, kept
as it is written), its generic arguments, and the nullable, pointer and array marks behind it. Only
the shape is kept; nothing is looked up.
-/

namespace RadioBroker

/-- A mentioned type, such as `Demo.Box<int>[]`: head `Demo.Box`, one argument, suffix `[]`. -/
structure TypeExpr where
  /-- The name of the definition, or a tuple with its brackets. -/
  head : String
  /-- The generic arguments, in order. -/
  arguments : List TypeExpr
  /-- The marks behind the type: `?`, `*` and array ranks. -/
  suffix : String
deriving Inhabited, Repr

namespace TypeExpr

mutual

/-- Equality of type expressions is decided piece by piece. -/
def decideEq : (s t : TypeExpr) → Decidable (s = t)
  | ⟨head, arguments, suffix⟩, ⟨head', arguments', suffix'⟩ =>
    if hhead : head = head' then
      if hsuffix : suffix = suffix' then
        match decideEqList arguments arguments' with
        | isTrue harguments => isTrue (by rw [hhead, hsuffix, harguments])
        | isFalse harguments => isFalse fun h => harguments (TypeExpr.mk.inj h).2.1
      else isFalse fun h => hsuffix (TypeExpr.mk.inj h).2.2
    else isFalse fun h => hhead (TypeExpr.mk.inj h).1

/-- Equality of argument lists is decided argument by argument. -/
def decideEqList : (ss ts : List TypeExpr) → Decidable (ss = ts)
  | [], [] => isTrue rfl
  | [], _ :: _ => isFalse nofun
  | _ :: _, [] => isFalse nofun
  | s :: ss, t :: ts =>
    match decideEq s t with
    | isTrue hhead =>
      match decideEqList ss ts with
      | isTrue htail => isTrue (by rw [hhead, htail])
      | isFalse htail => isFalse fun h => htail (List.cons.inj h).2
    | isFalse hhead => isFalse fun h => hhead (List.cons.inj h).1

end

instance : DecidableEq TypeExpr := decideEq

/-- The type called `name`, without arguments and marks. -/
def named (name : String) : TypeExpr := ⟨name, [], ""⟩

/-- The type called `name`, applied to `arguments`. -/
def applied (name : String) (arguments : List TypeExpr) : TypeExpr := ⟨name, arguments, ""⟩

/-- Writes more marks behind a type. -/
def withSuffix (t : TypeExpr) (marks : String) : TypeExpr :=
  { t with suffix := t.suffix ++ marks }

/-- The number of generic arguments. -/
def arity (t : TypeExpr) : Nat := t.arguments.length

/-- Whether `t` is the definition `name` with that many arguments and nothing behind it. -/
def isDefinition (t : TypeExpr) (name : String) (arity : Nat) : Bool :=
  t.suffix = "" && t.arity = arity && t.head = name

/-- The last segment of the qualified name. -/
def simpleName (t : TypeExpr) : String := Text.afterLast '.' t.head

theorem isDefinition_eq_true_iff {t : TypeExpr} {name : String} {n : Nat} :
    t.isDefinition name n = true ↔ t.suffix = "" ∧ t.arity = n ∧ t.head = name := by
  simp [isDefinition, and_assoc]

@[simp] theorem withSuffix_empty (t : TypeExpr) : t.withSuffix "" = t := by
  cases t
  simp [withSuffix]

/-- Marks behind marks are one row of marks. -/
theorem withSuffix_withSuffix (t : TypeExpr) (marks more : String) :
    (t.withSuffix marks).withSuffix more = t.withSuffix (marks ++ more) := by
  simp [withSuffix, String.append_assoc]

@[simp] theorem arity_withSuffix (t : TypeExpr) (marks : String) :
    (t.withSuffix marks).arity = t.arity := rfl

end TypeExpr

end RadioBroker
