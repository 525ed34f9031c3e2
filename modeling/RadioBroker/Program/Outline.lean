import RadioBroker.Program.Basic
import RadioBroker.TypeGraph.Basic

/-!
# Outlines

An outline is a program whose items still know the types they are generated for: the service of a
broker class, the declared type that a scope is one more part of. The program is what is left of it
once the types are dropped.
-/

namespace RadioBroker

/-- A generated item and the type it is generated for. -/
inductive Piece where
  | broker (owner : TypeId) (broker : BrokerClass)
  /-- One more part of the declared type, with what it holds and perhaps a routine. -/
  | scope (owner : TypeId) (declaration : Declaration) (pieces : List Piece)
      (initializer : Option Routine)
deriving Inhabited, Repr

namespace Piece

mutual

/-- The item by itself. -/
def item : Piece → Item
  | broker _ brokerClass => .broker brokerClass
  | scope _ declaration pieces initializer =>
    .scope declaration.accessibility declaration.kind declaration.localName (items pieces)
      initializer

/-- The items of several pieces. -/
def items : List Piece → List Item
  | [] => []
  | piece :: pieces => item piece :: items pieces

end

mutual

/-- The types whose scope in a piece has a routine, each with its routine. -/
def routines : Piece → List (TypeId × Routine)
  | broker _ _ => []
  | scope owner _ pieces initializer =>
    (initializer.map fun routine => (owner, routine)).toList ++ routinesIn pieces

/-- The types whose scope in one of several pieces has a routine, each with its routine. -/
def routinesIn : List Piece → List (TypeId × Routine)
  | [] => []
  | piece :: pieces => routines piece ++ routinesIn pieces

end

mutual

/-- The services that have a broker class in a piece, each with its class. -/
def brokers : Piece → List (TypeId × BrokerClass)
  | broker owner brokerClass => [(owner, brokerClass)]
  | scope _ _ pieces _ => brokersIn pieces

/-- The services that have a broker class in one of several pieces, each with its class. -/
def brokersIn : List Piece → List (TypeId × BrokerClass)
  | [] => []
  | piece :: pieces => brokers piece ++ brokersIn pieces

end

@[simp] theorem items_eq_map (pieces : List Piece) : items pieces = pieces.map item := by
  induction pieces with
  | nil => rfl
  | cons piece pieces ih => simp [items, ih]

@[simp] theorem routinesIn_eq_flatMap (pieces : List Piece) :
    routinesIn pieces = pieces.flatMap routines := by
  induction pieces with
  | nil => rfl
  | cons piece pieces ih => simp [routinesIn, ih]

@[simp] theorem brokersIn_eq_flatMap (pieces : List Piece) :
    brokersIn pieces = pieces.flatMap brokers := by
  induction pieces with
  | nil => rfl
  | cons piece pieces ih => simp [brokersIn, ih]

end Piece

/-- A program with the types its items are generated for. -/
structure Outline where
  /-- The namespaces with content, each with its pieces. -/
  units : List (String × List Piece)
  /-- The routine of the types that no type encloses. -/
  root : Routine
deriving Inhabited, Repr

namespace Outline

/-- The program by itself. -/
def program (outline : Outline) (hook : ModuleHook) : Program where
  units := outline.units.map fun unit => ⟨unit.1, Piece.items unit.2⟩
  root := outline.root
  hook := hook

/-- The pieces of all namespaces. -/
def pieces (outline : Outline) : List Piece := outline.units.flatMap Prod.snd

/-- The types whose scope has a routine, each with its routine. -/
def routines (outline : Outline) : List (TypeId × Routine) := Piece.routinesIn outline.pieces

/-- The services that have a broker class, each with its class. -/
def brokers (outline : Outline) : List (TypeId × BrokerClass) := Piece.brokersIn outline.pieces

end Outline

end RadioBroker
