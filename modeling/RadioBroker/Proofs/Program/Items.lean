import RadioBroker.Program.Outline

/-!
# The parts of a program

The broker classes and the routines of a program, wherever in it they stand. Those of an outline
are the same, with the types that they are generated for.
-/

namespace RadioBroker

namespace Item

mutual

/-- The broker classes in an item. -/
def brokerClasses : Item → List BrokerClass
  | broker brokerClass => [brokerClass]
  | scope _ _ _ items _ => brokerClassesIn items

/-- The broker classes in several items. -/
def brokerClassesIn : List Item → List BrokerClass
  | [] => []
  | item :: items => item.brokerClasses ++ brokerClassesIn items

end

mutual

/-- The routines in an item. -/
def routines : Item → List Routine
  | broker _ => []
  | scope _ _ _ items initializer => initializer.toList ++ routinesIn items

/-- The routines in several items. -/
def routinesIn : List Item → List Routine
  | [] => []
  | item :: items => item.routines ++ routinesIn items

end

@[simp] theorem brokerClassesIn_eq_flatMap (items : List Item) :
    brokerClassesIn items = items.flatMap brokerClasses := by
  induction items with
  | nil => rfl
  | cons item items ih => simp [brokerClassesIn, ih]

@[simp] theorem routinesIn_eq_flatMap (items : List Item) :
    routinesIn items = items.flatMap routines := by
  induction items with
  | nil => rfl
  | cons item items ih => simp [routinesIn, ih]

end Item

namespace Program

/-- All broker classes of a program, those in scopes included. -/
def brokerClasses (program : Program) : List BrokerClass :=
  program.units.flatMap fun unit => Item.brokerClassesIn unit.items

/-- All routines of a program: that of the types that no type encloses, and those in scopes. -/
def routines (program : Program) : List Routine :=
  program.root :: program.units.flatMap fun unit => Item.routinesIn unit.items

end Program

namespace Piece

mutual

/-- An item has the broker classes of its piece. -/
theorem brokerClasses_item : ∀ piece : Piece,
    piece.item.brokerClasses = (brokers piece).map Prod.snd
  | broker _ _ => rfl
  | scope _ _ pieces _ => brokerClassesIn_items pieces

/-- Items have the broker classes of their pieces. -/
theorem brokerClassesIn_items : ∀ pieces : List Piece,
    Item.brokerClassesIn (items pieces) = (brokersIn pieces).map Prod.snd
  | [] => rfl
  | piece :: pieces => by
      rw [items, Item.brokerClassesIn, brokerClasses_item piece, brokerClassesIn_items pieces,
        brokersIn, List.map_append]

end

mutual

/-- An item has the routines of its piece. -/
theorem routines_item : ∀ piece : Piece, piece.item.routines = (routines piece).map Prod.snd
  | broker _ _ => rfl
  | scope _ _ pieces initializer => by
      rw [item, Item.routines, routinesIn_items pieces, routines, List.map_append]
      cases initializer <;> rfl

/-- Items have the routines of their pieces. -/
theorem routinesIn_items : ∀ pieces : List Piece,
    Item.routinesIn (items pieces) = (routinesIn pieces).map Prod.snd
  | [] => rfl
  | piece :: pieces => by
      rw [items, Item.routinesIn, routines_item piece, routinesIn_items pieces, routinesIn,
        List.map_append]

end

end Piece

namespace Outline

variable {outline : Outline} {hook : ModuleHook}

/-- A program has the broker classes of its outline. -/
theorem brokerClasses_program :
    (outline.program hook).brokerClasses = outline.brokers.map Prod.snd := by
  rw [brokers, ← Piece.brokerClassesIn_items]
  simp [Program.brokerClasses, program, pieces, List.flatMap_map, List.flatMap_assoc,
    List.map_flatMap]

/-- A program has the routine at the root and the routines of its outline. -/
theorem routines_program :
    (outline.program hook).routines = outline.root :: outline.routines.map Prod.snd := by
  rw [routines, ← Piece.routinesIn_items]
  simp [Program.routines, program, pieces, List.flatMap_map, List.flatMap_assoc, List.map_flatMap]

end Outline

end RadioBroker
