import RadioBroker.Declaration.Builder
import RadioBroker.Proofs.Declaration.Renaming
import RadioBroker.Proofs.TypeExpr.Standalone

/-!
# Parameters that survive their definition

What applies a definition has arguments where the definition has parameters, in all types that it
mentions. A parameter is still there where the definition mentions it in a tuple: tuples are kept as
they are written.
-/

namespace RadioBroker.Declaration

open TypeExpr (StandsIn)

variable {definition : Declaration} {parameters : List String} {arguments : List TypeExpr}

/-- Where no parameter stands in the arguments, a parameter stands alone in a type of what applies
the definition exactly if it survives in that type of the definition: it stands alone in a tuple
there. -/
theorem survivors_of_close (hopen : definition.generics = .openOver parameters)
    (hlength : parameters.length = arguments.length)
    (hparsed : ∀ t ∈ definition.types, ∃ text, TypeExpr.parse text = .ok t)
    (hfresh : ∀ argument ∈ arguments, ∀ parameter ∈ parameters,
      ¬ StandsIn parameter.toList argument.display.toList) :
    ∃ closed, definition.close arguments = .ok closed ∧
      List.Forall₂ (fun t closedType => ∀ parameter ∈ parameters,
        (StandsIn parameter.toList closedType.display.toList ↔ t.Survives parameters parameter))
        definition.types closed.types ∧
      ((∀ closedType ∈ closed.types, ∀ parameter ∈ parameters,
          ¬ StandsIn parameter.toList closedType.display.toList) ↔
        ∀ t ∈ definition.types, ∀ parameter ∈ parameters, ¬ t.Survives parameters parameter) := by
  have hclose : definition.close arguments = .ok (definition.closeOver parameters arguments) :=
    close_eq_ok_iff.mpr ⟨parameters, hopen, hlength, rfl⟩
  have hlaw : ∀ t ∈ definition.types, ∀ parameter ∈ parameters,
      (StandsIn parameter.toList (t.substitute parameters arguments).display.toList ↔
        t.Survives parameters parameter) := by
    intro t ht parameter hparameter
    obtain ⟨text, hread⟩ := hparsed t ht
    exact (TypeExpr.wellFormed_of_parse hread).standsIn_substitute hlength hparameter
      fun argument hargument => hfresh argument hargument parameter hparameter
  refine ⟨_, hclose, ?_, ?_⟩
  · rw [types_closeOver, List.forall₂_map_right_iff, List.forall₂_same]
    exact hlaw
  · rw [types_closeOver, List.forall_mem_map]
    exact forall₂_congr fun t ht => forall₂_congr fun parameter hparameter =>
      not_congr (hlaw t ht parameter hparameter)

/-- A definition that mentions its parameter in arguments and with marks, but not in the tuple. -/
def marksAndArguments : Declaration :=
  { (ofPath .interface "N" "IBox").openGeneric ["T"] with
    interfaces := [.applied "N.ICell" [⟨"T", [], "[]"⟩]]
    methods := [⟨"Get", .applied "N.IMap" [.named "(int, N.T)"], [⟨"T", [], "?"⟩], none, {}⟩] }

/-- Where no tuple has the parameter, it stands alone nowhere. -/
theorem survivors_marksAndArguments :
    ∃ closed, marksAndArguments.close [.named "string"] = .ok closed ∧
      closed.types.map TypeExpr.display = ["N.ICell<string[]>", "N.IMap<(int, N.T)>", "string?"] ∧
      ∀ closedType ∈ closed.types, ¬ StandsIn ['T'] closedType.display.toList := by
  have hread : ∀ t ∈ marksAndArguments.types, TypeExpr.parse t.display = .ok t := by
    refine List.forall_mem_cons.mpr ⟨by decide +kernel,
      List.forall_mem_cons.mpr ⟨by decide +kernel, ?_⟩⟩
    exact List.forall_mem_singleton.mpr (by decide +kernel)
  have hfresh : ¬ StandsIn ['T'] "string".toList := fun hstands =>
    absurd hstands.mem_words (by decide +kernel)
  have hkept : ∀ t ∈ marksAndArguments.types, ∀ head ∈ t.keptHeads ["T"],
      ['T'] ∉ TypeExpr.words head.toList := by decide +kernel
  obtain ⟨closed, hclose, _, hgone⟩ := @survivors_of_close marksAndArguments ["T"] [.named "string"]
    rfl rfl (fun t ht => ⟨_, hread t ht⟩) (by simpa using hfresh)
  cases hclose
  refine ⟨_, rfl, by decide, fun closedType hmem => ?_⟩
  refine hgone.mpr (fun t ht => List.forall_mem_singleton.mpr ?_) closedType hmem "T"
    List.mem_cons_self
  rintro ⟨head, hhead, _, hstands⟩
  exact hkept t ht head hhead hstands.mem_words

/-- A definition with a method that returns a tuple. -/
def pairing : Declaration :=
  { (ofPath .interface "N" "IBox").openGeneric ["T"] with
    methods := [⟨"Get", .named "(T, int)", [], none, {}⟩] }

/-- In a tuple the parameter stays. -/
theorem survivors_pairing :
    TypeExpr.parse "(T, int)" = .ok (.named "(T, int)") ∧
      ¬ StandsIn ['T'] "string".toList ∧
      ∃ closed, pairing.close [.named "string"] = .ok closed ∧
        closed.types = [.named "(T, int)"] ∧
        ∃ closedType ∈ closed.types, StandsIn ['T'] closedType.display.toList := by
  refine ⟨by decide +kernel, fun hstands => absurd hstands.mem_words (by decide +kernel), _, rfl,
    by decide, .named "(T, int)", by decide, List.cons_ne_nil _ _, ?_, ['('],
    [',', ' ', 'i', 'n', 't', ')'], by decide, ?_, ?_⟩
  · exact List.forall_mem_singleton.mpr (by decide +kernel)
  · rintro c ⟨⟩
    decide +kernel
  · rintro c ⟨⟩
    decide +kernel

end RadioBroker.Declaration
