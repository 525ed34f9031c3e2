import RadioBroker.Dispatch.Body

/-!
# Bodies of supported methods

A method whose kind and result are those of its return type has a dispatch body unless its kind is
`other`, and the body calls the method once, with as many arguments as the method has parameters.
-/

namespace RadioBroker

namespace Statement

mutual

/-- The calls of subscribers that a statement is written with. -/
def calls : Statement → List Call
  | forEachLive body => callsIn body
  | byCount zero one many => callsIn zero ++ callsIn one ++ callsIn many
  | invoke call => [call]
  | collectResult call => [call]
  | collectPending call => [call]
  | _ => []

/-- The calls of subscribers that statements are written with. -/
def callsIn : List Statement → List Call
  | [] => []
  | statement :: statements => calls statement ++ callsIn statements

end

end Statement

namespace ServiceMethod

/-- The kind and the result of a method are what its return type is classified as, and the kind is
supported. -/
structure Classified (method : ServiceMethod) : Prop where
  classification : method.returnType.classify = ⟨method.kind, method.result⟩
  supported : method.kind ≠ .other

/-- A classified method has a result exactly if its kind has one. -/
theorem Classified.result_isSome {method : ServiceMethod} (h : method.Classified) :
    method.result.isSome = method.kind.hasResult := by
  have hresult := method.returnType.classify_result_isSome
  rwa [h.classification] at hresult

/-- A classified method has a dispatch body, which calls it once. -/
theorem Classified.exists_dispatchBody {method : ServiceMethod} (h : method.Classified) :
    ∃ body, method.dispatchBody? = some body ∧
      Statement.callsIn body = [⟨method.name, method.parameters.length⟩] := by
  have hresult := h.result_isSome
  unfold dispatchBody?
  cases hkind : method.kind with
  | other => exact absurd hkind h.supported
  | void => exact ⟨_, rfl, rfl⟩
  | singleResult =>
      rw [hkind] at hresult
      obtain ⟨result, hsome⟩ := Option.isSome_iff_exists.mp hresult
      rw [hsome]
      exact ⟨_, rfl, rfl⟩
  | asyncVoid => exact ⟨_, rfl, rfl⟩
  | asyncSingleResult => exact ⟨_, rfl, rfl⟩

end ServiceMethod

end RadioBroker
