import RadioBroker.Declaration.Closing
import RadioBroker.Proofs.TypeExpr.Renaming

/-!
# Definitions with other names for their parameters

The full name of an open definition holds the names of its parameters, so giving the parameters
other names renames the definition, and all that refers to it. Where the new names are used nowhere
else, what a definition is applied to is not concerned: arguments make the same closed type of a
definition before and after the renaming.
-/

namespace RadioBroker

/-- The types that a declaration extends and those that its methods return and take. -/
def Declaration.types (declaration : Declaration) : List TypeExpr :=
  declaration.interfaces ++
    declaration.methods.flatMap fun method => method.returnType :: method.parameters

/-- The types of an applied definition are those of the definition with arguments in place of the
parameters. -/
theorem Declaration.types_closeOver (definition : Declaration) (parameters : List String)
    (arguments : List TypeExpr) :
    (definition.closeOver parameters arguments).types =
      definition.types.map (TypeExpr.substitute parameters arguments) := by
  simp [types, closeOver, Method.close, List.flatMap_map, List.map_flatMap]

/-- Other names for the type parameters of an open definition. -/
structure ParameterRenaming where
  /-- The full name of the definition. -/
  definition : String
  /-- The full name with the new names of the parameters. -/
  renamed : String
  parameters : List String
  /-- The new name of a parameter. -/
  rename : String → String

namespace ParameterRenaming

/-- A full name after the renaming. -/
def fullName (r : ParameterRenaming) (name : String) : String :=
  if name = r.definition then r.renamed else name

/-- What becomes of the types of a declaration. Only those of the definition are changed. -/
def typeIn (r : ParameterRenaming) (declaration : Declaration) (t : TypeExpr) : TypeExpr :=
  if declaration.fullName = r.definition then t.renamed r.parameters r.rename else t

/-- The parameters of a declaration after the renaming. -/
def parametersIn (r : ParameterRenaming) (declaration : Declaration) (parameters : List String) :
    List String :=
  if declaration.fullName = r.definition then parameters.map r.rename else parameters

/-- The generic shape of a declaration after the renaming. -/
def generics (r : ParameterRenaming) (declaration : Declaration) : Generics :=
  match declaration.generics with
  | .notGeneric => .notGeneric
  | .openOver parameters => .openOver (r.parametersIn declaration parameters)
  | .closedOver definition arguments => .closedOver (r.fullName definition) arguments

/-- A method listed on a declaration after the renaming. -/
def method (r : ParameterRenaming) (declaration : Declaration) (method : Method) : Method :=
  { method with
    returnType := r.typeIn declaration method.returnType
    parameters := method.parameters.map (r.typeIn declaration)
    declaredIn := method.declaredIn.map r.fullName }

/-- A declaration after the renaming: the definition has other parameters and another full name,
every reference to this name follows, and all else is as it was. -/
def declaration (r : ParameterRenaming) (declaration : Declaration) : Declaration :=
  { declaration with
    fullName := r.fullName declaration.fullName
    containingType := declaration.containingType.map r.fullName
    generics := r.generics declaration
    interfaces := declaration.interfaces.map (r.typeIn declaration)
    methods := declaration.methods.map (r.method declaration) }

/-- A full name is the new one only if the definition keeps its name. -/
def Untaken (r : ParameterRenaming) (name : String) : Prop := name = r.renamed → name = r.definition

/-- The types of a declaration are well formed, and the new names of the parameters are used nowhere
in it. -/
structure Fresh (r : ParameterRenaming) (declaration : Declaration) : Prop where
  types : ∀ t ∈ declaration.types, t.Renamable r.parameters r.rename
  /-- A type that is written like the full name has no new name in it. -/
  fullName : ∀ t, TypeExpr.parse declaration.fullName = .ok t → t.Unused r.parameters r.rename
  untaken : r.Untaken declaration.fullName
  declaredIn_untaken : ∀ method ∈ declaration.methods, ∀ name, method.declaredIn = some name →
    r.Untaken name
  /-- The definition has the parameters that are renamed. -/
  generics : declaration.fullName = r.definition → declaration.generics = .openOver r.parameters

/-- Names that are used nowhere else are given to the parameters of one of the declarations. -/
structure Consistent (r : ParameterRenaming) (given : List Declaration) : Prop where
  newNames : TypeExpr.NewNames r.parameters r.rename
  unknown : TypeExpr.Unknown r.parameters r.rename
  declared : ∃ declaration ∈ given, declaration.fullName = r.definition
  /-- The parameters stand behind the first angle bracket of the full name. -/
  familyName : Text.before '<' r.renamed = Text.before '<' r.definition
  /-- A type that is written like the new full name has a new name in it. -/
  renamed : ∀ t, TypeExpr.parse r.renamed = .ok t → t.Unused r.parameters r.rename →
    r.renamed = r.definition
  fresh : ∀ declaration ∈ given, r.Fresh declaration

/-- How to see by evaluation that new names are used nowhere. -/
theorem fresh_of_all {r : ParameterRenaming} {given : List Declaration}
    (h : (given.all fun declaration =>
      (declaration.types.all fun t => decide (TypeExpr.parse t.display = .ok t) &&
        decide (t.Unused r.parameters r.rename)) &&
      ((TypeExpr.parse declaration.fullName).toOption.all fun t =>
        decide (t.Unused r.parameters r.rename)) &&
      decide (declaration.fullName ≠ r.renamed) &&
      (declaration.methods.all fun method => decide (method.declaredIn ≠ some r.renamed)) &&
      decide (declaration.fullName = r.definition →
        declaration.generics = .openOver r.parameters)) =
        true) :
    ∀ declaration ∈ given, r.Fresh declaration := by
  intro declaration hmem
  have hall := List.all_eq_true.mp h declaration hmem
  simp only [Bool.and_eq_true, List.all_eq_true, decide_eq_true_eq] at hall
  obtain ⟨⟨⟨⟨htypes, hfullName⟩, huntaken⟩, hdeclaredIn⟩, hgenerics⟩ := hall
  refine ⟨fun t ht => ⟨TypeExpr.wellFormed_of_parse (htypes t ht).1, (htypes t ht).2⟩, ?_,
    fun heq => absurd heq huntaken, ?_, hgenerics⟩
  · intro t ht
    rw [ht] at hfullName
    exact of_decide_eq_true hfullName
  · intro method hmethod name hname heq
    exact absurd (hname.trans (congrArg some heq)) (hdeclaredIn method hmethod)

variable {r : ParameterRenaming} {given : List Declaration}
  {declaration closed : Declaration} {method : Method} {parameters : List String}
  {arguments : List TypeExpr} {name other : String} {t : TypeExpr}

/-! ## Names after the renaming -/

/-- Where the new full name is not taken, different names stay different. -/
theorem fullName_inj (hname : r.Untaken name) (hother : r.Untaken other) :
    r.fullName name = r.fullName other ↔ name = other := by
  refine ⟨fun h => ?_, congrArg r.fullName⟩
  unfold fullName at h
  split at h <;> split at h
  · rename_i hfirst hsecond
    exact hfirst.trans hsecond.symm
  · rename_i hfirst hsecond
    exact absurd (hother h.symm) hsecond
  · rename_i hfirst hsecond
    exact absurd (hname h) hfirst
  · exact h

/-- A type without new names is not written like the new full name, unless the definition has that
name already. -/
theorem Consistent.eq_of_display (h : r.Consistent given)
    (ht : t.Renamable r.parameters r.rename) (hname : t.display = r.renamed) :
    t.display = r.definition :=
  hname.trans (h.renamed t (hname ▸ TypeExpr.parse_display ht.wellFormed) ht.unused)

/-- What is written like another type than the definition keeps its name. -/
theorem Consistent.fullName_eq_display_iff (h : r.Consistent given)
    (ht : t.Renamable r.parameters r.rename) (hother : t.display ≠ r.definition) :
    r.fullName name = t.display ↔ name = t.display := by
  unfold fullName
  split
  · rename_i hname
    have hrenamed : r.renamed ≠ t.display := fun heq => hother (h.eq_of_display ht heq.symm)
    have hdefinition : name ≠ t.display := fun heq => hother (heq.symm.trans hname)
    exact iff_of_false hrenamed hdefinition
  · rfl

/-- Every other full name is kept. -/
theorem fullName_of_ne (hname : name ≠ r.definition) : r.fullName name = name := if_neg hname

/-- Types outside the definition are not changed. -/
theorem typeIn_of_ne (hname : declaration.fullName ≠ r.definition) : r.typeIn declaration = id :=
  funext fun _ => if_neg hname

/-- Types of the definition get the new names. -/
theorem typeIn_of_eq (hname : declaration.fullName = r.definition) :
    r.typeIn declaration = TypeExpr.renamed r.parameters r.rename :=
  funext fun _ => if_pos hname

/-- The full name keeps its family. -/
theorem Consistent.familyName_declaration (h : r.Consistent given) (declaration : Declaration) :
    (r.declaration declaration).familyName = declaration.familyName := by
  show Text.before '<' (r.fullName declaration.fullName) = Text.before '<' declaration.fullName
  unfold ParameterRenaming.fullName
  split
  · rename_i hname
    rw [hname, h.familyName]
  · rfl

/-- The generic shape stays open or not. -/
theorem isOpen_declaration (r : ParameterRenaming) (declaration : Declaration) :
    (r.declaration declaration).isOpen = declaration.isOpen := by
  show (r.generics declaration).isOpen = declaration.generics.isOpen
  unfold ParameterRenaming.generics
  cases declaration.generics <;> rfl

/-! ## Applied definitions after the renaming -/

/-- Arguments make the same of a type of the definition before and after the renaming. -/
theorem Consistent.substitute_typeIn (h : r.Consistent given) (hfresh : r.Fresh declaration)
    (hopen : declaration.generics = .openOver parameters)
    (hlength : parameters.length = arguments.length) (ht : t ∈ declaration.types) :
    (r.typeIn declaration t).substitute (r.parametersIn declaration parameters) arguments =
      t.substitute parameters arguments := by
  unfold typeIn parametersIn
  split
  · rename_i hname
    rw [hfresh.generics hname] at hopen
    cases hopen
    exact TypeExpr.substitute_renamed h.newNames hlength (hfresh.types t ht).unused
  · rfl

/-- The method that arguments make of a method of a definition after the renaming. -/
theorem Consistent.close_method (h : r.Consistent given) (hfresh : r.Fresh declaration)
    (hopen : declaration.generics = .openOver parameters)
    (hlength : parameters.length = arguments.length)
    (hname : declaration.closedName arguments ≠ r.definition)
    (hmethod : method ∈ declaration.methods) :
    (r.method declaration method).close (r.parametersIn declaration parameters) arguments
        (declaration.closedName arguments) =
      r.method (declaration.closeOver parameters arguments)
        (method.close parameters arguments (declaration.closedName arguments)) := by
  have htypes : r.typeIn (declaration.closeOver parameters arguments) = id := typeIn_of_ne hname
  have hmem : ∀ t ∈ method.returnType :: method.parameters, t ∈ declaration.types := fun t ht =>
    List.mem_append_right _ (List.mem_flatMap.mpr ⟨method, hmethod, ht⟩)
  have hreturn := h.substitute_typeIn hfresh hopen hlength (hmem _ List.mem_cons_self)
  have hparameters : (method.parameters.map (r.typeIn declaration)).map
      (TypeExpr.substitute (r.parametersIn declaration parameters) arguments) =
      method.parameters.map (TypeExpr.substitute parameters arguments) := by
    rw [List.map_map]
    exact List.map_congr_left fun t ht =>
      h.substitute_typeIn hfresh hopen hlength (hmem t (List.mem_cons_of_mem _ ht))
  simp only [ParameterRenaming.method, Method.close, htypes, List.map_id, id_eq, hreturn,
    hparameters, Option.map_map]
  cases method.declaredIn with
  | none => rfl
  | some _ => exact congrArg (Method.mk _ _ _ · _) (congrArg some (fullName_of_ne hname).symm)

/-- The declaration that arguments make of a definition after the renaming. -/
theorem Consistent.declaration_closeOver (h : r.Consistent given) (hfresh : r.Fresh declaration)
    (hopen : declaration.generics = .openOver parameters)
    (hlength : parameters.length = arguments.length)
    (hname : declaration.closedName arguments ≠ r.definition) :
    (r.declaration declaration).closeOver (r.parametersIn declaration parameters) arguments =
      r.declaration (declaration.closeOver parameters arguments) := by
  have hclosedName : (r.declaration declaration).closedName arguments =
      declaration.closedName arguments := by
    rw [Declaration.closedName, h.familyName_declaration, Declaration.closedName]
  have hinterfaces : (declaration.interfaces.map (r.typeIn declaration)).map
      (TypeExpr.substitute (r.parametersIn declaration parameters) arguments) =
      (declaration.interfaces.map (TypeExpr.substitute parameters arguments)).map
        (r.typeIn (declaration.closeOver parameters arguments)) := by
    have htypes : r.typeIn (declaration.closeOver parameters arguments) = id := typeIn_of_ne hname
    rw [htypes, List.map_id, List.map_map]
    exact List.map_congr_left fun t ht =>
      h.substitute_typeIn hfresh hopen hlength (List.mem_append_left _ ht)
  have hmethods : (declaration.methods.map (r.method declaration)).map (fun method =>
        method.close (r.parametersIn declaration parameters) arguments
          (declaration.closedName arguments)) =
      (declaration.methods.map fun method =>
        method.close parameters arguments (declaration.closedName arguments)).map
          (r.method (declaration.closeOver parameters arguments)) := by
    rw [List.map_map, List.map_map]
    exact List.map_congr_left fun method hmethod =>
      h.close_method hfresh hopen hlength hname hmethod
  calc (r.declaration declaration).closeOver (r.parametersIn declaration parameters) arguments
      = { r.declaration declaration with
          fullName := declaration.closedName arguments
          generics := .closedOver (r.fullName declaration.fullName) arguments
          attributes := []
          interfaces := (declaration.interfaces.map (r.typeIn declaration)).map
            (TypeExpr.substitute (r.parametersIn declaration parameters) arguments)
          methods := (declaration.methods.map (r.method declaration)).map fun method =>
            method.close (r.parametersIn declaration parameters) arguments
              (declaration.closedName arguments) } := by
        rw [Declaration.closeOver, hclosedName]
        rfl
    _ = r.declaration (declaration.closeOver parameters arguments) := by
        have hkept : r.fullName (declaration.closeOver parameters arguments).fullName =
            declaration.closedName arguments := fullName_of_ne hname
        rw [hinterfaces, hmethods]
        conv_rhs => rw [ParameterRenaming.declaration, hkept]
        rfl

/-- A definition is applied after the renaming as it was before. -/
theorem Consistent.close_declaration (h : r.Consistent given) (hfresh : r.Fresh declaration)
    (hname : declaration.closedName arguments ≠ r.definition)
    (hclose : declaration.close arguments = .ok closed) :
    (r.declaration declaration).close arguments = .ok (r.declaration closed) := by
  obtain ⟨parameters, hopen, hlength, rfl⟩ := Declaration.close_eq_ok_iff.mp hclose
  refine Declaration.close_eq_ok_iff.mpr ⟨r.parametersIn declaration parameters, ?_, ?_,
    h.declaration_closeOver hfresh hopen hlength hname⟩
  · show r.generics declaration = _
    rw [generics, hopen]
  · unfold parametersIn
    split
    · rw [List.length_map, hlength]
    · exact hlength

/-- New names that are used neither in a definition nor in arguments are not used where the
definition is applied to them. -/
theorem Consistent.fresh_closeOver (h : r.Consistent given) (hfresh : r.Fresh declaration)
    (ht : t.Renamable r.parameters r.rename) (harguments : ∀ argument ∈ arguments,
      argument.Renamable r.parameters r.rename)
    (hdisplay : declaration.closedName arguments = t.display)
    (hname : declaration.closedName arguments ≠ r.definition) :
    r.Fresh (declaration.closeOver parameters arguments) := by
  have huntaken : declaration.closedName arguments ≠ r.renamed := fun heq =>
    hname (hdisplay.trans (h.eq_of_display ht (hdisplay.symm.trans heq)))
  constructor
  case types =>
    intro image himage
    rw [Declaration.types_closeOver] at himage
    obtain ⟨s, hs, rfl⟩ := List.mem_map.mp himage
    refine ⟨(hfresh.types s hs).wellFormed.substitute fun argument hargument =>
      (harguments argument hargument).wellFormed, fun parameter hparameter hmem => ?_⟩
    rcases TypeExpr.mem_names_substitute hmem with hinner | ⟨argument, hargument, houter⟩
    · exact (hfresh.types s hs).unused parameter hparameter hinner
    · exact (harguments argument hargument).unused parameter hparameter houter
  case fullName =>
    intro s hs
    have hparse : TypeExpr.parse (declaration.closedName arguments) = .ok s := hs
    rw [hdisplay, TypeExpr.parse_display ht.wellFormed] at hparse
    exact Except.ok.inj hparse ▸ ht.unused
  case untaken => exact fun heq => absurd heq huntaken
  case declaredIn_untaken =>
    intro closed hclosed name hdeclaredIn
    obtain ⟨method, _, rfl⟩ := List.mem_map.mp hclosed
    obtain ⟨_, _, rfl⟩ := Option.map_eq_some_iff.mp hdeclaredIn
    exact fun heq => absurd heq huntaken
  case generics => exact fun heq => absurd heq hname

/-! ## Definitions that are named after their parameters -/

/-- Other names for the parameters of a definition that is called by a head and its parameters. -/
def ofHead (head : String) (parameters : List String) (rename : String → String) :
    ParameterRenaming where
  definition := TypeExpr.display (.applied head (parameters.map .named))
  renamed :=
    TypeExpr.display (.applied head (parameters.map fun parameter => .named (rename parameter)))
  parameters := parameters
  rename := rename

/-- Other names for the parameters of a definition are consistent if the declarations use them
nowhere. -/
theorem consistent_ofHead {head : String} {rename : String → String}
    (hhead : (TypeExpr.named head).WellFormed) (hsome : parameters ≠ [])
    (hnew : TypeExpr.NewNames parameters rename) (hunknown : TypeExpr.Unknown parameters rename)
    (hdeclared : ∃ declaration ∈ given,
      declaration.fullName = (ofHead head parameters rename).definition)
    (hfresh : ∀ declaration ∈ given, (ofHead head parameters rename).Fresh declaration) :
    (ofHead head parameters rename).Consistent given where
  newNames := hnew
  unknown := hunknown
  declared := hdeclared
  familyName := by
    simp only [ofHead, TypeExpr.applied, TypeExpr.display_mk, List.map_eq_nil_iff, hsome, if_false,
      String.append_empty, Text.before_append_angled]
  renamed t ht hunused := by
    obtain ⟨hformed, _, _⟩ := hhead
    have harguments :
        ∀ argument ∈ parameters.map fun parameter => TypeExpr.named (rename parameter),
        argument.WellFormed := by
      intro argument hargument
      obtain ⟨parameter, hparameter, rfl⟩ := List.mem_map.mp hargument
      exact hnew.wellFormed parameter hparameter
    have hwritten : TypeExpr.parse (ofHead head parameters rename).renamed =
        .ok (.applied head (parameters.map fun parameter => .named (rename parameter))) :=
      TypeExpr.parse_display (TypeExpr.WellFormed.mk hformed harguments (by exact .nil))
    cases hwritten.symm.trans ht
    obtain ⟨parameter, hparameter⟩ := List.exists_mem_of_ne_nil _ hsome
    refine absurd ?_ (hunused parameter hparameter)
    refine TypeExpr.names_subset_of_mem (List.mem_map_of_mem hparameter) ?_
    exact TypeExpr.head_mem_names _
  fresh := hfresh

end ParameterRenaming

end RadioBroker
