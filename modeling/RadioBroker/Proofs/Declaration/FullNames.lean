import RadioBroker.Declaration.Builder
import RadioBroker.Declaration.Closing
import RadioBroker.Proofs.Text.Segment
import RadioBroker.Proofs.Traversal

/-!
# Full names of built declarations

The full name of a type is its local name behind the name of what it stands in: its enclosing type,
or its namespace. The builders keep that up in every order, with one exception. The name of an
applied definition is cut at its first angle bracket, and that is the bracket of its own parameters
only if there is none in the name of what the definition stands in. A generic type inside a generic
type is applied to arguments under a full name that has lost the name of the type.
-/

namespace RadioBroker.Declaration

variable {declaration definition closed : Declaration} {name : String}
  {parameters texts : List String} {arguments : List TypeExpr}

/-! ## Names in their scope -/

/-- The name of what a type stands in: its enclosing type, or its namespace. -/
def scopeName (declaration : Declaration) : String :=
  declaration.containingType.getD declaration.namespaceName

/-- A name behind the name of what a type stands in. The namespace without a name qualifies
nothing. -/
def inScope (declaration : Declaration) (name : String) : String :=
  match declaration.containingType with
  | some outer => outer ++ "." ++ name
  | none => Text.qualify declaration.namespaceName name

/-- The full name is the local name behind the name of what the type stands in. -/
def Coherent (declaration : Declaration) : Prop :=
  declaration.fullName = declaration.inScope declaration.localName

instance (declaration : Declaration) : Decidable declaration.Coherent :=
  inferInstanceAs (Decidable (_ = _))

/-- The full name of an applied definition has lost the name of the type: the arguments stand right
behind what the name of the scope has before its first angle bracket. -/
structure CutShort (declaration : Declaration) : Prop where
  isClosed : declaration.generics.isClosed = true
  scope : '<' ∈ declaration.scopeName.toList
  fullName : declaration.fullName =
    Text.before '<' declaration.scopeName ++ declaration.generics.display

/-- More behind a name in a scope. -/
theorem inScope_append (declaration : Declaration) (front rest : String) :
    declaration.inScope (front ++ rest) = declaration.inScope front ++ rest := by
  unfold inScope
  split
  · rw [String.append_assoc, String.append_assoc, String.append_assoc]
  · exact Text.qualify_append _ _ _

/-- What has a name stands in front of a dot. -/
theorem inScope_of_ne (h : declaration.scopeName ≠ "") (name : String) :
    declaration.inScope name = declaration.scopeName ++ "." ++ name := by
  unfold scopeName at h ⊢
  unfold inScope Text.qualify
  cases hcontaining : declaration.containingType with
  | some outer => rfl
  | none =>
      rw [hcontaining, Option.getD_none] at h
      exact if_neg h

/-- A character of a name in its scope is the dot or stands in the name or in that of the scope. -/
theorem mem_inScope {c : Char} (h : c ∈ (declaration.inScope name).toList) (hdot : c ≠ '.') :
    c ∈ declaration.scopeName.toList ∨ c ∈ name.toList := by
  by_cases hscope : declaration.scopeName = ""
  · refine Or.inr ?_
    unfold scopeName at hscope
    unfold inScope Text.qualify at h
    cases hcontaining : declaration.containingType <;> simp_all
  · rw [inScope_of_ne hscope] at h
    simpa [hdot, or_assoc] using h

/-- A name in a scope without angle brackets is not cut. -/
theorem before_inScope_of_notMem (hscope : '<' ∉ declaration.scopeName.toList)
    (hname : '<' ∉ name.toList) :
    Text.before '<' (declaration.inScope name) = declaration.inScope name := by
  refine Text.before_of_notMem fun hmem => ?_
  rcases mem_inScope hmem (by decide) with hleft | hright
  · exact hscope hleft
  · exact hname hright

/-- A name in a scope with an angle bracket is cut in the name of the scope. -/
theorem before_inScope_of_mem (hscope : '<' ∈ declaration.scopeName.toList) (name : String) :
    Text.before '<' (declaration.inScope name) = Text.before '<' declaration.scopeName := by
  have hnamed : declaration.scopeName ≠ "" := by
    intro hempty
    rw [hempty] at hscope
    cases hscope
  rw [inScope_of_ne hnamed, String.append_assoc, Text.before_append_of_mem hscope]

/-- A full name that is cut short is shorter than the local name in its scope. -/
theorem CutShort.not_coherent (h : declaration.CutShort) : ¬ declaration.Coherent := by
  intro hcoherent
  have hnamed : declaration.scopeName ≠ "" := by
    intro hempty
    have hscope := h.scope
    rw [hempty] at hscope
    cases hscope
  have hlength := congrArg String.length (h.fullName.symm.trans hcoherent)
  rw [inScope_of_ne hnamed] at hlength
  simp only [localName, String.length_append] at hlength
  have hshorter := Text.length_before_le '<' declaration.scopeName
  have hdot : ".".length = 1 := by decide
  omega

/-! ## Builders -/

/-- The builders that leave the names of a declaration alone. The markers are attributes. -/
inductive Decorates (declaration : Declaration) : Declaration → Prop
  | asPartial : Decorates declaration declaration.asPartial
  | withAccessibility (accessibility : Accessibility) :
      Decorates declaration (declaration.withAccessibility accessibility)
  | withAttribute (mark : Attribute) : Decorates declaration (declaration.withAttribute mark)
  | extending {interface : String} {extended : Declaration}
      (h : declaration.extending interface = .ok extended) : Decorates declaration extended
  | withMethod (method : Method) : Decorates declaration (declaration.withMethod method)
  | placedAt (location : Location) : Decorates declaration (declaration.placedAt location)

/-- The declarations that the builders make. -/
inductive Built : Declaration → Prop
  | ofPath {kind : TypeKind} {namespaceName path : String}
      (hpath : ∀ segment ∈ path.toList.splitOn '.', segment ≠ [] ∧ '<' ∉ segment) :
      Built (ofPath kind namespaceName path)
  | decorated {declaration decorated : Declaration} (h : Built declaration)
      (hdecorates : declaration.Decorates decorated) : Built decorated
  | nestedIn {declaration parent : Declaration} (h : Built declaration) (hparent : Built parent) :
      Built (declaration.nestedIn parent)
  | openGeneric {declaration : Declaration} (h : Built declaration)
      (hplain : declaration.generics = .notGeneric) (parameters : List String) :
      Built (declaration.openGeneric parameters)
  | instantiate {definition closed : Declaration} {texts : List String} (h : Built definition)
      (hinstantiate : definition.instantiate texts = .ok closed) : Built closed

/-- The names of a declaration: its simple name has no angle bracket, and its full name is coherent
or cut short. -/
structure Named (declaration : Declaration) : Prop where
  name : '<' ∉ declaration.name.toList
  fullName : declaration.Coherent ∨ declaration.CutShort

/-- A type that is not applied is coherent. -/
theorem Named.coherent (h : declaration.Named) (hopen : declaration.generics.isClosed = false) :
    declaration.Coherent := by
  refine h.fullName.resolve_right fun hcut => ?_
  rw [hcut.isClosed] at hopen
  cases hopen

/-- The builders that leave names alone leave a declaration named. -/
theorem Named.decorated {other : Declaration} (h : declaration.Named)
    (hdecorates : declaration.Decorates other) :
    other.Named := by
  cases hdecorates with
  | extending hextending =>
      obtain ⟨interface, _, hextended⟩ := bind_eq_ok_iff.mp hextending
      cases hextended
      exact ⟨h.name, h.fullName.imp_right fun hcut => ⟨hcut.isClosed, hcut.scope, hcut.fullName⟩⟩
  | asPartial | withAccessibility | withAttribute | withMethod | placedAt =>
      exact ⟨h.name, h.fullName.imp_right fun hcut => ⟨hcut.isClosed, hcut.scope, hcut.fullName⟩⟩

/-- A type at a path is coherent. -/
theorem coherent_ofPath (kind : TypeKind) (namespaceName path : String) :
    (ofPath kind namespaceName path).Coherent := by
  have hlocal : (ofPath kind namespaceName path).localName = Text.afterLast '.' path := by
    simp [localName, ofPath, Generics.display]
  rw [Coherent, hlocal]
  unfold inScope ofPath
  cases hfront : Text.beforeLast? '.' path with
  | none => simp [Text.afterLast_of_beforeLast?_eq_none hfront]
  | some front =>
      have hpath : path = front ++ ("." ++ Text.afterLast '.' path) := by
        rw [← String.toList_inj, Text.toList_eq_of_beforeLast? hfront]
        simp
      calc Text.qualify namespaceName path
          = Text.qualify namespaceName front ++ ("." ++ Text.afterLast '.' path) := by
            rw [← Text.qualify_append, ← hpath]
        _ = Text.qualify namespaceName front ++ "." ++ Text.afterLast '.' path :=
            String.append_assoc.symm

/-- A type at a path of segments without angle brackets is named. -/
theorem named_ofPath {kind : TypeKind} {namespaceName path : String}
    (hpath : ∀ segment ∈ path.toList.splitOn '.', segment ≠ [] ∧ '<' ∉ segment) :
    (ofPath kind namespaceName path).Named where
  name hmem := by
    obtain ⟨segment, hsegment, hin⟩ := Text.exists_mem_splitOn (Text.mem_of_mem_afterLast hmem)
      (show '<' ≠ '.' by decide)
    exact (hpath segment hsegment).2 hin
  fullName := Or.inl (coherent_ofPath kind namespaceName path)

/-- A type that is made generic keeps its scope. -/
theorem Named.openGeneric (h : declaration.Named) (hplain : declaration.generics = .notGeneric)
    (parameters : List String) : (declaration.openGeneric parameters).Named where
  name := h.name
  fullName := by
    have hcoherent : declaration.fullName = declaration.inScope declaration.localName :=
      h.coherent (by rw [hplain]; rfl)
    refine Or.inl ?_
    calc declaration.fullName ++ Text.angled parameters
        = declaration.inScope (declaration.localName ++ Text.angled parameters) := by
          rw [hcoherent, inScope_append]
      _ = declaration.inScope (declaration.name ++ Text.angled parameters) := by
          rw [localName, hplain, Generics.display, String.append_empty]

/-! ## Applied definitions -/

/-- The full name of a definition ends with its own parameters. -/
theorem Named.fullName_eq (h : definition.Named)
    (hopen : definition.generics = .openOver parameters) :
    definition.fullName = definition.inScope definition.name ++ Text.angled parameters := by
  have hcoherent : definition.fullName = definition.inScope definition.localName :=
    h.coherent (by rw [hopen]; rfl)
  rw [hcoherent, localName, hopen, Generics.display, inScope_append]

/-- The family name of a definition is what it is called in its scope, up to the first angle
bracket. -/
theorem Named.familyName_eq (h : definition.Named)
    (hopen : definition.generics = .openOver parameters) :
    definition.familyName = Text.before '<' (definition.inScope definition.name) := by
  rw [familyName, h.fullName_eq hopen, Text.before_append_angled]

/-- What a definition and its application to arguments are called. -/
structure NamesApplication (definition closed : Declaration) (parameters : List String)
    (arguments : List TypeExpr) : Prop where
  /-- The definition is called by its own parameters, last in its full name. -/
  ofDefinition : definition.generics = .openOver parameters ∧
    definition.fullName = definition.inScope definition.name ++ Text.angled parameters
  /-- The application keeps the simple name, the enclosing type and the namespace. -/
  kept : closed.name = definition.name ∧ closed.containingType = definition.containingType ∧
    closed.namespaceName = definition.namespaceName
  /-- The application knows what it applies. -/
  generics : closed.generics = .closedOver definition.fullName arguments
  /-- Where no angle bracket stands in the name of the scope, arguments replace the parameters. -/
  replaced : '<' ∉ definition.scopeName.toList → closed.fullName =
    definition.inScope definition.name ++ Text.angled (arguments.map TypeExpr.display)
  /-- Otherwise they replace all that stands behind the first angle bracket. -/
  cut : '<' ∈ definition.scopeName.toList → closed.fullName =
    Text.before '<' definition.scopeName ++ Text.angled (arguments.map TypeExpr.display)
  /-- The full name of the application is its local name in its scope in the first case only. -/
  coherent_iff : closed.Coherent ↔ '<' ∉ definition.scopeName.toList

/-- A named definition is applied under its own name, or cut short. -/
theorem Named.namesApplication (h : definition.Named)
    (hclose : definition.close arguments = .ok closed) :
    ∃ parameters, definition.NamesApplication closed parameters arguments := by
  obtain ⟨parameters, hopen, _, rfl⟩ := close_eq_ok_iff.mp hclose
  have hreplaced (hscope : '<' ∉ definition.scopeName.toList) :
      definition.closedName arguments =
        definition.inScope definition.name ++ Text.angled (arguments.map TypeExpr.display) := by
    rw [closedName, h.familyName_eq hopen, before_inScope_of_notMem hscope h.name]
  have hcut (hscope : '<' ∈ definition.scopeName.toList) :
      definition.closedName arguments =
        Text.before '<' definition.scopeName ++ Text.angled (arguments.map TypeExpr.display) := by
    rw [closedName, h.familyName_eq hopen, before_inScope_of_mem hscope]
  refine ⟨parameters, ⟨hopen, h.fullName_eq hopen⟩, ⟨rfl, rfl, rfl⟩, rfl, hreplaced, hcut, ?_, ?_⟩
  · intro hcoherent hscope
    have hcutShort : (definition.closeOver parameters arguments).CutShort :=
      ⟨rfl, hscope, hcut hscope⟩
    exact hcutShort.not_coherent hcoherent
  · intro hscope
    exact (hreplaced hscope).trans (inScope_append definition _ _).symm

/-- A named definition that is applied is named. -/
theorem Named.close (h : definition.Named) (hclose : definition.close arguments = .ok closed) :
    closed.Named := by
  obtain ⟨parameters, hnames⟩ := h.namesApplication hclose
  obtain ⟨_, _, _, rfl⟩ := close_eq_ok_iff.mp hclose
  refine ⟨h.name, ?_⟩
  by_cases hscope : '<' ∈ definition.scopeName.toList
  · exact Or.inr ⟨rfl, hscope, hnames.cut hscope⟩
  · exact Or.inl (hnames.coherent_iff.mpr hscope)

/-- What the builders make is named. -/
theorem Built.named (h : declaration.Built) : declaration.Named := by
  induction h with
  | ofPath hpath => exact named_ofPath hpath
  | decorated _ hdecorates ih => exact ih.decorated hdecorates
  | nestedIn _ _ ih _ => exact ⟨ih.name, Or.inl rfl⟩
  | openGeneric _ hplain parameters ih => exact ih.openGeneric hplain parameters
  | instantiate _ hinstantiate ih =>
      obtain ⟨_, _, hclose⟩ := bind_eq_ok_iff.mp hinstantiate
      exact ih.close hclose

/-- The full name of what the builders make is the local name in its scope, unless it is cut short;
and what a definition is applied under is cut short exactly if there is an angle bracket in the name
of the type or the namespace that the definition stands in. -/
theorem fullName_of_built (h : declaration.Built) :
    (declaration.Coherent ↔ ¬ declaration.CutShort) ∧
      ∀ texts closed, declaration.instantiate texts = .ok closed →
        ∃ parameters arguments, readArguments texts = .ok arguments ∧
          declaration.NamesApplication closed parameters arguments := by
  have hnamed := h.named
  constructor
  · constructor
    · exact fun hcoherent hcut => hcut.not_coherent hcoherent
    · exact fun hwhole => hnamed.fullName.resolve_right hwhole
  · intro texts closed hinstantiate
    obtain ⟨arguments, hread, hclose⟩ := bind_eq_ok_iff.mp hinstantiate
    obtain ⟨parameters, hnames⟩ := hnamed.namesApplication hclose
    exact ⟨parameters, arguments, hread, hnames⟩

/-- A generic interface inside a type that is not generic. -/
def nestedPair : Declaration :=
  ((ofPath .interface "N" "Outer.IPair").openGeneric ["K", "V"]).marked

/-- It is built step by step. -/
theorem built_nestedPair : nestedPair.Built :=
  .decorated (.openGeneric (.ofPath (by decide)) rfl ["K", "V"]) (.withAttribute _)

/-- Applied to two types, it is called as it is nested: the name is not cut short. -/
theorem fullName_nestedPair :
    ∃ closed, nestedPair.instantiate ["Dictionary< string,int[] >", "(int, K)"] = .ok closed ∧
      nestedPair.Coherent ∧ closed.Coherent ∧
      closed.fullName = "N.Outer.IPair<Dictionary<string, int[]>, (int, K)>" := by
  obtain ⟨hcoherent, hinstances⟩ := fullName_of_built built_nestedPair
  have hread : readArguments ["Dictionary< string,int[] >", "(int, K)"] =
      .ok [⟨"Dictionary", [.named "string", ⟨"int", [], "[]"⟩], ""⟩, .named "(int, K)"] := by
        decide +kernel
  have hinstantiate : nestedPair.instantiate ["Dictionary< string,int[] >", "(int, K)"] =
      .ok (nestedPair.closeOver ["K", "V"]
        [⟨"Dictionary", [.named "string", ⟨"int", [], "[]"⟩], ""⟩, .named "(int, K)"]) := by
    rw [instantiate, hread]
    rfl
  obtain ⟨_, _, _, hnames⟩ := hinstances _ _ hinstantiate
  exact ⟨_, hinstantiate, hcoherent.mpr fun hcut => absurd hcut.isClosed (by decide),
    hnames.coherent_iff.mpr (by decide), by decide⟩

/-- A generic interface inside a generic class. -/
def innerOfGeneric : Declaration :=
  ((ofPath .interface "N" "IInner").nestedIn
    ((ofPath .classType "N" "Outer").openGeneric ["T"])).openGeneric ["U"]

/-- A generic type inside a generic type loses its name when it is applied. -/
theorem fullName_innerOfGeneric :
    innerOfGeneric.Built ∧ innerOfGeneric.fullName = "N.Outer<T>.IInner<U>" ∧
      ∃ closed, innerOfGeneric.instantiate ["int"] = .ok closed ∧ closed.Built ∧
        closed.fullName = "N.Outer<int>" ∧
        closed.inScope closed.localName = "N.Outer<T>.IInner<int>" ∧ ¬ closed.Coherent := by
  have hbuilt : innerOfGeneric.Built :=
    .openGeneric (.nestedIn (.ofPath (by decide)) (.openGeneric (.ofPath (by decide)) rfl ["T"]))
      rfl ["U"]
  have hread : readArguments ["int"] = .ok [.named "int"] := by decide +kernel
  have hinstantiate : innerOfGeneric.instantiate ["int"] =
      .ok (innerOfGeneric.closeOver ["U"] [.named "int"]) := by
    rw [instantiate, hread]
    rfl
  exact ⟨hbuilt, by decide, _, hinstantiate, .instantiate hbuilt hinstantiate, by decide, by decide,
    by decide⟩

end RadioBroker.Declaration
