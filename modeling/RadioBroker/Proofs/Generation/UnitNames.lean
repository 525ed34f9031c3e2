import RadioBroker.Declaration.Builder
import RadioBroker.Proofs.Generation.Handing
import RadioBroker.Proofs.Generation.Interruption
import RadioBroker.Proofs.Program.Brokers

/-!
# Names of units

The units of one generation are named after their namespaces, and different namespaces give
different names but for one pair: the unit of the namespace without a name is called like that of a
namespace called `global`. Where not both of them have units, all names are different, and so are
the files of a generation into a folder; none is written twice.
-/

namespace RadioBroker

/-! ## Names of namespaces -/

namespace Naming

/-- The unit of the namespace without a name is called like that of the namespace `global`. -/
theorem unitName_eq (name : String) :
    unitName name = rootUnitName ++ ("." ++ if name = "" then "global" else name) := by
  rw [unitName]
  split
  · rfl
  · rw [String.append_assoc]

/-- No namespace has a unit that is called like the root unit. -/
theorem unitName_ne_rootUnitName (name : String) : unitName name ≠ rootUnitName := by
  intro h
  have hlength := congrArg String.length h
  rw [unitName_eq, String.length_append, String.length_append] at hlength
  have hdot : ".".length = 1 := rfl
  omega

/-- Units of different namespaces are called alike only if one namespace has no name and the other
one is called `global`. -/
theorem unitName_eq_iff {first second : String} :
    unitName first = unitName second ↔
      first = second ∨ (first = "" ∧ second = "global") ∨ (first = "global" ∧ second = "") := by
  rw [unitName_eq, unitName_eq, String.append_right_inj, String.append_right_inj]
  by_cases hfirst : first = ""
  · by_cases hsecond : second = ""
    · simp [hfirst, hsecond]
    · rw [if_pos hfirst, if_neg hsecond]
      simp [hfirst, hsecond, Ne.symm hsecond, @eq_comm _ "global" second]
  · by_cases hsecond : second = ""
    · simp [hfirst, hsecond]
    · simp [hfirst, hsecond]

/-- Where the namespace without a name and the namespace `global` have units, two units are called
alike. -/
theorem not_nodup_map_unitName {names : List String} (hunnamed : "" ∈ names)
    (hglobal : "global" ∈ names) : ¬ (names.map unitName).Nodup := by
  intro hnodup
  have heq := List.inj_on_of_nodup_map hnodup hunnamed hglobal rfl
  revert heq
  decide

/-- Different namespaces have units of different names, unless one has no name and another one is
called `global`. -/
theorem nodup_map_unitName_iff {names : List String} (h : names.Nodup) :
    (names.map unitName).Nodup ↔ ¬ ("" ∈ names ∧ "global" ∈ names) := by
  constructor
  · rintro hnodup ⟨hunnamed, hglobal⟩
    exact not_nodup_map_unitName hunnamed hglobal hnodup
  · intro hapart
    refine h.map_on fun first hfirst second hsecond heq => ?_
    obtain heq | ⟨rfl, rfl⟩ | ⟨rfl, rfl⟩ := unitName_eq_iff.mp heq
    · exact heq
    · exact absurd ⟨hfirst, hsecond⟩ hapart
    · exact absurd ⟨hsecond, hfirst⟩ hapart

end Naming

/-! ## Names of units -/

variable {names : List String} {units : List GeneratedUnit}

/-- Units have different names exactly if those of their namespaces are different: the root unit has
a name of its own. -/
theorem NamedFor.nodup_hintName_iff (h : NamedFor names units) :
    (units.map GeneratedUnit.hintName).Nodup ↔ (names.map Naming.unitName).Nodup := by
  rcases h with h | h
  · rw [h]
  · rw [h, List.nodup_append]
    constructor
    · exact fun hnodup => hnodup.1
    · intro hnodup
      refine ⟨hnodup, List.nodup_singleton _, ?_⟩
      intro name hname other hother
      obtain ⟨space, _, rfl⟩ := List.mem_map.mp hname
      obtain rfl := List.mem_singleton.mp hother
      exact Naming.unitName_ne_rootUnitName space

/-- Units have different files exactly if they have different names. -/
theorem nodup_fileName_iff :
    (units.map GeneratedUnit.fileName).Nodup ↔ (units.map GeneratedUnit.hintName).Nodup := by
  have hmap : units.map GeneratedUnit.fileName =
      (units.map GeneratedUnit.hintName).map fun name => name ++ ".cs" := by
    rw [List.map_map]
    rfl
  rw [hmap]
  exact List.nodup_map_iff fun _ _ h => (String.append_left_inj ".cs").mp h

/-- Each unit is that of a namespace, or the root unit. -/
theorem NamedFor.cases_of_mem (h : NamedFor names units) {unit : GeneratedUnit}
    (hunit : unit ∈ units) :
    unit.hintName = Naming.rootUnitName ∨ ∃ name ∈ names, unit.hintName = Naming.unitName name := by
  have hname := List.mem_map_of_mem (f := GeneratedUnit.hintName) hunit
  rcases h with h | h
  · rw [h] at hname
    obtain ⟨name, hmem, heq⟩ := List.mem_map.mp hname
    exact Or.inr ⟨name, hmem, heq.symm⟩
  · rw [h, List.mem_append, List.mem_singleton] at hname
    rcases hname with hname | hname
    · obtain ⟨name, hmem, heq⟩ := List.mem_map.mp hname
      exact Or.inr ⟨name, hmem, heq.symm⟩
    · exact Or.inl hname

/-! ## Units of one generation -/

/-- The names of all units start like that of the root unit. -/
theorem NamedFor.exists_label (h : NamedFor names units) {unit : GeneratedUnit}
    (hunit : unit ∈ units) :
    ∃ label, unit.hintName = "gen.CrossChannel" ++ label := by
  obtain hname | ⟨name, _, hname⟩ := h.cases_of_mem hunit
  · exact ⟨"", by rw [hname]; rfl⟩
  · exact ⟨_, by rw [hname, Naming.unitName_eq]; rfl⟩

/-- The path of a unit is relative to its folder. -/
theorem NamedFor.isAbsolute_fileName (h : NamedFor names units) {unit : GeneratedUnit}
    (hunit : unit ∈ units) : Path.isAbsolute unit.fileName = false := by
  obtain ⟨label, hlabel⟩ := h.exists_label hunit
  have hfirst : unit.fileName.toList.head? = some 'g' := by
    rw [GeneratedUnit.fileName, hlabel, String.toList_append, String.toList_append]
    rfl
  rw [Path.isAbsolute, hfirst]
  decide

/-- A unit that has no slash in its name has the name of a file. -/
theorem NamedFor.isFileName (h : NamedFor names units) {unit : GeneratedUnit} (hunit : unit ∈ units)
    (hslash : '/' ∉ unit.hintName.toList) : Path.IsFileName unit.fileName := by
  obtain ⟨label, hlabel⟩ := h.exists_label hunit
  have hlong : ∀ short : String, short.length < 16 → unit.fileName ≠ short := by
    rintro short hshort rfl
    rw [GeneratedUnit.fileName, hlabel, String.length_append, String.length_append] at hshort
    have hroot : "gen.CrossChannel".length = 16 := rfl
    omega
  refine ⟨?_, hlong "" (by decide), hlong "." (by decide), hlong ".." (by decide)⟩
  rw [GeneratedUnit.fileName, String.toList_append, List.mem_append]
  rintro (hname | hend)
  · exact hslash hname
  · revert hend
    decide

/-- Units of different names are written to different paths. -/
theorem NamedFor.nodup_paths (h : NamedFor names units) {folder : String}
    (hnodup : (units.map GeneratedUnit.hintName).Nodup) {written : List GeneratedUnit}
    (hwritten : written.Sublist units) : (written.map (Channel.pathIn folder)).Nodup := by
  have hfiles := nodup_fileName_iff.mpr (hnodup.sublist (hwritten.map _))
  have hinj := List.inj_on_of_nodup_map hfiles
  refine (List.Nodup.of_map _ hfiles).map_on fun first hfirst second hsecond hpath => ?_
  exact hinj hfirst hsecond (Path.eq_of_join_eq (h.isAbsolute_fileName (hwritten.subset hfirst))
    (h.isAbsolute_fileName (hwritten.subset hsecond)) hpath)

/-! ## Every generation -/

/-- What holds of the names of units in every generation from some declarations. -/
structure NamesOfUnits (settings : Settings) (declarations : List Declaration) : Prop where
  /-- The units of different namespaces are called differently, unless one namespace has no name and
  the other one is called `global`. -/
  spaces : ∀ first second, Naming.unitName first = Naming.unitName second ↔
    first = second ∨ (first = "" ∧ second = "global") ∨ (first = "global" ∧ second = "")
  /-- No unit of a namespace is called like the root unit. -/
  root : ∀ name, Naming.unitName name ≠ Naming.rootUnitName
  /-- Whatever a channel answers, it is handed units of different namespaces, and perhaps the root
  unit behind them. Their names are different, and so are those of their files, unless the namespace
  without a name and the namespace `global` are both among them. -/
  units : ∀ {m : Type → Type} [Monad m] [LawfulMonad m] {σ : Type} (runner : Runner m σ)
    (channel : Channel m) (start : σ),
    let units := (channel.noted runner start settings declarations).1
    ∃ names, names.Sublist (Channel.preparedNamespaces declarations) ∧ names.Nodup ∧
      NamedFor names units ∧
      ((units.map GeneratedUnit.hintName).Nodup ↔ ¬ ("" ∈ names ∧ "global" ∈ names)) ∧
      ((units.map GeneratedUnit.fileName).Nodup ↔ ¬ ("" ∈ names ∧ "global" ∈ names))
  /-- Where units have different names, no path is written twice. -/
  files : ∀ {m : Type → Type} [Monad m] [LawfulMonad m] [FileAccess m] {σ : Type}
    (runner : Runner m σ) (folder : String) (cancelled : m Bool) (start : σ),
    let after := (Channel.writing folder cancelled).noted (runner.withState _) ([], start) settings
      declarations
    (after.1.map GeneratedUnit.hintName).Nodup → after.2.1.Nodup
  /-- Where units have different names and no slashes in them, each file that was written to a
  folder of a tree still holds its unit in the end. -/
  kept : ∀ (folder : String) (isCancelled : FileTree → Bool) (start : FileTree),
    let after := (Channel.writing folder (do pure (isCancelled (← get)))).noted
      ((Runner.ofStateM FileTree).withState _) ([], start) settings declarations
    (after.1.map GeneratedUnit.hintName).Nodup →
      (∀ unit ∈ after.1, '/' ∉ unit.hintName.toList) →
      ∃ written : List GeneratedUnit, written.Sublist after.1 ∧
        after.2.1 = written.map (Channel.pathIn folder) ∧
        ∀ unit ∈ written, after.2.2.read? (Channel.pathIn folder unit) = some unit.source

/-- The units of one generation are told apart by their names, but for one pair of namespaces. -/
theorem names_of_units (settings : Settings) (declarations : List Declaration) :
    NamesOfUnits settings declarations where
  spaces _ _ := Naming.unitName_eq_iff
  root := Naming.unitName_ne_rootUnitName
  units runner channel start := by
    intro units
    obtain ⟨names, hnames, hunits, _⟩ :=
      (channel.keeps_true runner).noted settings declarations start
      trivial
    have hnodup := hnames.nodup (nodup_preparedNamespaces declarations)
    have hhints := hunits.nodup_hintName_iff.trans (Naming.nodup_map_unitName_iff hnodup)
    exact ⟨names, hnames, hnodup, hunits, hhints, nodup_fileName_iff.trans hhints⟩
  files runner folder cancelled start := by
    intro after hnodup
    obtain ⟨names, _, hunits, written, hwritten, hfiles⟩ :=
      (Channel.keeps_writing runner).noted settings declarations ([], start)
        ⟨[], List.Sublist.refl _, rfl⟩
    have hpaths : after.2.1 = written.map (Channel.pathIn folder) := hfiles
    rw [hpaths]
    exact hunits.nodup_paths hnodup hwritten
  kept folder isCancelled start := by
    intro after hnodup hslash
    obtain ⟨names, _, hunits, written, hwritten, hfiles, hholds⟩ :=
      (Channel.keeps_writing_tree isCancelled).noted settings declarations ([], start)
        ⟨[], List.Sublist.refl _, rfl, nofun⟩
    refine ⟨written, hwritten, hfiles, ?_⟩
    intro unit hunit
    have hnames : ∀ unit ∈ after.1, Path.IsFileName unit.fileName := fun unit hmem =>
      hunits.isFileName hmem (hslash unit hmem)
    exact (hholds (nodup_fileName_iff.mpr hnodup) hnames unit hunit).read?
      (hnames unit (hwritten.subset hunit))

/-! ## Two namespaces with one name -/

namespace ServiceModel

variable {model : ServiceModel} {withRoutine after : List TypeId} {id : TypeId}

/-- A namespace with a service among its roots has a unit. -/
theorem Analysed.mem_unitsOf (h : model.Analysed) (hacyclic : model.graph.Acyclic)
    {namespaces : List (String × List TypeId)} {units : List (String × List Piece)} {name : String}
    {roots : List TypeId} (hlevel : ∀ id ∈ namespaces.flatMap Prod.snd, id ∈ model.rootLevel)
    (hunits : model.unitsOf withRoutine namespaces = .ok (units, after))
    (hentry : (name, roots) ∈ namespaces) (hroot : id ∈ roots)
    (hservice : model.isService id = true) : name ∈ units.map Prod.fst := by
  induction namespaces generalizing withRoutine units with
  | nil => cases hentry
  | cons entry namespaces ih =>
      simp only [unitsOf, bind_eq_ok_iff] at hunits
      obtain ⟨yielded, hyielded, ⟨later, final⟩, hlater, hfinal⟩ := hunits
      cases hfinal
      rw [List.flatMap_cons] at hlevel
      rcases List.mem_cons.mp hentry with rfl | hothers
      · have hwalk := h.walk_of_namespacePieces hacyclic
          (fun id hid => hlevel id (List.mem_append_left _ hid)) hyielded
        obtain ⟨broker, hbroker⟩ := hwalk.exists_broker hroot .refl hservice
        have hsome : yielded.pieces.isEmpty = false := by
          cases hpieces : yielded.pieces with
          | nil =>
              rw [hpieces] at hbroker
              cases hbroker
          | cons _ _ => rfl
        rw [if_neg (by rw [hsome]; exact Bool.false_ne_true)]
        exact List.mem_cons_self
      · have hmem := ih (fun id hid => hlevel id (List.mem_append_right _ hid)) hlater hothers
        split
        · exact hmem
        · exact List.mem_cons_of_mem _ hmem

/-- The namespace of a service has a unit, if the service is a definition that no type encloses. -/
theorem Analysed.mem_units_of_service (h : model.Analysed) (hacyclic : model.graph.Acyclic)
    {outline : Outline} (houtline : model.outline = .ok outline)
    (hservice : model.isService id = true) (hself : model.graph.definitionOf id = id)
    (hroot : model.graph.parent? id = none) :
    model.namespaceOf id ∈ outline.units.map Prod.fst := by
  obtain ⟨after, hunits, _⟩ := cases_of_outline houtline
  have hinstances := h.relations.instancesOf_ne_nil_iff.mpr ⟨id, h.linked id hservice, hself⟩
  have hmem := h.relations.mem_roots_iff.mpr ⟨hroot, hinstances⟩
  exact h.mem_unitsOf hacyclic (fun _ hroot => hroot) hunits
    (mem_namespaces_iff.mpr ⟨⟨id, hmem, rfl⟩, rfl⟩)
    (List.mem_filter.mpr ⟨hmem, decide_eq_true rfl⟩) hservice

end ServiceModel

/-- A service without a namespace, and one in a namespace called `global`. -/
def unnamedAndGlobal : List Declaration :=
  [{ (Declaration.ofPath .interface "" "IFirst").marked with
      interfaces := [⟨baseInterfaceName, [], ""⟩] },
   { (Declaration.ofPath .interface "global" "ISecond").marked with
      interfaces := [⟨baseInterfaceName, [], ""⟩] }]

/-- The graph of `unnamedAndGlobal`. -/
def unnamedAndGlobalGraph : TypeGraph :=
  ⟨[⟨unnamedAndGlobal[0], none, 0⟩, ⟨unnamedAndGlobal[1], none, 1⟩]⟩

/-- Both namespaces have units, and the units are called alike. -/
theorem names_unnamedAndGlobal :
    TypeGraph.build unnamedAndGlobal = .ok unnamedAndGlobalGraph ∧
      ∃ units, (({} : Interruption).generate {} unnamedAndGlobal).2 = ⟨units, []⟩ ∧
        ¬ (units.map GeneratedUnit.hintName).Nodup ∧
          ¬ (units.map GeneratedUnit.fileName).Nodup := by
  have hbuild : TypeGraph.build unnamedAndGlobal = .ok unnamedAndGlobalGraph := by rfl
  have hacyclic : unnamedAndGlobalGraph.Acyclic := TypeGraph.acyclic_of_lt (by decide)
  have hready : ((ServiceModel.ofGraph unnamedAndGlobalGraph).prepare .empty).outcome = .ready :=
    ServiceModel.outcome_prepare_of_all (by decide)
  obtain ⟨program, hprogram⟩ := ServiceModel.exists_program_of_forall_ids hbuild hready
    (({} : Settings).mergeDeclarations unnamedAndGlobal).hook (by decide)
  have hunits := congrArg (Except.map Program.generatedUnits) hprogram
  obtain ⟨_, hdone⟩ | ⟨_, _, hcancel, _⟩ | ⟨_, _, _, hrefusal, _⟩ :=
    (Interruption.ends_of_generate hbuild hready hunits {}).cases
  · obtain ⟨hgraph, h, _⟩ := ServiceModel.analysed_of_prepare hbuild hready
    obtain ⟨outline, houtline, hresult⟩ := ServiceModel.exists_outline_of_synthesize hprogram
    refine ⟨hbuild, program.generatedUnits, hdone, ?_⟩
    generalize ((ServiceModel.ofGraph unnamedAndGlobalGraph).prepare .empty).model = model at *
    have hspace : ∀ id, (unnamedAndGlobalGraph.serviceBound? id).isSome = true →
        unnamedAndGlobalGraph.definitionOf id = id → unnamedAndGlobalGraph.parent? id = none →
        model.namespaceOf id ∈ outline.units.map Prod.fst := by
      intro id hmarked hself hroot
      refine h.mem_units_of_service (hgraph.symm ▸ hacyclic) houtline ?_ ?_ ?_
      · rwa [h.isService_eq, hgraph]
      · rwa [hgraph]
      · rwa [hgraph]
    have hunnamed := hspace 0 (by rfl) (by rfl) (by rfl)
    have hglobal := hspace 1 (by rfl) (by rfl) (by rfl)
    simp only [ServiceModel.namespaceOf, hgraph] at hunnamed hglobal
    have hnames : NamedFor (outline.units.map Prod.fst) program.generatedUnits := by
      rw [hresult]
      exact Or.inr (by simp [Program.generatedUnits, Outline.program, Function.comp_def,
        GeneratedUnit.ofNamespace, GeneratedUnit.ofRoot])
    have hclash : ¬ (program.generatedUnits.map GeneratedUnit.hintName).Nodup := by
      rw [hnames.nodup_hintName_iff]
      exact Naming.not_nodup_map_unitName hunnamed hglobal
    exact ⟨hclash, fun hnodup => hclash (nodup_fileName_iff.mp hnodup)⟩
  · cases hcancel
  · cases hrefusal

end RadioBroker
