import RadioBroker.Proofs.ServiceModel.Instances

/-!
# Methods that applied definitions own

A type owns the methods that it lists without a declaring type or with itself as one; those of other
types it merely repeats. Applying a definition writes the application into every declaring type that
is there, so the application owns all that the definition lists. What the definition only repeats
becomes a candidate of the application itself, and the candidate that the application inherits from
the type that declares the method is reported as a duplicate of it.
-/

namespace RadioBroker

variable {parameters : List String} {arguments : List TypeExpr}

/-- A method with the name and the written parameters of another one. -/
structure Method.Repeats (method other : Method) : Prop where
  name : method.name = other.name
  parameters : method.parameters.map TypeExpr.display = other.parameters.map TypeExpr.display

/-- Candidates of one signature are methods of which each repeats the other. -/
theorem Candidate.sameSignature_iff {first second : Candidate} :
    first.sameSignature second = true ↔ first.method.Repeats second.method := by
  rw [sameSignature, Bool.and_eq_true, decide_eq_true_eq, decide_eq_true_eq]
  exact ⟨fun h => ⟨h.1, h.2⟩, fun h => ⟨h.name, h.parameters⟩⟩

namespace TypeGraph

variable {graph : TypeGraph} {id : TypeId} {node base : TypeNode} {interface : String}

/-- The candidates of a type are what it declares and what it inherits. -/
theorem candidates_of_node (hnode : graph.node? id = some node) :
    graph.candidates id = graph.declaredCandidates node node.declaration.localName ++
      (graph.allInterfaces id).flatMap graph.inheritedCandidates := by
  rw [candidates, hnode]

/-- All methods that a type lists as candidates, whether it owns them or not. -/
def listedCandidates (graph : TypeGraph) (node : TypeNode) (interface : String) : List Candidate :=
  node.declaration.methods.zipIdx.map fun entry =>
    ⟨entry.1, interface, node.declaration.fullName, graph.fullName node.definition, entry.2⟩

/-- A type that owns all that it lists declares all of it. -/
theorem declaredCandidates_of_owns
    (h : ∀ method ∈ node.declaration.methods, node.declaration.owns method = true) :
    graph.declaredCandidates node interface = graph.listedCandidates node interface := by
  rw [declaredCandidates, listedCandidates, ← List.filterMap_eq_map]
  refine List.filterMap_congr fun entry hentry => ?_
  have hmem := List.mem_of_getElem? (List.mem_zipIdx_iff_getElem?.mp hentry)
  exact if_pos (h entry.1 hmem)

/-- A method that a type owns is a candidate of the type. -/
theorem exists_mem_declaredCandidates (graph : TypeGraph) (interface : String) {method : Method}
    (hmethod : method ∈ node.declaration.methods) (howns : node.declaration.owns method = true) :
    ∃ candidate ∈ graph.declaredCandidates node interface, candidate.method = method ∧
      candidate.declaring = node.declaration.fullName := by
  obtain ⟨slot, hslot⟩ := List.mem_iff_getElem?.mp hmethod
  refine ⟨⟨method, interface, _, graph.fullName node.definition, slot⟩, ?_, rfl, rfl⟩
  refine List.mem_filterMap.mpr ⟨(method, slot), List.mem_zipIdx_iff_getElem?.mpr hslot, ?_⟩
  exact if_pos howns

/-- The declaring type of a candidate that a type declares is that type. -/
theorem declaring_of_mem_declaredCandidates {candidate : Candidate}
    (h : candidate ∈ graph.declaredCandidates node interface) :
    candidate.declaring = node.declaration.fullName := by
  obtain ⟨entry, _, hcandidate⟩ := List.mem_filterMap.mp h
  dsimp only at hcandidate
  split at hcandidate <;> cases hcandidate
  rfl

/-- What a type inherits is reported where the type declares a method of the same signature. -/
theorem reported_of_declared {candidate other : Candidate} (hchecked : graph.Checked id)
    (hnode : graph.node? id = some node)
    (hinherited : candidate ∈ (graph.allInterfaces id).flatMap graph.inheritedCandidates)
    (hother : other ∈ graph.declaredCandidates node node.declaration.localName)
    (hrepeats : other.method.Repeats candidate.method) :
    graph.Reported ⟨.duplicateInheritedMethod candidate.method.name node.declaration.fullName
      candidate.declaring, candidate.method.location⟩ := by
  obtain ⟨slot, hslot⟩ := List.mem_iff_getElem?.mp hinherited
  have hcandidates := candidates_of_node hnode
  -- the first of that signature is found among those that the type declares
  have hsome : ((graph.declaredCandidates node node.declaration.localName).find? fun earlier =>
      earlier.sameSignature candidate).isSome = true :=
    List.find?_isSome.mpr ⟨other, hother, Candidate.sameSignature_iff.mpr hrepeats⟩
  obtain ⟨first, hfirst⟩ := Option.isSome_iff_exists.mp hsome
  have hdeclaring := declaring_of_mem_declaredCandidates (List.mem_of_find?_eq_some hfirst)
  generalize graph.declaredCandidates node node.declaration.localName = own at hcandidates hfirst
  have hplace : (graph.candidates id)[own.length + slot]? = some candidate := by
    rw [hcandidates, List.getElem?_append_right (Nat.le_add_right _ _), Nat.add_sub_cancel_left,
      hslot]
  have hforerunner : Candidate.forerunner? ((graph.candidates id).take (own.length + slot))
      candidate = some first := by
    rw [hcandidates, List.take_length_add_append, Candidate.forerunner?, List.find?_append, hfirst,
      Option.some_or]
  rw [← hdeclaring]
  exact .duplicate hchecked hplace hforerunner

/-- A method that a type and one of its bases both own is reported of the base. -/
theorem reported_of_owned {method declared : Method} {t : TypeExpr}
    (hchecked : graph.Checked id) (hnode : graph.node? id = some node)
    (hmethod : method ∈ node.declaration.methods) (howns : node.declaration.owns method = true)
    (hbase : t ∈ graph.allInterfaces id) (hdeclared : graph.declared? t.display = some base)
    (hdeclaredMethod : declared ∈ base.declaration.methods)
    (hbaseOwns : base.declaration.owns declared = true) (hrepeats : method.Repeats declared) :
    graph.Reported ⟨.duplicateInheritedMethod declared.name node.declaration.fullName
      base.declaration.fullName, declared.location⟩ := by
  obtain ⟨other, hother, rfl, _⟩ := exists_mem_declaredCandidates graph node.declaration.localName
    hmethod howns
  obtain ⟨candidate, hcandidate, rfl, hdeclaring⟩ := exists_mem_declaredCandidates graph t.display
    hdeclaredMethod hbaseOwns
  have hinherited : candidate ∈ (graph.allInterfaces id).flatMap graph.inheritedCandidates := by
    refine List.mem_flatMap.mpr ⟨t, hbase, ?_⟩
    rw [inheritedCandidates, hdeclared]
    exact hcandidate
  rw [← hdeclaring]
  exact reported_of_declared hchecked hnode hinherited hother hrepeats

end TypeGraph

open ServiceModel

namespace Declaration

/-- A definition applied to as many arguments as it has parameters owns all that it lists, so
ownership is kept exactly where the definition owns what it lists. In a graph, all that the
application lists is collected as its own, and each method of a base that it repeats is reported. -/
theorem owns_of_close {definition : Declaration}
    (hopen : definition.generics = .openOver parameters)
    (hlength : parameters.length = arguments.length) :
    ∃ closed, definition.close arguments = .ok closed ∧
      List.Forall₂ (fun method copy => method.Closes parameters arguments copy ∧
        closed.owns copy = true ∧
        (closed.owns copy = definition.owns method ↔ definition.owns method = true))
        definition.methods closed.methods ∧
      ∀ (graph : TypeGraph) (id : TypeId) (node : TypeNode), graph.node? id = some node →
        node.declaration = closed →
        graph.candidates id = graph.listedCandidates node closed.localName ++
          (graph.allInterfaces id).flatMap graph.inheritedCandidates ∧
        (graph.Checked id → ∀ copy ∈ closed.methods, ∀ t ∈ graph.allInterfaces id, ∀ base,
          graph.declared? t.display = some base → ∀ declared ∈ base.declaration.methods,
          base.declaration.owns declared = true → copy.Repeats declared →
          ⟨.duplicateInheritedMethod declared.name closed.fullName base.declaration.fullName,
            declared.location⟩ ∈ ((ofGraph graph).prepare .empty).delivered) := by
  have hclose : definition.close arguments = .ok (definition.closeOver parameters arguments) :=
    close_eq_ok_iff.mpr ⟨parameters, hopen, hlength, rfl⟩
  refine ⟨_, hclose, ?_, ?_⟩
  · refine List.forall₂_map_right_iff.mpr (List.forall₂_same.mpr ?_)
    intro method hmethod
    have howns := @owns_of_mem_closeOver parameters arguments definition _
      (List.mem_map_of_mem hmethod)
    refine ⟨⟨rfl, rfl, rfl⟩, howns, ?_⟩
    rw [howns]
    exact eq_comm
  · intro graph id node hnode hclosed
    have howns : ∀ copy ∈ node.declaration.methods, node.declaration.owns copy = true := by
      rw [hclosed]
      exact fun _ => owns_of_mem_closeOver
    rw [← hclosed, ← TypeGraph.declaredCandidates_of_owns howns]
    refine ⟨TypeGraph.candidates_of_node hnode, ?_⟩
    intro hchecked copy hcopy t ht base hbase declared hdeclared hbaseOwns hrepeats
    exact (mem_delivered_iff_reported graph _).mpr (TypeGraph.reported_of_owned hchecked hnode hcopy
      (howns copy hcopy) ht hbase hdeclared hbaseOwns hrepeats)

/-- An interface that declares `Go`. -/
def goingBase : Declaration :=
  { ofPath .interface "N" "IBase" with methods := [⟨"Go", .named "void", [], none, {}⟩] }

/-- A generic service that extends the interface and lists the method of that interface. -/
def repeatingService : Declaration :=
  { (ofPath .interface "N" "D").marked.openGeneric ["T"] with
    interfaces := [.named baseInterfaceName, .named "N.IBase"]
    methods := [⟨"Go", .named "void", [], some "N.IBase", {}⟩] }

/-- The graph of the two and of a type that extends the service applied to `int`. -/
def repeatingServiceGraph : TypeGraph :=
  ⟨[⟨goingBase, none, 0⟩, ⟨repeatingService, none, 1⟩, ⟨serviceUser, none, 2⟩,
    ⟨repeatingService.closeOver ["T"] [.named "int"], none, 1⟩]⟩

/-- The applied service owns the method that it repeats, and the method of the interface is
reported. -/
theorem owns_of_close_repeating :
    repeatingService.generics = .openOver ["T"] ∧
      ∃ closed, repeatingService.close [.named "int"] = .ok closed ∧
        (closed.methods.all closed.owns) = true ∧
        ⟨.duplicateInheritedMethod "Go" closed.fullName "N.IBase", {}⟩ ∈
          ((ofGraph repeatingServiceGraph).prepare .empty).delivered := by
  obtain ⟨closed, hclose, hmethods, hcollected⟩ :=
    @owns_of_close ["T"] [.named "int"] repeatingService rfl rfl
  cases hclose
  obtain ⟨_, hreported⟩ := hcollected repeatingServiceGraph 3 _ rfl rfl
  have hchecked : repeatingServiceGraph.Checked 3 := by decide +kernel
  have hinterfaces : repeatingServiceGraph.allInterfaces 3 =
      [.named baseInterfaceName, .named "N.IBase"] := by decide +kernel
  refine ⟨rfl, _, rfl, by decide, ?_⟩
  refine hreported hchecked ⟨"Go", .named "void", [], some "N.D<int>", {}⟩ (by decide)
    (.named "N.IBase") ?_ ⟨goingBase, none, 0⟩ rfl ⟨"Go", .named "void", [], none, {}⟩
    (by decide) (by decide) ⟨rfl, rfl⟩
  rw [hinterfaces]
  decide

/-- The service does not own the method that it repeats, but what applies it does, and is reported
for it while the service is not. -/
theorem owns_lost_repeating :
    TypeGraph.build [goingBase, repeatingService, serviceUser] = .ok repeatingServiceGraph ∧
      (∃ closed, repeatingService.close [.named "int"] = .ok closed ∧
        repeatingService.methods.map repeatingService.owns = [false] ∧
        closed.methods.map closed.owns = [true]) ∧
      ((ofGraph repeatingServiceGraph).prepare .empty).delivered =
        [⟨.duplicateInheritedMethod "Go" "N.D<int>" "N.IBase", {}⟩] := by
  refine ⟨by rfl, ⟨_, rfl, by decide, by decide⟩, ?_⟩
  rw [delivered_eq]
  decide +kernel

end Declaration

end RadioBroker
