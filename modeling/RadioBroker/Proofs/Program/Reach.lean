import RadioBroker.Proofs.Program.Level

/-!
# Ways down to definitions

Generation gets to a definition through the types around it. `Passes through` is one step of such a
way, from a type that satisfies `through` to a definition below it. A definition with instances is
reached from the roots exactly if all types around it satisfy `through` and have instances of their
own; the latter is always so where none of them is closed.
-/

namespace RadioBroker

open Relation

namespace ServiceModel

variable {model : ServiceModel} {through : TypeId → Prop} {outer inner definition id : TypeId}

/-- A step from a type down to one of the definitions in it. -/
def Passes (model : ServiceModel) (through : TypeId → Prop) (outer inner : TypeId) : Prop :=
  through outer ∧ inner ∈ model.relations.childrenOf outer

/-- A type that is partial and no generic definition. Only such a type can get a routine. -/
def Hosting (model : ServiceModel) (id : TypeId) : Prop :=
  model.graph.IsPartial id ∧ (model.genericsOf id).isOpen = false

/-- A definition is reached from the roots. -/
def Reached (model : ServiceModel) (through : TypeId → Prop) (definition : TypeId) : Prop :=
  ∃ root ∈ model.rootLevel, ReflTransGen (model.Passes through) root definition

/-- A way from a type that is not passed through goes nowhere. -/
theorem eq_of_way_of_not (hnot : ¬ through outer)
    (hway : ReflTransGen (model.Passes through) outer inner) : outer = inner := by
  rcases ReflTransGen.cases_head hway with heq | ⟨_, hstep, _⟩
  · exact heq
  · exact absurd hstep.1 hnot

/-- A step leads to a type that is enclosed. -/
theorem Analysed.encloses_of_passes (h : model.Analysed)
    (hstep : model.Passes through outer inner) :
    model.graph.Encloses outer inner :=
  (h.relations.mem_childrenOf_iff.mp hstep.2).1

/-- A way leads to types that are enclosed. -/
theorem Analysed.transGen_encloses (h : model.Analysed)
    (hway : TransGen (model.Passes through) outer inner) :
    TransGen model.graph.Encloses outer inner :=
  TransGen.mono (fun _ _ hstep => h.encloses_of_passes hstep) _ _ hway

/-- A nested definition with instances is one step below the type around it. -/
theorem Analysed.passes_of_encloses (h : model.Analysed)
    (hencloses : model.graph.Encloses outer inner) (hthrough : through outer)
    (hinstances : model.relations.instancesOf inner ≠ []) : model.Passes through outer inner :=
  ⟨hthrough, h.relations.mem_childrenOf_iff.mpr ⟨hencloses, hinstances⟩⟩

/-- What is reached has instances, and so have all types around it, which are passed through. -/
theorem Analysed.ancestors_of_reached (h : model.Analysed) (hacyclic : model.graph.Acyclic)
    (hreached : model.Reached through definition) :
    model.relations.instancesOf definition ≠ [] ∧
      ∀ outer ∈ model.graph.ancestors definition,
        through outer ∧ model.relations.instancesOf outer ≠ [] := by
  obtain ⟨root, hroot, hway⟩ := hreached
  induction hway with
  | refl =>
      obtain ⟨hparent, hinstances⟩ := h.mem_rootLevel_iff.mp hroot
      refine ⟨hinstances, ?_⟩
      rw [TypeGraph.ancestors_of_root hparent]
      exact fun _ hmem => absurd hmem List.not_mem_nil
  | @tail outer inner _ hstep ih =>
      obtain ⟨hencloses, hinstances⟩ := h.relations.mem_childrenOf_iff.mp hstep.2
      refine ⟨hinstances, ?_⟩
      rw [TypeGraph.ancestors_of_encloses h.graph hacyclic hencloses]
      intro other hother
      rcases List.mem_cons.mp hother with rfl | hfurther
      · exact ⟨hstep.1, ih.1⟩
      · exact ih.2 other hfurther

/-- A definition with instances is reached if all types around it are passed through and have
instances. -/
theorem Analysed.reached_of_ancestors (h : model.Analysed) (hacyclic : model.graph.Acyclic)
    (hinstances : model.relations.instancesOf definition ≠ [])
    (hancestors : ∀ outer ∈ model.graph.ancestors definition,
      through outer ∧ model.relations.instancesOf outer ≠ []) :
    model.Reached through definition := by
  -- The induction is on the chain of enclosing types, innermost first.
  induction hchain : model.graph.ancestors definition generalizing definition with
  | nil =>
      refine ⟨definition, h.mem_rootLevel_iff.mpr ⟨?_, hinstances⟩, .refl⟩
      by_contra hnested
      obtain ⟨outer, houter⟩ := Option.ne_none_iff_exists'.mp hnested
      rw [TypeGraph.ancestors_of_encloses h.graph hacyclic houter] at hchain
      cases hchain
  | cons outer chain ih =>
      cases hparent : model.graph.parent? definition with
      | none =>
          rw [TypeGraph.ancestors_of_root hparent] at hchain
          cases hchain
      | some parent =>
          have hstep := TypeGraph.ancestors_of_encloses h.graph hacyclic hparent
          rw [hstep] at hchain hancestors
          cases hchain
          obtain ⟨hthrough, hparentInstances⟩ := hancestors outer List.mem_cons_self
          obtain ⟨root, hroot, hway⟩ := ih hparentInstances
            (fun other hother => hancestors other (List.mem_cons_of_mem _ hother)) rfl
          exact ⟨root, hroot, hway.tail (h.passes_of_encloses hparent hthrough hinstances)⟩

/-! ## Types that are definitions -/

/-- A linked type that is not closed is an instance of itself. -/
theorem Analysed.instancesOf_of_not_closed (h : model.Analysed)
    (hlinked : model.relations.Linked model.graph id)
    (hgenerics : (model.genericsOf id).isClosed = false) : model.relations.instancesOf id ≠ [] := by
  obtain ⟨node, hnode⟩ := TypeGraph.exists_node_iff.mpr hlinked.1
  have hclosed : node.declaration.generics.isClosed = false := by
    simpa [genericsOf, hnode] using hgenerics
  exact h.relations.instancesOf_ne_nil_iff.mpr ⟨id, hlinked, h.graph.definition_self hnode hclosed⟩

/-- Where a definition has instances, so have the types around it, if none of them is closed. -/
theorem Analysed.instancesOf_of_mem_ancestors (h : model.Analysed) (hacyclic : model.graph.Acyclic)
    (hinstances : model.relations.instancesOf definition ≠ [])
    (hgenerics : ∀ outer ∈ model.graph.ancestors definition,
      (model.genericsOf outer).isClosed = false) :
    ∀ outer ∈ model.graph.ancestors definition, model.relations.instancesOf outer ≠ [] := by
  induction hchain : model.graph.ancestors definition generalizing definition with
  | nil => exact fun _ hmem => absurd hmem List.not_mem_nil
  | cons outer chain ih =>
      cases hparent : model.graph.parent? definition with
      | none =>
          rw [TypeGraph.ancestors_of_root hparent] at hchain
          cases hchain
      | some parent =>
          rw [TypeGraph.ancestors_of_encloses h.graph hacyclic hparent] at hchain hgenerics
          cases hchain
          obtain ⟨id, hlinked, rfl⟩ := h.relations.instancesOf_ne_nil_iff.mp hinstances
          have houter : model.relations.instancesOf outer ≠ [] :=
            h.instancesOf_of_not_closed (h.relations.needs hlinked (Or.inr hparent))
              (hgenerics outer List.mem_cons_self)
          intro other hother
          rcases List.mem_cons.mp hother with rfl | hfurther
          · exact houter
          · exact ih houter (fun other hother =>
              hgenerics other (List.mem_cons_of_mem _ hother)) rfl
              other hfurther

end ServiceModel

end RadioBroker
