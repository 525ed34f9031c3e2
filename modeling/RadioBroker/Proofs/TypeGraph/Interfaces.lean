import RadioBroker.Proofs.TypeGraph.WellFormed

/-!
# Extended interfaces

The interfaces of a type are closed under extension, and a visit depends on nothing but the
extension lists of what it meets and on which of these types are unvisited. Types that extend each
other alike are therefore visited alike.
-/

namespace RadioBroker.TypeGraph

variable {graph : TypeGraph}

/-! ## What a visit reaches -/

/-- A visit reaches each unvisited type of its list. -/
theorem mem_preorder {t : TypeExpr} {unvisited list : List TypeExpr}
    (hunvisited : t ∈ unvisited) (hlist : t ∈ list) : t ∈ graph.preorder unvisited list := by
  fun_induction graph.preorder unvisited list with
  | case1 => cases hlist
  | case2 unvisited first rest hfirst ih =>
      by_cases heq : t = first
      · rw [heq]
        exact List.mem_cons_self
      · refine List.mem_cons_of_mem _ (ih ?_ ?_)
        · simpa [without, heq] using hunvisited
        · exact List.mem_append_right _ (List.mem_of_ne_of_mem heq hlist)
  | case3 unvisited first rest hfirst ih =>
      have hne : t ≠ first := fun heq => hfirst (heq ▸ hunvisited)
      exact ih hunvisited (List.mem_of_ne_of_mem hne hlist)

/-- A visit reaches what a visited type extends, as far as it was unvisited. -/
theorem mem_preorder_of_extends {s t : TypeExpr} {unvisited list : List TypeExpr}
    (ht : t ∈ graph.preorder unvisited list) (hs : s ∈ graph.extensionsOf t)
    (hunvisited : s ∈ unvisited) : s ∈ graph.preorder unvisited list := by
  fun_induction graph.preorder unvisited list with
  | case1 => cases ht
  | case2 unvisited first rest hfirst ih =>
      by_cases heq : s = first
      · rw [heq]
        exact List.mem_cons_self
      · have hleft : s ∈ without first unvisited := by simpa [without, heq] using hunvisited
        refine List.mem_cons_of_mem _ ?_
        rcases List.mem_cons.mp ht with rfl | hlater
        · exact mem_preorder hleft (List.mem_append_left _ hs)
        · exact ih hlater hleft
  | case3 unvisited first rest hfirst ih => exact ih ht hunvisited

/-- A visit reaches unvisited types only, each from the list or from a type that it has reached. -/
theorem cases_of_mem_preorder {t : TypeExpr} {unvisited list : List TypeExpr}
    (h : t ∈ graph.preorder unvisited list) :
    t ∈ unvisited ∧ (t ∈ list ∨ ∃ s ∈ graph.preorder unvisited list, t ∈ graph.extensionsOf s) := by
  fun_induction graph.preorder unvisited list with
  | case1 => cases h
  | case2 unvisited first rest hfirst ih =>
      rcases List.mem_cons.mp h with rfl | hlater
      · exact ⟨hfirst, Or.inl List.mem_cons_self⟩
      · obtain ⟨hleft, hfrom⟩ := ih hlater
        refine ⟨List.mem_of_mem_filter hleft, ?_⟩
        rcases hfrom with hnext | ⟨s, hs, hextends⟩
        · rcases List.mem_append.mp hnext with hextends | hrest
          · exact Or.inr ⟨first, List.mem_cons_self, hextends⟩
          · exact Or.inl (List.mem_cons_of_mem _ hrest)
        · exact Or.inr ⟨s, List.mem_cons_of_mem _ hs, hextends⟩
  | case3 unvisited first rest hfirst ih =>
      obtain ⟨hleft, hfrom⟩ := ih h
      exact ⟨hleft, hfrom.imp_left (List.mem_cons_of_mem _)⟩

/-- What a type is declared to extend is mentioned. -/
theorem mem_mentioned_of_mem {id : TypeId} {node : TypeNode} {t : TypeExpr}
    (hnode : graph.node? id = some node) (ht : t ∈ node.declaration.interfaces) :
    t ∈ graph.mentioned :=
  List.mem_flatMap.mpr ⟨node, List.mem_of_getElem? hnode, ht⟩

/-- What a declared type extends is mentioned. -/
theorem mem_mentioned_of_extends {s t : TypeExpr} (h : s ∈ graph.extensionsOf t) :
    s ∈ graph.mentioned := by
  unfold extensionsOf at h
  split at h
  · cases h
  · rename_i node hnode
    exact List.mem_flatMap.mpr ⟨node, List.mem_of_find?_eq_some hnode, h⟩

/-- The interfaces of a type are closed under extension. -/
theorem mem_allInterfaces_of_extends {id : TypeId} {s t : TypeExpr}
    (ht : t ∈ graph.allInterfaces id) (hs : s ∈ graph.extensionsOf t) :
    s ∈ graph.allInterfaces id := by
  unfold allInterfaces at ht ⊢
  split at ht
  · cases ht
  · exact mem_preorder_of_extends ht hs (mem_mentioned_of_extends hs)

/-- The interfaces that a type is declared to extend are among its interfaces. -/
theorem mem_allInterfaces_of_mem {id : TypeId} {node : TypeNode} {t : TypeExpr}
    (hnode : graph.node? id = some node) (ht : t ∈ node.declaration.interfaces) :
    t ∈ graph.allInterfaces id := by
  rw [allInterfaces, hnode]
  exact mem_preorder (mem_mentioned_of_mem hnode ht) ht

/-- The interfaces of a type are mentioned, by its extension list or by that of another
interface. -/
theorem cases_of_mem_allInterfaces {id : TypeId} {node : TypeNode} {t : TypeExpr}
    (hnode : graph.node? id = some node) (h : t ∈ graph.allInterfaces id) :
    t ∈ graph.mentioned ∧ (t ∈ node.declaration.interfaces ∨
      ∃ s ∈ graph.allInterfaces id, t ∈ graph.extensionsOf s) := by
  rw [allInterfaces, hnode] at h ⊢
  exact cases_of_mem_preorder h

/-! ## Visits along a map of types -/

/-- Where a map of types respects extension and tells types apart, visiting the images of types is
visiting these types. -/
theorem preorder_map {other : TypeGraph} {image : TypeExpr → TypeExpr} {reached : TypeExpr → Prop}
    (hextends : ∀ t, reached t → other.extensionsOf (image t) = (graph.extensionsOf t).map image)
    (hclosed : ∀ t, reached t → ∀ s ∈ graph.extensionsOf t, reached s)
    (hinjective : ∀ s t, reached s → reached t → image s = image t → s = t)
    {unvisited images list : List TypeExpr}
    (hunvisited : ∀ t, reached t → (image t ∈ images ↔ t ∈ unvisited))
    (hlist : ∀ t ∈ list, reached t) :
    other.preorder images (list.map image) = (graph.preorder unvisited list).map image := by
  fun_induction graph.preorder unvisited list generalizing images with
  | case1 => simp [preorder]
  | case2 unvisited first rest hfirst ih =>
      have hreached := hlist first List.mem_cons_self
      have hleft : ∀ t, reached t →
          (image t ∈ without (image first) images ↔ t ∈ without first unvisited) := by
        intro t ht
        have hsame : image t = image first ↔ t = first :=
          ⟨hinjective t first ht hreached, congrArg image⟩
        simp [without, hunvisited t ht, hsame]
      have hnext : ∀ t ∈ graph.extensionsOf first ++ rest, reached t := by
        intro t ht
        rcases List.mem_append.mp ht with hext | hrest
        · exact hclosed first hreached t hext
        · exact hlist t (List.mem_cons_of_mem _ hrest)
      rw [List.map_cons, preorder, if_pos ((hunvisited first hreached).mpr hfirst),
        hextends first hreached, ← List.map_append, ih hleft hnext, List.map_cons]
  | case3 unvisited first rest hfirst ih =>
      have hreached := hlist first List.mem_cons_self
      rw [List.map_cons, preorder,
        if_neg fun hmem => hfirst ((hunvisited first hreached).mp hmem)]
      exact ih hunvisited fun t ht => hlist t (List.mem_cons_of_mem _ ht)

end RadioBroker.TypeGraph
