import RadioBroker.Generation.Run
import RadioBroker.Proofs.Files.Writing
import RadioBroker.Proofs.Program.Walk
import RadioBroker.Proofs.ServiceModel.Namespaces

/-!
# What is handed out in any surroundings

A generation does not know where its units go and who cancels it. It runs in any monad whose steps
can be run one after the other, and whatever its channel answers there, it hands out units of
different namespaces, in the order of the model, and perhaps the root unit behind them. What a
channel keeps true at each unit is true of all units in the end: of the units that were noted, of
the files that were written, and of the folder they were written to.
-/

namespace RadioBroker

/-! ## Runs -/

/-- A way to run what happens in a monad, from one state of the surroundings to the next. -/
structure Runner (m : Type → Type) [Monad m] (σ : Type) where
  run : {α : Type} → m α → σ → α × σ
  run_pure : ∀ {α : Type} (value : α) (state : σ), run (pure value) state = (value, state)
  run_bind : ∀ {α β : Type} (step : m α) (next : α → m β) (state : σ),
    run (step >>= next) state = run (next (run step state).1) (run step state).2

namespace Runner

/-- Steps that are functions of a state are run as they are. -/
def ofStateM (σ : Type) : Runner (StateM σ) σ where
  run step state := step.run state
  run_pure _ _ := rfl
  run_bind _ _ _ := rfl

/-- Steps with a state of their own are run from both states. -/
def withState {m : Type → Type} [Monad m] {σ : Type} (κ : Type) (runner : Runner m σ) :
    Runner (StateT κ m) (κ × σ) where
  run step state :=
    let after := runner.run (step.run state.1) state.2
    (after.1.1, after.1.2, after.2)
  run_pure value state := by
    have hpure := runner.run_pure (value, state.1) state.2
    exact congrArg (fun after => (after.1.1, after.1.2, after.2)) hpure
  run_bind step next state := by
    have hbind :=
      runner.run_bind (step.run state.1) (fun after => (next after.1).run after.2) state.2
    exact congrArg (fun after => (after.1.1, after.1.2, after.2)) hbind

end Runner

/-! ## Channels -/

/-- The units of some namespaces, and perhaps the root unit behind them. -/
def NamedFor (names : List String) (units : List GeneratedUnit) : Prop :=
  units.map GeneratedUnit.hintName = names.map Naming.unitName ∨
    units.map GeneratedUnit.hintName = names.map Naming.unitName ++ [Naming.rootUnitName]

namespace Channel

variable {m : Type → Type} [Monad m] {σ α β : Type} {channel : Channel m} {runner : Runner m σ}
  {Inv : List GeneratedUnit → σ → Prop}

/-- A channel keeps it true of the units it has been handed, whether it takes them or not. -/
structure Keeps (channel : Channel m) (runner : Runner m σ)
    (Inv : List GeneratedUnit → σ → Prop) : Prop where
  emit : ∀ {units state} (unit : GeneratedUnit), Inv units state →
    Inv (units ++ [unit]) (runner.run (channel.emit unit) state).2
  cancelled : ∀ {units state}, Inv units state → Inv units (runner.run channel.cancelled state).2

/-- A step of a generation hands out units of a kind, and what is kept is true of them too. -/
def Hands (runner : Runner m σ) (Inv : List GeneratedUnit → σ → Prop)
    (step : ExceptT GenerateError m α)
    (Kind : Except GenerateError α → List GeneratedUnit → Prop) : Prop :=
  ∀ units state, Inv units state → ∃ more, Kind (runner.run step.run state).1 more ∧
    Inv (units ++ more) (runner.run step.run state).2

/-- Steps of a generation hand out one after the other. -/
theorem Hands.bind {step : ExceptT GenerateError m α} {next : α → ExceptT GenerateError m β}
    {First : Except GenerateError α → List GeneratedUnit → Prop}
    {Kind : Except GenerateError β → List GeneratedUnit → Prop}
    (hstep : Hands runner Inv step First)
    (herror : ∀ error units, First (.error error) units → Kind (.error error) units)
    (hok : ∀ value units, First (.ok value) units →
      Hands runner Inv (next value) fun result more => Kind result (units ++ more)) :
    Hands runner Inv (step >>= next) Kind := by
  intro units state hinv
  obtain ⟨more, hfirst, hmore⟩ := hstep units state hinv
  rw [ExceptT.run_bind, runner.run_bind]
  cases hresult : (runner.run step.run state).1 with
  | error error =>
      rw [hresult] at hfirst
      simp only [runner.run_pure]
      exact ⟨more, herror error more hfirst, hmore⟩
  | ok value =>
      rw [hresult] at hfirst
      obtain ⟨others, hkind, hothers⟩ := hok value more hfirst _ _ hmore
      rw [List.append_assoc] at hothers
      exact ⟨more ++ others, hkind, hothers⟩

/-- A step that only gives a value hands out nothing. -/
theorem hands_pure {result : Except GenerateError α}
    {Kind : Except GenerateError α → List GeneratedUnit → Prop} (h : Kind result []) :
    Hands runner Inv (ExceptT.mk (pure result)) Kind := by
  intro units state hinv
  refine ⟨[], ?_, ?_⟩
  · rwa [ExceptT.run_mk, runner.run_pure]
  · rwa [ExceptT.run_mk, runner.run_pure, List.append_nil]

/-- A step of the synthesis hands out nothing. -/
theorem hands_lift (result : Except SynthesisError α) :
    Hands runner Inv (@lift m _ _ result) fun _ units => units = [] := by
  cases result with
  | error error => exact hands_pure rfl
  | ok value => exact hands_pure rfl

variable [LawfulMonad m]

/-- What the channel does is a step that hands out what the channel is handed. -/
theorem hands_monadLift {step : m α} {handed : List GeneratedUnit}
    (h : ∀ {units state}, Inv units state → Inv (units ++ handed) (runner.run step state).2) :
    Hands runner Inv (liftM step) fun _ units => units = handed := by
  intro units state hinv
  refine ⟨handed, rfl, ?_⟩
  have hrun :
      (liftM step : ExceptT GenerateError m α).run = step >>= fun value => pure (.ok value) :=
    map_eq_pure_bind _ _
  rw [hrun, runner.run_bind, runner.run_pure]
  exact h hinv

/-- Looking whether the generation is cancelled hands out nothing. -/
theorem Keeps.hands_checkpoint (h : channel.Keeps runner Inv) :
    Hands runner Inv channel.checkpoint fun _ units => units = [] := by
  refine (hands_monadLift ?_).bind (fun _ _ hnone => hnone) ?_
  · intro units state hinv
    rw [List.append_nil]
    exact h.cancelled hinv
  · rintro cancelled _ rfl
    cases cancelled with
    | true => exact hands_pure rfl
    | false => exact hands_pure rfl

/-- Visiting the roots of a namespace hands out nothing. -/
theorem Keeps.hands_yieldRoots (h : channel.Keeps runner Inv) (model : ServiceModel)
    (yielded : ServiceModel.Yield) (roots : List TypeId) :
    Hands runner Inv (channel.yieldRoots model yielded roots) fun _ units => units = [] := by
  induction roots generalizing yielded with
  | nil => exact hands_pure rfl
  | cons root roots ih =>
      rw [yieldRoots]
      refine h.hands_checkpoint.bind (fun _ _ hnone => hnone) ?_
      rintro _ _ rfl
      refine (hands_lift _).bind (fun _ _ hnone => hnone) ?_
      rintro extended _ rfl
      exact ih extended

/-- One unit is handed out at a time. -/
theorem Keeps.hands_send (h : channel.Keeps runner Inv) (unit : GeneratedUnit) :
    Hands runner Inv (channel.send unit) fun _ units => units = [unit] := by
  refine (hands_monadLift (h.emit unit)).bind (fun _ _ hone => hone) ?_
  rintro answer _ rfl
  cases answer with
  | ok _ => exact hands_pure rfl
  | error error => exact hands_pure rfl

/-- The units of namespaces are handed out in the order of the namespaces, where they have
content. -/
theorem Keeps.hands_sendNamespaces (h : channel.Keeps runner Inv) (model : ServiceModel)
    (entries : List (String × List TypeId)) (withRoutine : List TypeId) (emitted : Nat) :
    Hands runner Inv (channel.sendNamespaces model withRoutine emitted entries) fun _ units =>
      ∃ names : List String, names.Sublist (entries.map Prod.fst) ∧
        units.map GeneratedUnit.hintName = names.map Naming.unitName := by
  induction entries generalizing withRoutine emitted with
  | nil => exact hands_pure ⟨[], List.Sublist.refl _, rfl⟩
  | cons entry entries ih =>
      obtain ⟨name, roots⟩ := entry
      rw [sendNamespaces]
      have hnone : ∀ units : List GeneratedUnit, units = [] →
          ∃ names : List String, names.Sublist (((name, roots) :: entries).map Prod.fst) ∧
            units.map GeneratedUnit.hintName = names.map Naming.unitName := by
        rintro _ rfl
        exact ⟨[], List.nil_sublist _, rfl⟩
      refine h.hands_checkpoint.bind (fun _ => hnone) ?_
      rintro _ _ rfl
      refine (h.hands_yieldRoots model _ roots).bind (fun _ => hnone) ?_
      rintro yielded _ rfl
      split
      · intro units state hinv
        obtain ⟨more, ⟨names, hnames, hmore⟩, hafter⟩ :=
          ih yielded.withRoutine emitted units state hinv
        exact ⟨more, ⟨names, hnames.trans (List.sublist_cons_self _ _), hmore⟩, hafter⟩
      · refine (h.hands_send _).bind ?_ ?_
        · rintro _ _ rfl
          exact ⟨[name], (List.nil_sublist _).cons_cons _, rfl⟩
        · rintro _ _ rfl units state hinv
          obtain ⟨more, ⟨names, hnames, hmore⟩, hafter⟩ :=
            ih yielded.withRoutine (emitted + 1) units state hinv
          exact ⟨more, ⟨name :: names, hnames.cons_cons _, congrArg (_ :: ·) hmore⟩, hafter⟩

/-- The root unit is handed out behind the units of namespaces, if at all. -/
theorem Keeps.hands_sendAll (h : channel.Keeps runner Inv) (model : ServiceModel)
    (settings : Settings) :
    Hands runner Inv (channel.sendAll model settings) fun _ units =>
      ∃ names : List String,
        names.Sublist (model.namespaces.map Prod.fst) ∧ NamedFor names units := by
  rw [sendAll]
  refine (h.hands_sendNamespaces model _ _ _).bind ?_ ?_
  · rintro _ units ⟨names, hnames, hunits⟩
    exact ⟨names, hnames, Or.inl hunits⟩
  · rintro ⟨withRoutine, emitted⟩ units ⟨names, hnames, hunits⟩
    refine (hands_lift _).bind ?_ ?_
    · rintro _ _ rfl
      exact ⟨names, hnames, Or.inl (by rw [List.append_nil, hunits])⟩
    · rintro root _ rfl
      have hroot : (units ++ ([] ++ [GeneratedUnit.ofRoot root settings.hook])).map
          GeneratedUnit.hintName = names.map Naming.unitName ++ [Naming.rootUnitName] := by
        rw [List.nil_append, List.map_append, hunits]
        rfl
      refine (h.hands_send _).bind ?_ ?_
      · rintro _ _ rfl
        exact ⟨names, hnames, Or.inr hroot⟩
      · rintro _ _ rfl
        refine hands_pure ⟨names, hnames, Or.inr ?_⟩
        rwa [List.append_nil]

/-- The namespaces of the model that declarations are prepared to. -/
def preparedNamespaces (declarations : List Declaration) : List String :=
  match TypeGraph.build declarations with
  | .error _ => []
  | .ok graph => ((ServiceModel.ofGraph graph).prepare .empty).model.namespaces.map Prod.fst

/-- A generation hands out the units of namespaces of its model, each of them once. -/
theorem Keeps.generate (h : channel.Keeps runner Inv) (settings : Settings)
    (declarations : List Declaration) {state : σ} (hstart : Inv [] state) :
    ∃ names units, names.Sublist (preparedNamespaces declarations) ∧ NamedFor names units ∧
      Inv units (runner.run (channel.generate settings declarations) state).2 := by
  rw [Channel.generate, generateWith, preparedNamespaces]
  have hnone : NamedFor [] [] := Or.inl rfl
  cases TypeGraph.build declarations with
  | error error => exact ⟨[], [], List.nil_sublist _, hnone, by rwa [runner.run_pure]⟩
  | ok graph =>
      have hasked := h.cancelled hstart
      dsimp only
      rw [runner.run_bind]
      split
      · exact ⟨[], [], List.nil_sublist _, hnone, by rwa [runner.run_pure]⟩
      · split
        · exact ⟨[], [], List.nil_sublist _, hnone, by rwa [runner.run_pure]⟩
        · obtain ⟨units, ⟨names, hnames, hunits⟩, hafter⟩ := h.hands_sendAll
            ((ServiceModel.ofGraph graph).prepare .empty).model
            (settings.mergeDeclarations declarations) [] _ hasked
          refine ⟨names, units, hnames, hunits, ?_⟩
          rwa [runner.run_bind, runner.run_pure]

end Channel

/-! ## Channels that note what they are handed -/

/-- The channel that keeps, besides, all units that it is handed. -/
def Channel.noting {m : Type → Type} [Monad m] (channel : Channel m) :
    Channel (StateT (List GeneratedUnit) m) where
  emit unit := do
    modify (· ++ [unit])
    StateT.lift (channel.emit unit)
  cancelled := StateT.lift channel.cancelled

namespace Channel

variable {m : Type → Type} [Monad m] {σ : Type} {channel : Channel m} {runner : Runner m σ}
  {Inv : List GeneratedUnit → σ → Prop}

/-- What is done in the surroundings leaves a state beside them as it is. -/
theorem run_stateTLift {κ α : Type} (step : m α) (kept : κ) (state : σ) :
    (runner.withState κ).run (StateT.lift step) (kept, state) =
      ((runner.run step state).1, kept, (runner.run step state).2) := by
  have hrun :
      (StateT.lift step : StateT κ m α).run kept = step >>= fun value => pure (value, kept) :=
    rfl
  simp only [Runner.withState, hrun, runner.run_bind, runner.run_pure]

/-- A state beside the surroundings is changed, and they stay as they are. -/
theorem run_modify {κ : Type} (change : κ → κ) (kept : κ) (state : σ) :
    (runner.withState κ).run (modify change) (kept, state) = ((), change kept, state) := by
  have hrun : (modify change : StateT κ m Unit).run kept = pure ((), change kept) := rfl
  simp only [Runner.withState, hrun, runner.run_pure]

/-- What a channel keeps true, it keeps true of the units that are noted. -/
theorem Keeps.noting (h : channel.Keeps runner Inv) :
    channel.noting.Keeps (runner.withState _)
      fun units state => state.1 = units ∧ Inv units state.2 where
  emit {units state} unit hinv := by
    obtain ⟨noted, state⟩ := state
    obtain ⟨rfl, hinv⟩ := hinv
    rw [Channel.noting, Runner.run_bind, run_modify, run_stateTLift]
    exact ⟨rfl, h.emit unit hinv⟩
  cancelled {units state} hinv := by
    obtain ⟨noted, state⟩ := state
    rw [Channel.noting, run_stateTLift]
    exact ⟨hinv.1, h.cancelled hinv.2⟩

/-- Every channel notes what it is handed. -/
theorem keeps_true (channel : Channel m) (runner : Runner m σ) :
    channel.Keeps runner fun _ _ => True where
  emit _ _ := trivial
  cancelled _ := trivial

/-! ## Channels that write files -/

section Files

variable [FileAccess m] {folder : String} {cancelled : m Bool}

/-- The path that a unit is written to. -/
def pathIn (folder : String) (unit : GeneratedUnit) : String := Path.join folder unit.fileName

/-- A unit is written to its path, and the path is kept if that can be done. -/
theorem run_writing_emit (unit : GeneratedUnit) (files : List String) (state : σ) :
    ((runner.withState _).run ((writing folder cancelled).emit unit) (files, state)).2 =
      (if (runner.run (FileAccess.write (pathIn folder unit) unit.source) state).1 then
          files ++ [pathIn folder unit] else files,
        (runner.run (FileAccess.write (pathIn folder unit) unit.source) state).2) := by
  rw [writing]
  dsimp only
  rw [Runner.run_bind, run_stateTLift]
  show (Runner.run _
    (if (runner.run (FileAccess.write (pathIn folder unit) unit.source) state).1 then
    _ else _) _).2 = _
  cases (runner.run (FileAccess.write (pathIn folder unit) unit.source) state).1 with
  | true =>
      rw [if_pos rfl, Runner.run_bind, run_modify, Runner.run_pure]
      rfl
  | false =>
      rw [if_neg Bool.false_ne_true, Runner.run_pure]
      rfl

/-- The paths of a channel that writes files are those of units that it was handed. -/
theorem keeps_writing (runner : Runner m σ) :
    (writing folder cancelled).Keeps (runner.withState _) fun units state =>
      ∃ written : List GeneratedUnit,
        written.Sublist units ∧ state.1 = written.map (pathIn folder) where
  emit {units state} unit hinv := by
    obtain ⟨files, state⟩ := state
    obtain ⟨written, hwritten, rfl⟩ := hinv
    rw [run_writing_emit]
    split
    · exact ⟨written ++ [unit], hwritten.append (List.Sublist.refl _), by simp⟩
    · exact ⟨written, hwritten.trans (List.sublist_append_left _ _), rfl⟩
  cancelled {units state} hinv := by
    obtain ⟨files, state⟩ := state
    rw [writing, run_stateTLift]
    exact hinv

end Files

/-- Whether a folder holds the units that were written to it, as long as they have different files
and no file is in another folder. -/
def HoldsUnits (folder : String) (units written : List GeneratedUnit) (tree : FileTree) : Prop :=
  (units.map GeneratedUnit.fileName).Nodup →
    (∀ unit ∈ units, Path.IsFileName unit.fileName) →
    ∀ unit ∈ written, tree.Holds folder unit.fileName unit.source

/-- What is written to a folder of a tree stays there. -/
theorem keeps_writing_tree {folder : String} (isCancelled : FileTree → Bool) :
    (writing folder (do pure (isCancelled (← get)))).Keeps
      ((Runner.ofStateM FileTree).withState (List String)) fun units state =>
        ∃ written : List GeneratedUnit,
          written.Sublist units ∧ state.1 = written.map (pathIn folder) ∧
          HoldsUnits folder units written state.2 where
  emit {units state} unit hinv := by
    obtain ⟨files, tree⟩ := state
    obtain ⟨written, hwritten, rfl, hholds⟩ := hinv
    rw [run_writing_emit]
    have hwrite : (Runner.ofStateM FileTree).run (FileAccess.write (pathIn folder unit) unit.source)
        tree = FileTree.commit (tree.write? (pathIn folder unit) unit.source) tree := rfl
    rw [hwrite]
    -- The units before have other files than the one that is written.
    have hbefore : ∀ {next : FileTree},
        (∀ other ∈ written, other.fileName ≠ unit.fileName → Path.IsFileName unit.fileName →
          tree.Holds folder other.fileName other.source →
          next.Holds folder other.fileName other.source) →
        HoldsUnits folder (units ++ [unit]) written next := by
      intro next hkept hnodup hnames other hother
      rw [List.map_append, List.map_singleton, List.nodup_append] at hnodup
      have hne := hnodup.2.2 _ (List.mem_map_of_mem (hwritten.subset hother)) _
        (List.mem_singleton_self _)
      refine hkept other hother hne (hnames unit (by simp)) ?_
      exact hholds hnodup.1 (fun _ hmem => hnames _ (List.mem_append_left _ hmem)) other hother
    cases hnext : tree.write? (pathIn folder unit) unit.source with
    | none =>
        exact ⟨written, hwritten.trans (List.sublist_append_left _ _), rfl,
          hbefore fun _ _ _ _ hheld => hheld⟩
    | some next =>
        refine ⟨written ++ [unit], hwritten.append (List.Sublist.refl _),
          by simp [FileTree.commit], ?_⟩
        intro hnodup hnames
        have hname := hnames unit (by simp)
        refine List.forall_mem_append.mpr ⟨?_, List.forall_mem_singleton.mpr ?_⟩
        · exact hbefore (fun other _ hne hname hheld => hheld.write? hname hne hnext) hnodup hnames
        · exact (FileTree.put_of_write? hname hnext).1
  cancelled {units state} hinv := by
    obtain ⟨files, state⟩ := state
    rw [writing, run_stateTLift]
    exact hinv

end Channel

/-! ## Generations that are noted -/

/-- The units that a generation hands out through a channel, whatever becomes of them, and the
surroundings it leaves. -/
def Channel.noted {m : Type → Type} [Monad m] {σ : Type} (channel : Channel m) (runner : Runner m σ)
    (start : σ) (settings : Settings) (declarations : List Declaration) : List GeneratedUnit × σ :=
  ((runner.withState _).run (channel.noting.generate settings declarations) ([], start)).2

/-- The units that are noted are those of namespaces of the model, each of them once, and what the
channel keeps true is true of them. -/
theorem Channel.Keeps.noted {m : Type → Type} [Monad m] [LawfulMonad m] {σ : Type}
    {channel : Channel m} {runner : Runner m σ} {Inv : List GeneratedUnit → σ → Prop}
    (h : channel.Keeps runner Inv) (settings : Settings) (declarations : List Declaration)
    (start : σ) (hstart : Inv [] start) :
    ∃ names, names.Sublist (Channel.preparedNamespaces declarations) ∧
      NamedFor names (channel.noted runner start settings declarations).1 ∧
      Inv (channel.noted runner start settings declarations).1
        (channel.noted runner start settings declarations).2 := by
  let first : List GeneratedUnit × σ := ([], start)
  have hfirst : first.1 = [] ∧ Inv [] first.2 := ⟨rfl, hstart⟩
  obtain ⟨names, units, hnames, hunits, hnoted, hinv⟩ :=
    h.noting.generate settings declarations hfirst
  have hhanded : (channel.noted runner start settings declarations).1 = units := hnoted
  rw [hhanded]
  exact ⟨names, hnames, hunits, hinv⟩

/-- The namespaces of a model are different. -/
theorem nodup_preparedNamespaces (declarations : List Declaration) :
    (Channel.preparedNamespaces declarations).Nodup := by
  rw [Channel.preparedNamespaces]
  split
  · exact List.nodup_nil
  · rw [ServiceModel.namespaces, List.map_map]
    simpa [Function.comp_def] using nodup_eraseDups _

end RadioBroker
