import RadioBroker.Files.Tree
import RadioBroker.Proofs.Text.Segment

/-!
# Files of one folder

What is written to a file is read back from it, and stays there while files of other names are
written to the same folder. Neither is said of a path in general: it may go up and down again and
reach the file of another path. The files of one folder are told apart by their names.
-/

namespace RadioBroker

/-! ## Components of paths -/

namespace Path

/-- A text that can be the name of a file in a folder. -/
structure IsFileName (name : String) : Prop where
  noSlash : '/' ∉ name.toList
  ne_empty : name ≠ ""
  ne_dot : name ≠ "."
  ne_up : name ≠ ".."

variable {folder name : String}

/-- The components of a text are those of the pieces between its slashes. -/
theorem components_eq (path : String) :
    components path = ((path.toList.splitOn '/').map String.ofList).filter
      fun component => component ≠ "." && component ≠ "" := by
  rw [components, segments, List.filter_filter]

/-- The name of a file is its only component. -/
theorem IsFileName.filter_components (h : IsFileName name) :
    ((name.toList.splitOn '/').map String.ofList).filter
      (fun component => component ≠ "." && component ≠ "") = [name] := by
  rw [List.splitOn_eq_singleton h.noSlash]
  simp [h.ne_empty, h.ne_dot]

/-- The path of a file in a folder ends with the name of the file. -/
theorem components_join (h : IsFileName name) :
    components (join folder name) = components folder ++ [name] := by
  have hrelative : isAbsolute name = false := by
    rw [isAbsolute, decide_eq_false_iff_not]
    intro hhead
    exact h.noSlash (List.mem_of_mem_head? hhead)
  simp only [components_eq]
  rw [join, if_neg (by rw [hrelative]; exact Bool.false_ne_true), ← h.filter_components,
    ← List.filter_append, ← List.map_append]
  split
  · rename_i hlast
    rw [Bool.or_eq_true, decide_eq_true_eq, decide_eq_true_eq] at hlast
    rcases hlast with rfl | hlast
    · simp
    · -- The slash behind the folder is there already; it has an empty piece behind it.
      obtain ⟨front, hfront⟩ := List.getLast?_eq_some_iff.mp hlast
      rw [String.toList_append, hfront, List.append_assoc, List.singleton_append,
        List.splitOn_append_cons_self, List.splitOn_append_cons_self]
      simp
  · rw [String.toList_append, String.toList_append]
    have hslash : "/".toList = ['/'] := rfl
    rw [hslash, List.append_assoc, List.singleton_append, List.splitOn_append_cons_self]

/-- Relative paths are told apart below a folder. -/
theorem eq_of_join_eq {first second : String} (hfirst : isAbsolute first = false)
    (hsecond : isAbsolute second = false) (h : join folder first = join folder second) :
    first = second := by
  simp only [join, hfirst, hsecond, Bool.false_eq_true, if_false] at h
  split at h
  · exact (String.append_right_inj _).mp h
  · exact (String.append_right_inj _).mp h

end Path

namespace FileTree

variable {tree after : FileTree} {place : List String} {entry : FileEntry}

/-! ## Entries -/

/-- An entry is put at its place. -/
theorem lookup_put_self (hplace : (place = root || isAround place) = false) :
    FileTree.entry? (tree.put place entry) place = some entry := by
  rw [ entry?, if_neg (by rw [hplace]; exact Bool.false_ne_true), put, List.lookup_append,
    List.lookup_eq_none_iff.mpr ?_]
  · simp
  · intro other hother
    have hne := (List.mem_filter.mp hother).2
    simpa using Ne.symm (of_decide_eq_true hne)

/-- No place lies in itself. -/
theorem place_ne_concat {place : List String} {name : String} : place ≠ place ++ [name] := by
  intro h
  have hlength := congrArg List.length h
  rw [List.length_append, List.length_singleton] at hlength
  omega

/-- The entries of other places stay. -/
theorem lookup_put_of_ne {other : List String} (h : other ≠ place) :
    FileTree.entry? (tree.put place entry) other = tree.entry? other := by
  have hkept : (tree.entries.filter fun entry => entry.1 ≠ place).lookup other =
      tree.entries.lookup other := by
    induction tree.entries with
    | nil => rfl
    | cons first entries ih =>
        obtain ⟨key, value⟩ := first
        by_cases hkey : key = place
        · subst hkey
          rw [List.filter_cons_of_neg (by simp), ih, List.lookup_cons, beq_false_of_ne h]
        · rw [List.filter_cons_of_pos (by simpa using hkey), List.lookup_cons, List.lookup_cons, ih]
  rw [ entry?, entry?, put, List.lookup_append, hkept]
  simp [List.lookup_cons, beq_false_of_ne h]

/-! ## Ways to folders -/

/-- A file is at no place around the working folder. -/
theorem not_around_of_isFileName {name : String} (h : Path.IsFileName name) (place : List String) :
    (place ++ [name] = root || isAround (place ++ [name])) = false := by
  rw [Bool.or_eq_false_iff, decide_eq_false_iff_not]
  constructor
  · intro hroot
    have hlast := congrArg List.getLast? hroot
    rw [List.getLast?_concat] at hlast
    cases hlast
    exact h.noSlash (by decide)
  · rw [isAround, List.all_append]
    simp [h.ne_up]

/-- A way down leads through a folder. -/
theorem walk_down {start rest : List String} {component : String} (hup : component ≠ "..")
    (hname : isName component = true) (hnext : tree.entry? (start ++ [component]) = some .folder) :
    tree.walk start (component :: rest) = tree.walk (start ++ [component]) rest := by
  rw [walk, if_neg hup, if_neg (by simp [hname])]
  simp [hnext]

/-- The first step of a way to a folder leads up, or down to a folder. -/
theorem cases_of_walk {start rest folder : List String} {component : String}
    (h : tree.walk start (component :: rest) = .ok folder)
    (hfolder : tree.entry? folder = some .folder) :
    (component = ".." ∧ tree.walk (outer start) rest = .ok folder) ∨
      (component ≠ ".." ∧ isName component = true ∧
        tree.entry? (start ++ [component]) = some .folder ∧
        tree.walk (start ++ [component]) rest = .ok folder) := by
  rw [walk] at h
  split at h
  · rename_i hup
    exact Or.inl ⟨hup, h⟩
  · rename_i hup
    split at h
    · cases h
    · rename_i hname
      dsimp only at h
      split at h
      · cases h
      · rename_i hfile
        split at h
        · cases h
          rw [hfile] at hfolder
          cases hfolder
        · cases h
      · rename_i hnext
        exact Or.inr ⟨hup, by simpa using hname, hnext, h⟩

/-- A way to a folder can be gone on. -/
theorem walk_append {start folder front rest : List String} (h : tree.walk start front = .ok folder)
    (hfolder : tree.entry? folder = some .folder) :
    tree.walk start (front ++ rest) = tree.walk folder rest := by
  induction front generalizing start with
  | nil =>
      cases h
      rfl
  | cons component front ih =>
      rw [List.cons_append]
      obtain ⟨rfl, hrest⟩ | ⟨hup, hname, hnext, hrest⟩ := cases_of_walk h hfolder
      · exact ih hrest
      · rw [walk_down hup hname hnext]
        exact ih hrest

/-- The ways to folders stay where an entry is put that was no folder. -/
theorem walk_put {start folder front : List String} (h : tree.walk start front = .ok folder)
    (hfolder : tree.entry? folder = some .folder) (hplace : tree.entry? place ≠ some .folder) :
    (tree.put place entry).walk start front = .ok folder := by
  induction front generalizing start with
  | nil => exact h
  | cons component front ih =>
      obtain ⟨rfl, hrest⟩ | ⟨hup, hname, hnext, hrest⟩ := cases_of_walk h hfolder
      · exact ih hrest
      · have hne : start ++ [component] ≠ place := by
          rintro rfl
          exact hplace hnext
        rw [walk_down hup hname ((lookup_put_of_ne hne).trans hnext)]
        exact ih hrest

/-! ## Reading what is written -/

/-- A folder holds a text in the file of a name, and the path of the file can be followed. -/
structure Holds (tree : FileTree) (folder name text : String) : Prop where
  held : ∃ place, tree.walk [] (Path.components folder) = .ok place ∧
    tree.entry? place = some .folder ∧ tree.entry? (place ++ [name]) = some (.file text)
  isPath : isPath (Path.join folder name) = true
  ne_empty : Path.join folder name ≠ ""
  relative : Path.isAbsolute (Path.join folder name) = false
  isFile : meansFolder (Path.join folder name) = false
  isName : isName name = true

variable {folder name text : String}

/-- What a folder holds is read from its path. -/
theorem Holds.read? (h : tree.Holds folder name text) (hname : Path.IsFileName name) :
    tree.read? (Path.join folder name) = some text := by
  obtain ⟨place, hwalk, hfolder, hfile⟩ := h.held
  have hplace :
      tree.walk (start (Path.join folder name)) (Path.components (Path.join folder name)) =
      .ok (place ++ [name]) := by
    rw [start, if_neg (by rw [h.relative]; exact Bool.false_ne_true), Path.components_join hname,
      walk_append hwalk hfolder, walk, if_neg hname.ne_up, if_neg (by simp [h.isName])]
    simp [hfile]
  have hlocate : tree.locate (Path.join folder name) = .ok (place ++ [name], .file text) := by
    rw [locate, if_neg (by simp [h.isPath]), if_neg h.ne_empty]
    simp [hplace, bind, Except.bind, hfile, h.isFile]
  simp [FileTree.read?, hlocate]

/-- What a write does that succeeds: the folder is there, and the file is put into it. -/
theorem put_of_write? (hname : Path.IsFileName name)
    (h : tree.write? (Path.join folder name) text = some after) :
    after.Holds folder name text ∧ ∃ place, tree.walk [] (Path.components folder) = .ok place ∧
      tree.entry? place = some .folder ∧ tree.entry? (place ++ [name]) ≠ some .folder ∧
      after = tree.put (place ++ [name]) (.file text) := by
  unfold FileTree.write? at h
  split at h
  · cases h
  · rename_i hpath
    rw [Path.components_join hname, List.reverse_concat] at h
    simp only [Bool.or_eq_true, Bool.not_eq_true', decide_eq_true_eq, not_or, Bool.not_eq_true,
      Bool.not_eq_false] at hpath
    obtain ⟨⟨⟨hisPath, hne⟩, hrelative⟩, hisFile⟩ := hpath
    split at h
    · cases h
    · rename_i hcomponents
      obtain ⟨rfl, rfl⟩ := List.cons.inj hcomponents
      rw [List.reverse_reverse] at h
      split at h
      · cases h
      · rename_i hvalid
        simp only [Bool.or_eq_true, Bool.not_eq_true', decide_eq_true_eq, not_or,
          Bool.not_eq_false] at hvalid
        split at h
        · cases h
        · rename_i place hwalk
          split at h
          · cases h
          · rename_i hfolder hfile
            cases h
            refine ⟨⟨⟨place, walk_put hwalk hfolder hfile, ?_, ?_⟩, hisPath, hne, hrelative,
              hisFile, hvalid.2⟩, place, hwalk, hfolder, hfile, rfl⟩
            · rw [lookup_put_of_ne place_ne_concat]
              exact hfolder
            · exact lookup_put_self (not_around_of_isFileName hname place)
          · cases h

/-- A file stays as it is when a file of another name is written to its folder. -/
theorem Holds.write? {other more : String} (h : tree.Holds folder name text)
    (hother : Path.IsFileName other) (hne : name ≠ other)
    (hwrite : tree.write? (Path.join folder other) more = some after) :
    after.Holds folder name text := by
  obtain ⟨_, place, hwalk, hfolder, hfile, rfl⟩ := put_of_write? hother hwrite
  obtain ⟨_, hwalk', _, hheld⟩ := h.held
  obtain rfl := Except.ok.inj (hwalk.symm.trans hwalk')
  refine { h with held := ⟨place, walk_put hwalk hfolder hfile, ?_, ?_⟩ }
  · rw [lookup_put_of_ne place_ne_concat]
    exact hfolder
  · rw [lookup_put_of_ne, hheld]
    simpa using hne

end FileTree

end RadioBroker
