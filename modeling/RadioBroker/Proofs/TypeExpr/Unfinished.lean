import RadioBroker.Proofs.TypeExpr.Grammar

/-!
# Texts that end too early

A text that ends too early stops where a type is expected, in a tuple, in an array rank, or behind a
whole type inside an argument list. What is reported there depends on the innermost place only, and
each such text can be completed. Where a type is expected no bracket is reported, also if one is
open. -/

namespace RadioBroker.TypeExpr

open Text (skipBlanks skipBlanks_cons isBlank IsBlanks)

/-! ## Unfinished texts -/

/-- Whether a failure says that a text ends too early. -/
def Failure.IsEarly : Failure → Prop
  | unexpected _ _ => False
  | missing | unclosed _ _ => True

/-- A head with blanks around it. -/
def Headed (text : List Char) : Prop :=
  ∃ before head behind, IsBlanks before ∧ (IsName head ∨ IsTuple head) ∧ IsBlanks behind ∧
    text = before ++ (head ++ behind)

/-- Types with a comma behind each of them. -/
inductive Listed : List Char → Prop
  | nil : Listed []
  | cons {text blanks rest : List Char} {t : TypeExpr} (htype : Derives text t)
      (hblanks : IsBlanks blanks) (hrest : Listed rest) : Listed (text ++ (blanks ++ ',' :: rest))

/-- A text behind which a type is expected: the argument lists that are open there, the outermost
first, each with the head that it belongs to and the types that stand in it. -/
inductive Awaits : List Char → Prop
  | start : Awaits []
  | inside {head list front : List Char} (hhead : Headed head) (hlist : Listed list)
      (hrest : Awaits front) : Awaits (head ++ '<' :: (list ++ front))

/-- A text behind which an argument list may be opened. -/
def Opened (text : List Char) : Prop :=
  ∃ front head, Awaits front ∧ Headed head ∧ text = front ++ head

/-- `Cut text failure`: the start of a type up to which no inner type is unfinished, and what is
reported where it ends. -/
inductive Cut : List Char → Failure → Prop
  | missing {blanks : List Char} (hblanks : IsBlanks blanks) : Cut blanks .missing
  | tuple {blanks inner more : List Char} (hblanks : IsBlanks blanks)
      (htuple : IsTuple ('(' :: (inner ++ more))) (hmore : more ≠ []) :
      Cut (blanks ++ '(' :: inner) (.unclosed '(' inner)
  | rank {text inner : List Char} {t : TypeExpr} (htype : Derives text t)
      (hinner : ∀ c ∈ inner, c = ',' ∨ isBlank c = true) :
      Cut (text ++ '[' :: inner) (.unclosed '[' inner)
  | list {head inside : List Char} {ts : List TypeExpr} (hhead : Headed head)
      (hlist : DerivesList inside ts) : Cut (head ++ '<' :: inside) (.unclosed '<' inside)

/-! ## Where a reader stops at the end -/

/-- A tuple that is not closed is the start of one that is. -/
theorem exists_closes_of_readTuple {depth : Nat} {cs : List Char} (h : readTuple depth cs = none) :
    ∃ more, more ≠ [] ∧ closes depth (cs ++ more) = true := by
  induction cs generalizing depth with
  | nil =>
      refine ⟨List.replicate (depth + 1) ')', List.cons_ne_nil _ _, ?_⟩
      induction depth with
      | zero => rfl
      | succ depth ih => exact ih rfl
  | cons c cs ih =>
      rw [readTuple_cons] at h
      cases hbehind : depthBehind? depth c with
      | none => simp [hbehind] at h
      | some deeper =>
          rw [hbehind] at h
          dsimp only at h
          split at h
          · rename_i hread
            obtain ⟨more, hmore, hcloses⟩ := ih hread
            refine ⟨more, hmore, ?_⟩
            rw [List.cons_append, closes, hbehind]
            exact hcloses
          · cases h

/-- A text ends too early in a head if it is blank or an open tuple. -/
theorem cut_of_readHead {cs : List Char} {failure : Failure}
    (h : readHead (skipBlanks cs) = .error failure) (hearly : failure.IsEarly) :
    Cut cs failure := by
  obtain ⟨blanks, hblanks, hcs⟩ := Text.exists_blanks cs
  cases hskip : skipBlanks cs with
  | nil =>
      rw [hskip] at h hcs
      cases h
      rw [hcs, List.append_nil]
      exact .missing hblanks
  | cons c after =>
      rw [hskip] at h hcs
      rw [readHead] at h
      split at h
      · rename_i hopening
        subst hopening
        split at h
        · rename_i hread
          cases h
          obtain ⟨more, hmore, hcloses⟩ := exists_closes_of_readTuple hread
          rw [hcs]
          refine .tuple hblanks ?_ hmore
          rcases isHead_iff.mp (.tuple hcloses) with ⟨_, hname, _⟩ | htuple
          · exact absurd (hname '(' (List.mem_cons_self ..)) (by decide +kernel)
          · exact htuple
        · cases h
      · split at h
        · cases h
        · cases h
          exact hearly.elim

/-- A text ends too early in an array rank if all that is left are commas and blanks. -/
theorem eq_unclosed_of_readRank {opened cs : List Char} {failure : Failure}
    (h : readRank opened cs = .error failure) (hearly : failure.IsEarly) :
    failure = .unclosed '[' opened ∧ ∀ c ∈ cs, c = ',' ∨ isBlank c = true := by
  induction cs with
  | nil =>
      cases h
      exact ⟨rfl, nofun⟩
  | cons c cs ih =>
      unfold readRank at h
      split at h
      · cases h
      · split at h
        · rename_i hcomma
          rcases bind_eq_error_iff.mp h with hread | ⟨_, _, hread⟩
          · obtain ⟨hfailure, hcs⟩ := ih hread
            exact ⟨hfailure, List.forall_mem_cons.mpr ⟨Or.inl hcomma, hcs⟩⟩
          · cases hread
        · split at h
          · rename_i hblank
            rcases bind_eq_error_iff.mp h with hread | ⟨_, _, hread⟩
            · obtain ⟨hfailure, hcs⟩ := ih hread
              exact ⟨hfailure, List.forall_mem_cons.mpr ⟨Or.inr hblank, hcs⟩⟩
            · cases hread
          · cases h
            exact hearly.elim

/-- A text ends too early in marks if it ends in an array rank. -/
theorem exists_rank_of_readMarks {cs : List Char} {failure : Failure}
    (h : readMarks cs = .error failure) (hearly : failure.IsEarly) :
    ∃ blanks text marks inner, IsBlanks blanks ∧ DerivesMarks text marks ∧
      (∀ c ∈ inner, c = ',' ∨ isBlank c = true) ∧ cs = blanks ++ (text ++ '[' :: inner) ∧
      failure = .unclosed '[' inner := by
  obtain ⟨length, hlength⟩ : ∃ length, cs.length = length := ⟨_, rfl⟩
  induction length using Nat.strongRecOn generalizing cs with
  | ind length ih =>
      obtain ⟨blanks, hblanks, hcs⟩ := Text.exists_blanks cs
      unfold readMarks at h
      split at h
      · cases h
      · rename_i c after hskip
        have hless : after.length < length := hlength ▸ Text.length_lt_of_skipBlanks hskip
        rw [hskip] at hcs
        split at h
        · rename_i hmark
          rcases bind_eq_error_iff.mp h with hread | ⟨_, _, hread⟩
          · obtain ⟨between, text, marks, inner, hbetween, htext, hinner, hafter, hfailure⟩ :=
              ih _ hless hread rfl
            refine ⟨blanks, [c] ++ (between ++ text), _, inner, hblanks, .cons ?_ hbetween htext,
              hinner, ?_, hfailure⟩
            · rcases hmark with rfl | rfl
              · exact .nullable
              · exact .pointer
            · rw [hcs, hafter]
              simp
          · cases hread
        · split at h
          · rename_i hopening
            subst hopening
            rcases bind_eq_error_iff.mp h with hrank | ⟨⟨rank, behind, hbehind⟩, hrank, hread⟩
            · obtain ⟨hfailure, hinner⟩ := eq_unclosed_of_readRank hrank hearly
              exact ⟨blanks, [], [], after, hblanks, .nil, hinner, hcs, hfailure⟩
            · rcases bind_eq_error_iff.mp hread with hread | ⟨_, _, hread⟩
              · obtain ⟨between, text, marks, inner, hbetween, htext, hinner, hrest, hfailure⟩ :=
                  ih _ (Nat.lt_trans hbehind hless) hread rfl
                obtain ⟨first, hfirst, hfirstText, _⟩ := exists_of_readRank hrank
                refine ⟨blanks, ('[' :: (first ++ [']'])) ++ (between ++ text), _, inner, hblanks,
                  .cons (.rank hfirst) hbetween htext, hinner, ?_, hfailure⟩
                have hafter : after = first ++ ']' :: behind := hfirstText
                rw [hcs, hafter, hrest]
                simp
              · cases hread
          · cases h

/-- A type that ends too early ends in a cut, behind a text that awaits it. -/
def TypeCut (cs : List Char) : Prop :=
  ∀ {failure}, readType cs = .error failure → failure.IsEarly →
    ∃ front text, Awaits front ∧ Cut text failure ∧ cs = front ++ text

/-- A list that ends too early ends in one of its types, or behind one. -/
def ListCut (cs : List Char) : Prop :=
  ∀ {opened failure}, readArgumentList opened cs = .error failure → failure.IsEarly →
    (∃ list front text, Listed list ∧ Awaits front ∧ Cut text failure ∧
      cs = list ++ (front ++ text)) ∨
    ∃ ts, DerivesList cs ts ∧ failure = .unclosed '<' opened

/-- Arguments that end too early are an open list. -/
theorem exists_list_of_readArguments {cs : List Char} {failure : Failure}
    (h : readArguments cs = .error failure) :
    ∃ blanks opened, IsBlanks blanks ∧ cs = blanks ++ '<' :: opened ∧
      readArgumentList opened opened = .error failure := by
  obtain ⟨blanks, hblanks, hcs⟩ := Text.exists_blanks cs
  unfold readArguments at h
  split at h
  · rename_i opened hskip
    rw [hskip] at hcs
    rcases bind_eq_error_iff.mp h with hread | ⟨_, _, hread⟩
    · exact ⟨blanks, opened, hblanks, hcs, hread⟩
    · cases hread
  · cases h

/-- A type ends in a cut if the list behind its head does. -/
theorem typeCut_of_list {cs : List Char}
    (h : ∀ opened : List Char, opened.length < cs.length → ListCut opened) : TypeCut cs := by
  intro failure hread hearly
  obtain ⟨before, hbefore, hcs⟩ := Text.exists_blanks cs
  unfold readType at hread
  rcases bind_eq_error_iff.mp hread with hhead | ⟨⟨head, afterHead, hless⟩, hhead, hread⟩
  · exact ⟨[], cs, .start, cut_of_readHead hhead hearly, rfl⟩
  have hisHead := isHead_iff.mp (isHead_of_readHead hhead)
  have hheadText : skipBlanks cs = head.toList ++ afterHead := eq_append_of_readHead hhead
  rcases bind_eq_error_iff.mp hread with harguments |
    ⟨⟨arguments, afterArguments, _⟩, harguments, hread⟩
  · obtain ⟨behind, opened, hbehind, hafterHead, hlist⟩ := exists_list_of_readArguments harguments
    have hheaded : Headed (before ++ (head.toList ++ behind)) :=
      ⟨before, head.toList, behind, hbefore, hisHead, hbehind, rfl⟩
    have hwhole : cs = (before ++ (head.toList ++ behind)) ++ '<' :: opened := by
      rw [hcs, hheadText, hafterHead]
      simp
    have hopened : opened.length < cs.length := by
      rw [hwhole, List.length_append, List.length_cons]
      omega
    rcases h opened hopened hlist hearly with ⟨list, front, text, hlisted, hfront, hcut, rfl⟩ |
      ⟨ts, hderived, rfl⟩
    · refine ⟨_, text, .inside hheaded hlisted hfront, hcut, ?_⟩
      rw [hwhole]
      simp
    · exact ⟨[], cs, .start, hwhole ▸ .list hheaded hderived, rfl⟩
  · obtain ⟨behind, written, hbehind, hwritten, hafterHead⟩ :=
      (derived_of_read afterHead).2.1 harguments
    rcases bind_eq_error_iff.mp hread with hmarks | ⟨_, _, hread⟩
    · obtain ⟨between, text, marks, inner, hbetween, htext, hinner, hafterArguments, rfl⟩ :=
        exists_rank_of_readMarks hmarks hearly
      have hderived := Derives.type hbefore hisHead hbehind hwritten hbetween htext
      refine ⟨[], cs, .start, ?_, rfl⟩
      have hwhole : cs = (before ++ (head.toList ++ (behind ++ (written ++ (between ++ text))))) ++
          '[' :: inner := by
        have htail : afterHead = behind ++ (written ++ afterArguments) := hafterHead
        rw [hcs, hheadText, htail, hafterArguments]
        simp
      exact hwhole ▸ .rank hderived hinner
    · cases hread

/-- A list ends too early in its first type, behind it, or in the list behind a comma. -/
theorem listCut_of_type {cs : List Char} (htype : TypeCut cs)
    (h : ∀ after : List Char, after.length < cs.length → ListCut after) : ListCut cs := by
  intro opened failure hread hearly
  unfold readArgumentList at hread
  rcases bind_eq_error_iff.mp hread with hfirst | ⟨⟨first, behind, hbehind⟩, hfirst, hread⟩
  · obtain ⟨front, text, hfront, hcut, hcs⟩ := htype hfirst hearly
    exact Or.inl ⟨[], front, text, .nil, hfront, hcut, hcs⟩
  obtain ⟨written, hwritten, hcs, _⟩ := (derived_of_read cs).1 hfirst
  obtain ⟨blanks, hblanks, hbehindText⟩ := Text.exists_blanks behind
  have hwhole : cs = written ++ behind := hcs
  dsimp only at hread
  split at hread
  · rename_i hskip
    cases hread
    rw [hskip, List.append_nil] at hbehindText
    rw [hwhole, hbehindText]
    exact Or.inr ⟨[first], .last hwritten hblanks, rfl⟩
  · rename_i c after hskip
    have hless : after.length < cs.length :=
      Nat.lt_trans (Text.length_lt_of_skipBlanks hskip) hbehind
    rw [hskip] at hbehindText
    split at hread
    · rename_i hcomma
      subst hcomma
      rcases bind_eq_error_iff.mp hread with hlater | ⟨_, _, hread⟩
      · rcases h after hless hlater hearly with ⟨list, front, text, hlisted, hfront, hcut, rfl⟩ |
          ⟨ts, hderived, hfailure⟩
        · refine Or.inl ⟨_, front, text, .cons hwritten hblanks hlisted, hfront, hcut, ?_⟩
          rw [hwhole, hbehindText]
          simp
        · refine Or.inr ⟨first :: ts, ?_, hfailure⟩
          rw [hwhole, hbehindText]
          exact .more hwritten hblanks hderived
      · cases hread
    · split at hread
      · cases hread
      · cases hread
        exact hearly.elim

/-- Types and lists that end too early end in a cut. -/
theorem cut_of_read (cs : List Char) : TypeCut cs ∧ ListCut cs := by
  obtain ⟨length, hlength⟩ : ∃ length, cs.length = length := ⟨_, rfl⟩
  -- A type is searched behind its opening bracket, a list behind its first type.
  induction length using Nat.strongRecOn generalizing cs with
  | ind length ih =>
      subst hlength
      have htype : TypeCut cs := typeCut_of_list fun opened hless => (ih _ hless opened rfl).2
      exact ⟨htype, listCut_of_type htype fun after hless => (ih _ hless after rfl).2⟩

/-! ## What stands in front of a cut -/

/-- A list behind a head is read where the arguments of the head are. -/
theorem Headed.readType {head inside : List Char} {failure : Failure} (hhead : Headed head)
    (hlist : readArgumentList inside inside = .error failure) :
    TypeExpr.readType (head ++ '<' :: inside) = .error failure := by
  obtain ⟨before, name, behind, hbefore, hname, hbehind, rfl⟩ := hhead
  have hisHead := isHead_iff.mpr hname
  have hopening : skipBlanks (behind ++ '<' :: inside) = '<' :: inside :=
    hbehind.skipBlanks_append_cons (by decide)
  have hreadHead : ∃ h, readHead (skipBlanks ((before ++ (name ++ behind)) ++ '<' :: inside)) =
      .ok (String.ofList name, ⟨behind ++ '<' :: inside, h⟩) := by
    have hstart : skipBlanks ((before ++ (name ++ behind)) ++ '<' :: inside) =
        name ++ (behind ++ '<' :: inside) := by
      simp only [List.append_assoc]
      rw [hbefore.skipBlanks_append, hisHead.skipBlanks]
    rw [hstart]
    refine readHead_append hisHead fun c hc => isNameChar_eq_false_of_head? hbehind ?_ hc
    intro d hd
    rw [skipBlanks_cons (by decide)] at hd
    cases hd
    exact isNameChar_eq_false_of_mem (by simp)
  obtain ⟨hshorter, hreadHead⟩ := hreadHead
  have hreadArguments : readArguments (behind ++ '<' :: inside) = .error failure := by
    unfold readArguments
    split
    · rename_i opened hskip
      rw [hopening] at hskip
      cases hskip
      simp [hlist, bind, Except.bind]
    · rename_i hother
      exact absurd hopening (hother inside)
  unfold TypeExpr.readType
  simp [hreadHead, hreadArguments, bind, Except.bind]

/-- What is reported in the first type of a list is reported in the list. -/
theorem readArgumentList_of_error {opened cs : List Char} {failure : Failure}
    (h : readType cs = .error failure) : readArgumentList opened cs = .error failure := by
  unfold readArgumentList
  simp [h, bind, Except.bind]

/-- What is reported in a list is reported behind more types of it. -/
theorem Listed.readArgumentList {opened list rest : List Char} {failure : Failure} (h : Listed list)
    (hread : TypeExpr.readArgumentList opened rest = .error failure) :
    TypeExpr.readArgumentList opened (list ++ rest) = .error failure := by
  induction h with
  | nil => exact hread
  | @cons text blanks others t htype hblanks _ ih =>
      have hcomma : skipBlanks (blanks ++ ',' :: (others ++ rest)) = ',' :: (others ++ rest) :=
        hblanks.skipBlanks_append_cons (by decide)
      have hends : Ends (skipBlanks (blanks ++ ',' :: (others ++ rest))) := by simp [hcomma, Ends]
      obtain ⟨hshorter, hfirst⟩ := htype.readType hends
      have hwhole : text ++ (blanks ++ ',' :: others) ++ rest =
          text ++ (blanks ++ ',' :: (others ++ rest)) := by simp
      rw [hwhole]
      unfold TypeExpr.readArgumentList
      simp only [hfirst, bind, Except.bind]
      split
      · rename_i hnil
        rw [Text.skipBlanks_skipBlanks, hcomma] at hnil
        cases hnil
      · rename_i hcons
        rw [Text.skipBlanks_skipBlanks, hcomma] at hcons
        cases hcons
        simp [ih]

/-- What is reported in a type is reported wherever the type is awaited. -/
theorem Awaits.readType {front text : List Char} {failure : Failure} (h : Awaits front)
    (hread : TypeExpr.readType text = .error failure) :
    TypeExpr.readType (front ++ text) = .error failure := by
  induction h with
  | start => exact hread
  | @inside head list front hhead hlist _ ih =>
      have hwhole : head ++ '<' :: (list ++ front) ++ text =
          head ++ '<' :: (list ++ (front ++ text)) := by simp
      rw [hwhole]
      exact hhead.readType (hlist.readArgumentList (readArgumentList_of_error ih))

/-- A list of whole types is other types and a last one. -/
theorem DerivesList.exists_last : {inside : List Char} → {ts : List TypeExpr} →
    DerivesList inside ts → ∃ list text blanks t, Listed list ∧ Derives text t ∧
      IsBlanks blanks ∧ inside = list ++ (text ++ blanks)
  | _, _, .last htype hblanks => ⟨[], _, _, _, .nil, htype, hblanks, rfl⟩
  | _, _, .more htype hblanks hrest => by
    obtain ⟨list, text, later, t, hlist, hlast, hlater, rfl⟩ := hrest.exists_last
    exact ⟨_, text, later, t, .cons htype hblanks hlist, hlast, hlater, by simp⟩

/-- Where a list of whole types ends the text, the bracket in front of it is reported. -/
theorem DerivesList.readArgumentList_of_end {inside : List Char} {ts : List TypeExpr}
    (h : DerivesList inside ts) (opened : List Char) :
    TypeExpr.readArgumentList opened inside = .error (.unclosed '<' opened) := by
  obtain ⟨list, text, blanks, t, hlist, htype, hblanks, rfl⟩ := h.exists_last
  have hend := hblanks.skipBlanks_eq_nil
  have hends : Ends (skipBlanks blanks) := by simp [hend, Ends]
  obtain ⟨hshorter, hread⟩ := htype.readType hends
  refine hlist.readArgumentList ?_
  unfold TypeExpr.readArgumentList
  simp only [hread, bind, Except.bind]
  split
  · rfl
  · rename_i hcons
    rw [Text.skipBlanks_skipBlanks, hend] at hcons
    cases hcons

/-! ## Completing a text -/

/-- A head is a type, alone and with arguments. -/
theorem Headed.derives {head written : List Char} {arguments : List TypeExpr} (h : Headed head)
    (harguments : DerivesArguments written arguments) : ∃ t, Derives (head ++ written) t := by
  obtain ⟨before, name, behind, hbefore, hname, hbehind, rfl⟩ := h
  have hderived := Derives.type hbefore hname hbehind harguments Text.isBlanks_nil .nil
  exact ⟨_, by simpa using hderived⟩

/-- Types with a comma behind each and one more type are a list. -/
theorem Listed.derivesList {list text : List Char} {t : TypeExpr} (h : Listed list)
    (htype : Derives text t) : ∃ ts, DerivesList (list ++ text) ts := by
  induction h with
  | nil => exact ⟨[t], by simpa using DerivesList.last htype Text.isBlanks_nil⟩
  | @cons first blanks rest s hfirst hblanks _ ih =>
      obtain ⟨ts, hrest⟩ := ih
      exact ⟨s :: ts, by simpa using DerivesList.more hfirst hblanks hrest⟩

/-- One more mark may be written behind marks. -/
theorem DerivesMarks.append {text marks mark : List Char} (h : DerivesMarks text marks)
    (hmark : IsMark mark) : ∃ more, DerivesMarks (text ++ mark) more := by
  induction h with
  | nil => exact ⟨_, by simpa using DerivesMarks.cons hmark Text.isBlanks_nil .nil⟩
  | cons hfirst hblanks _ ih =>
      obtain ⟨more, hrest⟩ := ih
      exact ⟨_, by simpa using DerivesMarks.cons hfirst hblanks hrest⟩

/-- A cut is the start of a type. -/
theorem Cut.complete {text : List Char} {failure : Failure} (h : Cut text failure) :
    ∃ more t, Derives (text ++ more) t := by
  cases h with
  | missing hblanks =>
      have hletter : isNameChar 'T' = true := by decide +kernel
      have hname : IsName ['T'] :=
        ⟨List.cons_ne_nil _ _, fun c hc => List.mem_singleton.mp hc ▸ hletter, by decide⟩
      obtain ⟨t, ht⟩ := Headed.derives
        ⟨text, ['T'], [], hblanks, Or.inl hname, Text.isBlanks_nil, rfl⟩ .none
      exact ⟨['T'], t, by simpa using ht⟩
  | @tuple blanks inner more hblanks htuple _ =>
      obtain ⟨t, ht⟩ := Headed.derives
        ⟨blanks, _, [], hblanks, Or.inr htuple, Text.isBlanks_nil, rfl⟩ .none
      exact ⟨more, t, by simpa using ht⟩
  | @rank text inner t htype hinner =>
      cases htype with
      | type hbefore hhead hbehind harguments hbetween hmarks =>
          obtain ⟨marks, hmore⟩ := hmarks.append (.rank hinner)
          have hderived := Derives.type hbefore hhead hbehind harguments hbetween hmore
          exact ⟨[']'], _, by simpa using hderived⟩
  | list hhead hlist =>
      obtain ⟨t, ht⟩ := hhead.derives (.angled hlist)
      exact ⟨['>'], t, by simpa using ht⟩

/-- Behind a type the lists that are open in front of it can be closed. -/
theorem Awaits.complete {front text : List Char} {t : TypeExpr} (h : Awaits front)
    (htype : Derives text t) : ∃ more u, Derives (front ++ (text ++ more)) u := by
  induction h with
  | start => exact ⟨[], t, by simpa using htype⟩
  | @inside head list front hhead hlist _ ih =>
      obtain ⟨more, u, hu⟩ := ih
      obtain ⟨ts, hts⟩ := hlist.derivesList hu
      obtain ⟨whole, hwhole⟩ := hhead.derives (.angled hts)
      exact ⟨more ++ ['>'], whole, by simpa using hwhole⟩

/-- A text that ends too early is the start of a type. -/
theorem exists_derives_of_early {cs : List Char} {failure : Failure}
    (h : readType cs = .error failure) (hearly : failure.IsEarly) :
    ∃ more t, Derives (cs ++ more) t := by
  obtain ⟨front, text, hfront, hcut, rfl⟩ := (cut_of_read cs).1 h hearly
  obtain ⟨more, t, ht⟩ := hcut.complete
  obtain ⟨behind, u, hu⟩ := hfront.complete ht
  exact ⟨more ++ behind, u, by simpa using hu⟩

/-! ## What is reported -/

/-- Where a type is awaited, it is awaited at the start or in an opened list. -/
theorem Awaits.eq_nil_or {front : List Char} (h : Awaits front) :
    front = [] ∨ ∃ outer list, Opened outer ∧ Listed list ∧ front = outer ++ '<' :: list := by
  induction h with
  | start => exact Or.inl rfl
  | @inside head list front hhead hlist _ ih =>
      refine Or.inr ?_
      rcases ih with rfl | ⟨outer, inner, ⟨before, name, hbefore, hname, rfl⟩, hinner, rfl⟩
      · exact ⟨head, list, ⟨[], head, .start, hhead, rfl⟩, hlist, by simp⟩
      · exact ⟨_, inner, ⟨_, name, .inside hhead hlist hbefore, hname, rfl⟩, hinner, by simp⟩

/-- A type is awaited in an opened list. -/
theorem Awaits.append {front head list : List Char} (h : Awaits front) (hhead : Headed head)
    (hlist : Listed list) : Awaits (front ++ (head ++ '<' :: list)) := by
  induction h with
  | start => simpa using Awaits.inside hhead hlist .start
  | inside houter hothers _ ih => simpa using Awaits.inside houter hothers ih

/-- What a reader of a type reports is reported for the text. -/
theorem parse_of_readType_error {text : String} {failure : Failure}
    (h : readType text.toList = .error failure) :
    parse text = .error (failure.toError text.toList) := by
  unfold parse parseChars
  split
  · rename_i hblank
    rw [readType_of_skipBlanks_eq_nil hblank] at h
    cases h
    rfl
  · rw [h]

/-- A text that is refused is refused by the reader of its type, or behind a whole type. -/
theorem readType_of_parse_error {text : String} {error : ParseError}
    (h : parse text = .error error) :
    (∃ failure, readType text.toList = .error failure ∧ error = failure.toError text.toList) ∨
      ∃ t rest, readType text.toList = .ok (t, rest) ∧ rest.1 ≠ [] ∧
        error = .trailingInput (Text.byteLength text.toList - Text.byteLength rest.1) := by
  unfold parse parseChars at h
  split at h
  · rename_i hblank
    cases h
    exact Or.inl ⟨.missing, readType_of_skipBlanks_eq_nil hblank, rfl⟩
  · split at h
    · rename_i failure hread
      cases h
      exact Or.inl ⟨failure, hread, rfl⟩
    · rename_i t rest hread
      obtain ⟨_, _, _, hskip⟩ := (derived_of_read _).1 hread
      rw [hskip] at h
      split at h
      · cases h
      · rename_i hleft
        cases h
        exact Or.inr ⟨t, rest, hread, hleft, rfl⟩

/-- The place of a rest in a text is the length of what stands in front of it. -/
theorem byteLength_sub (front rest : List Char) :
    Text.byteLength (front ++ rest) - Text.byteLength rest = Text.byteLength front := by
  rw [Text.byteLength_append, Nat.add_sub_cancel]

/-- A text is empty to the reader exactly if nothing but blanks stands where a type is awaited. -/
theorem parse_eq_empty_iff {text : String} :
    parse text = .error .empty ↔
      ∃ front blanks, Awaits front ∧ IsBlanks blanks ∧ text.toList = front ++ blanks := by
  constructor
  · intro h
    rcases readType_of_parse_error h with ⟨failure, hread, hfailure⟩ | ⟨_, _, _, _, hfailure⟩
    · cases failure with
      | missing =>
          obtain ⟨front, blanks, hfront, hcut, htext⟩ := (cut_of_read _).1 hread trivial
          cases hcut with
          | missing hblanks => exact ⟨front, blanks, hfront, hblanks, htext⟩
      | unexpected found rest => cases hfailure
      | unclosed opener rest => cases hfailure
    · cases hfailure
  · rintro ⟨front, blanks, hfront, hblanks, htext⟩
    have hread := hfront.readType (readType_of_skipBlanks_eq_nil hblanks.skipBlanks_eq_nil)
    rw [← htext] at hread
    exact parse_of_readType_error hread

/-- An argument list is reported as open exactly if whole types stand in it up to the end. -/
theorem parse_eq_unclosed_list_iff {text : String} {offset : Nat} :
    parse text = .error (.unclosed '<' offset) ↔
      ∃ front inside ts, Opened front ∧ DerivesList inside ts ∧
        text.toList = front ++ '<' :: inside ∧ Text.byteLength front = offset := by
  constructor
  · intro h
    rcases readType_of_parse_error h with ⟨failure, hread, hfailure⟩ | ⟨_, _, _, _, hfailure⟩
    · cases failure with
      | missing => cases hfailure
      | unexpected found rest => cases hfailure
      | unclosed opener rest =>
          cases hfailure
          obtain ⟨front, cut, hfront, hcut, htext⟩ := (cut_of_read _).1 hread trivial
          cases hcut with
          | @list head inside ts hhead hlist =>
              have hwhole : text.toList = (front ++ head) ++ '<' :: rest := by simp [htext]
              refine ⟨front ++ head, rest, ts, ⟨front, head, hfront, hhead, rfl⟩, hlist, hwhole, ?_⟩
              rw [hwhole, byteLength_sub]
    · cases hfailure
  · rintro ⟨_, inside, ts, ⟨front, head, hfront, hhead, rfl⟩, hlist, htext, rfl⟩
    have hread := hfront.readType (hhead.readType (hlist.readArgumentList_of_end inside))
    rw [← List.append_assoc, ← htext] at hread
    have hparse := parse_of_readType_error hread
    rwa [Failure.toError, htext, byteLength_sub] at hparse

/-- A text is empty to the reader exactly if there is nothing in it but blanks, or nothing but
blanks behind the bracket that opens the innermost argument list or behind a comma in it. Exactly if
instead whole types stand in that list up to the end, its bracket is reported as open. -/
theorem parse_unfinished (text : String) :
    (parse text = .error .empty ↔
      IsBlanks text.toList ∨ ∃ front list blanks, Opened front ∧ Listed list ∧ IsBlanks blanks ∧
        text.toList = front ++ '<' :: (list ++ blanks)) ∧
    ∀ offset, parse text = .error (.unclosed '<' offset) ↔
      ∃ front inside ts, Opened front ∧ DerivesList inside ts ∧
        text.toList = front ++ '<' :: inside ∧ Text.byteLength front = offset := by
  refine ⟨parse_eq_empty_iff.trans ⟨?_, ?_⟩, fun offset => parse_eq_unclosed_list_iff⟩
  · rintro ⟨front, blanks, hfront, hblanks, htext⟩
    rcases hfront.eq_nil_or with rfl | ⟨outer, list, houter, hlist, rfl⟩
    · exact Or.inl (htext ▸ hblanks)
    · exact Or.inr ⟨outer, list, blanks, houter, hlist, hblanks, by simpa using htext⟩
  · rintro (hblanks | ⟨_, list, blanks, ⟨front, head, hfront, hhead, rfl⟩, hlist, hblanks, htext⟩)
    · exact ⟨[], text.toList, .start, hblanks, rfl⟩
    · exact ⟨_, blanks, hfront.append hhead hlist, hblanks, by simpa using htext⟩

/-- Where nothing stands behind the bracket of an argument list, the text is called empty though it
is not blank, and the bracket is not reported. -/
theorem parse_openedList :
    "Task<".toList = "Task".toList ++ ['<'] ∧ Opened "Task".toList ∧
      parse "Task<" = .error .empty ∧ ¬ IsBlanks "Task<".toList ∧
      parse "Task<" ≠ .error (.unclosed '<' (Text.byteLength "Task".toList)) := by
  have hempty : parse "Task<" = .error .empty := by decide +kernel
  have hletters : ("Task".toList.all fun c => isNameChar c) = true := by decide +kernel
  have hname : IsName "Task".toList := ⟨by decide, List.all_eq_true.mp hletters, by decide⟩
  refine ⟨by decide, ⟨[], _, .start, ⟨[], _, [], ?_, Or.inl hname, ?_, rfl⟩, rfl⟩, hempty, ?_, ?_⟩
  · exact Text.isBlanks_nil
  · exact Text.isBlanks_nil
  · intro hblanks
    have hfirst := hblanks 'T' (by decide)
    revert hfirst
    decide
  · simp [hempty]

end RadioBroker.TypeExpr
