import RadioBroker.Proofs.TypeExpr.Head

/-!
# The grammar of written types

A written type is a head, generic arguments in angle brackets where there are any, and marks; blanks
may stand in front of each of these and behind it. `Derives` says so rule by rule, and nothing in it
says how a text is searched. A text is read as a type exactly if the grammar derives the text with
that type. So a text writes at most one type, and a text that writes none is refused.
-/

namespace RadioBroker.TypeExpr

open Text (skipBlanks skipBlanks_cons isBlank IsBlanks)

/-! ## The rules -/

/-- A mark: `?`, `*`, or an array rank, which is commas and blanks in square brackets. -/
inductive IsMark : List Char → Prop
  | nullable : IsMark ['?']
  | pointer : IsMark ['*']
  | rank {inner : List Char} (hinner : ∀ c ∈ inner, c = ',' ∨ isBlank c = true) :
      IsMark ('[' :: (inner ++ [']']))

/-- A text without its blanks. -/
def withoutBlanks (cs : List Char) : List Char := cs.filter fun c => !isBlank c

/-- `DerivesMarks text marks`: marks with blanks behind each of them, and the marks alone. -/
inductive DerivesMarks : (text marks : List Char) → Prop
  | nil : DerivesMarks [] []
  | cons {mark blanks text marks : List Char} (hmark : IsMark mark) (hblanks : IsBlanks blanks)
      (hrest : DerivesMarks text marks) :
      DerivesMarks (mark ++ (blanks ++ text)) (withoutBlanks mark ++ marks)

mutual

/-- `Derives text t`: the text is the type `t`, with blanks around its parts. -/
inductive Derives : (text : List Char) → TypeExpr → Prop
  | type {before head behind written between text marks : List Char} {arguments : List TypeExpr}
      (hbefore : IsBlanks before) (hhead : IsName head ∨ IsTuple head) (hbehind : IsBlanks behind)
      (harguments : DerivesArguments written arguments) (hbetween : IsBlanks between)
      (hmarks : DerivesMarks text marks) :
      Derives (before ++ (head ++ (behind ++ (written ++ (between ++ text)))))
        ⟨String.ofList head, arguments, String.ofList marks⟩

/-- `DerivesArguments text ts`: the text is nothing, or the types `ts` in angle brackets. -/
inductive DerivesArguments : (text : List Char) → List TypeExpr → Prop
  | none : DerivesArguments [] []
  | angled {text : List Char} {ts : List TypeExpr} (hlist : DerivesList text ts) :
      DerivesArguments ('<' :: (text ++ ['>'])) ts

/-- `DerivesList text ts`: the text is the types `ts`, one or more, with commas between them. -/
inductive DerivesList : (text : List Char) → List TypeExpr → Prop
  | last {text blanks : List Char} {t : TypeExpr} (htype : Derives text t)
      (hblanks : IsBlanks blanks) : DerivesList (text ++ blanks) [t]
  | more {text blanks others : List Char} {t : TypeExpr} {ts : List TypeExpr}
      (htype : Derives text t) (hblanks : IsBlanks blanks) (hrest : DerivesList others ts) :
      DerivesList (text ++ (blanks ++ ',' :: others)) (t :: ts)

end

/-! ## What is read is derived -/

/-- What is read as an array rank are commas and blanks up to the closing bracket. -/
theorem exists_of_readRank {opened cs marks : List Char} {rest : Text.Shorter cs}
    (h : readRank opened cs = .ok (marks, rest)) :
    ∃ inner, (∀ c ∈ inner, c = ',' ∨ isBlank c = true) ∧ cs = inner ++ ']' :: rest.1 ∧
      marks = withoutBlanks (inner ++ [']']) := by
  induction cs generalizing marks with
  | nil => cases h
  | cons c cs ih =>
      unfold readRank at h
      split at h
      · rename_i hclosing
        cases h
        exact ⟨[], nofun, by rw [hclosing]; rfl, rfl⟩
      · split at h
        · rename_i hcomma
          obtain ⟨⟨_, left, _⟩, hread, hresult⟩ := bind_eq_ok_iff.mp h
          obtain ⟨inner, hinner, hcs, rfl⟩ := ih hread
          cases hresult
          subst hcomma
          exact ⟨',' :: inner, List.forall_mem_cons.mpr ⟨Or.inl rfl, hinner⟩,
            congrArg (',' :: ·) hcs, rfl⟩
        · split at h
          · rename_i hblank
            obtain ⟨⟨_, left, _⟩, hread, hresult⟩ := bind_eq_ok_iff.mp h
            obtain ⟨inner, hinner, hcs, rfl⟩ := ih hread
            cases hresult
            refine ⟨c :: inner, List.forall_mem_cons.mpr ⟨Or.inr hblank, hinner⟩,
              congrArg (c :: ·) hcs, ?_⟩
            simp [withoutBlanks, hblank]
          · cases h

/-- What is read as marks are marks, with blanks in front; the blanks behind them are read too. -/
theorem derivesMarks_of_readMarks {cs marks : List Char} {rest : Text.NoLonger cs}
    (h : readMarks cs = .ok (marks, rest)) :
    ∃ blanks text, IsBlanks blanks ∧ DerivesMarks text marks ∧ cs = blanks ++ (text ++ rest.1) ∧
      skipBlanks rest.1 = rest.1 := by
  obtain ⟨length, hlength⟩ : ∃ length, cs.length = length := ⟨_, rfl⟩
  induction length using Nat.strongRecOn generalizing cs marks with
  | ind length ih =>
      obtain ⟨blanks, hblanks, hcs⟩ := Text.exists_blanks cs
      unfold readMarks at h
      split at h
      · rename_i hskip
        cases h
        rw [hskip, List.append_nil] at hcs
        exact ⟨blanks, [], hblanks, .nil, by simpa using hcs, rfl⟩
      · rename_i c after hskip
        have hless : after.length < length := hlength ▸ Text.length_lt_of_skipBlanks hskip
        rw [hskip] at hcs
        split at h
        · rename_i hmark
          obtain ⟨⟨others, left, _⟩, hread, hresult⟩ := bind_eq_ok_iff.mp h
          cases hresult
          obtain ⟨between, text, hbetween, htext, hafter, hleft⟩ := ih _ hless hread rfl
          refine ⟨blanks, [c] ++ (between ++ text), hblanks, ?_, ?_, hleft⟩
          · rcases hmark with rfl | rfl
            · exact .cons .nullable hbetween htext
            · exact .cons .pointer hbetween htext
          · show cs = _ ++ (_ ++ left)
            rw [hcs, hafter]
            simp
        · split at h
          · rename_i hopening
            obtain ⟨⟨rank, behind, hbehind⟩, hrank, hmarks⟩ := bind_eq_ok_iff.mp h
            obtain ⟨⟨others, left, _⟩, hread, hresult⟩ := bind_eq_ok_iff.mp hmarks
            cases hresult
            obtain ⟨inner, hinner, hinnerText, rfl⟩ := exists_of_readRank hrank
            obtain ⟨between, text, hbetween, htext, hrest, hleft⟩ :=
              ih _ (Nat.lt_trans hbehind hless) hread rfl
            refine ⟨blanks, ('[' :: (inner ++ [']'])) ++ (between ++ text), hblanks,
              .cons (.rank hinner) hbetween htext, ?_, hleft⟩
            have hafter : after = inner ++ ']' :: behind := hinnerText
            show cs = _ ++ (_ ++ left)
            rw [hcs, hafter, hrest, hopening]
            simp
          · cases h
            refine ⟨blanks, [], hblanks, .nil, hcs, ?_⟩
            exact skipBlanks_cons (Text.not_isBlank_of_skipBlanks hskip)

/-- A type that is read from `cs` is derived; the blanks behind it are read too. -/
def TypeDerived (cs : List Char) : Prop :=
  ∀ {t rest}, readType cs = .ok (t, rest) →
    ∃ text, Derives text t ∧ cs = text ++ rest.1 ∧ skipBlanks rest.1 = rest.1

/-- Arguments that are read from `cs` are derived, behind blanks. -/
def ArgumentsDerived (cs : List Char) : Prop :=
  ∀ {ts rest}, readArguments cs = .ok (ts, rest) →
    ∃ blanks text, IsBlanks blanks ∧ DerivesArguments text ts ∧ cs = blanks ++ (text ++ rest.1)

/-- A list of types that is read from `cs` is derived; its closing bracket is read too. -/
def ListDerived (cs : List Char) : Prop :=
  ∀ {opened ts rest}, readArgumentList opened cs = .ok (ts, rest) →
    ∃ text, DerivesList text ts ∧ cs = text ++ '>' :: rest.1

/-- A type is derived if the arguments behind its head are. -/
theorem typeDerived_of_arguments {cs : List Char}
    (h : ∀ tail : List Char, tail.length < cs.length → ArgumentsDerived tail) : TypeDerived cs := by
  intro t rest hread
  unfold readType at hread
  obtain ⟨⟨head, afterHead, hhead⟩, hreadHead, hread⟩ := bind_eq_ok_iff.mp hread
  obtain ⟨⟨arguments, afterArguments, _⟩, hreadArguments, hread⟩ := bind_eq_ok_iff.mp hread
  obtain ⟨⟨marks, left, _⟩, hreadMarks, hread⟩ := bind_eq_ok_iff.mp hread
  cases hread
  obtain ⟨before, hbefore, hcs⟩ := Text.exists_blanks cs
  have hheadText : skipBlanks cs = head.toList ++ afterHead := eq_append_of_readHead hreadHead
  have hless : afterHead.length < cs.length :=
    Nat.lt_of_lt_of_le hhead (Text.length_skipBlanks_le cs)
  obtain ⟨behind, written, hbehind, harguments, hargumentsText⟩ := h afterHead hless hreadArguments
  obtain ⟨between, text, hbetween, hmarks, hmarksText, hleft⟩ :=
    derivesMarks_of_readMarks hreadMarks
  have hderived := Derives.type hbefore (isHead_iff.mp (isHead_of_readHead hreadHead)) hbehind
    harguments hbetween hmarks
  rw [String.ofList_toList] at hderived
  refine ⟨_, hderived, ?_, hleft⟩
  have hafterHead : afterHead = behind ++ (written ++ afterArguments) := hargumentsText
  show cs = _ ++ left
  rw [hcs, hheadText, hafterHead, hmarksText]
  simp

/-- Arguments are derived if the list behind the opening bracket is. -/
theorem argumentsDerived_of_list {cs : List Char}
    (h : ∀ opened : List Char, opened.length < cs.length → ListDerived opened) :
    ArgumentsDerived cs := by
  intro ts rest hread
  obtain ⟨blanks, hblanks, hcs⟩ := Text.exists_blanks cs
  unfold readArguments at hread
  split at hread
  · rename_i opened hskip
    obtain ⟨⟨arguments, left, _⟩, hreadList, hread⟩ := bind_eq_ok_iff.mp hread
    cases hread
    have hless : opened.length < cs.length := Text.length_lt_of_skipBlanks hskip
    obtain ⟨text, hlist, hopened⟩ := h opened hless hreadList
    refine ⟨blanks, '<' :: (text ++ ['>']), hblanks, .angled hlist, ?_⟩
    show cs = _ ++ (_ ++ left)
    rw [hcs, hskip, hopened]
    simp
  · cases hread
    exact ⟨blanks, [], hblanks, .none, hcs⟩

/-- A list is derived if its first type is and the list behind a comma. -/
theorem listDerived_of_type {cs : List Char} (htype : TypeDerived cs)
    (h : ∀ after : List Char, after.length < cs.length → ListDerived after) : ListDerived cs := by
  intro opened ts rest hread
  unfold readArgumentList at hread
  obtain ⟨⟨first, behind, hbehind⟩, hreadType, hread⟩ := bind_eq_ok_iff.mp hread
  obtain ⟨text, hfirst, hcs, _⟩ := htype hreadType
  obtain ⟨blanks, hblanks, hbehindText⟩ := Text.exists_blanks behind
  have hwhole : cs = text ++ behind := hcs
  dsimp only at hread
  split at hread
  · cases hread
  · rename_i c after hskip
    have hless : after.length < cs.length :=
      Nat.lt_trans (Text.length_lt_of_skipBlanks hskip) hbehind
    rw [hskip] at hbehindText
    split at hread
    · rename_i hcomma
      obtain ⟨⟨others, left, _⟩, hreadList, hread⟩ := bind_eq_ok_iff.mp hread
      cases hread
      obtain ⟨later, hlater, hafter⟩ := h after hless hreadList
      refine ⟨text ++ (blanks ++ ',' :: later), .more hfirst hblanks hlater, ?_⟩
      show cs = _ ++ '>' :: left
      rw [hwhole, hbehindText, hafter, hcomma]
      simp
    · split at hread
      · rename_i hclosing
        cases hread
        refine ⟨text ++ blanks, .last hfirst hblanks, ?_⟩
        show cs = _ ++ '>' :: after
        rw [hwhole, hbehindText, hclosing]
        simp
      · cases hread

/-- What each of the three readers reads is derived. -/
theorem derived_of_read (cs : List Char) :
    TypeDerived cs ∧ ArgumentsDerived cs ∧ ListDerived cs := by
  obtain ⟨length, hlength⟩ : ∃ length, cs.length = length := ⟨_, rfl⟩
  -- The readers call each other on less of the text, except that a list starts with a type.
  induction length using Nat.strongRecOn generalizing cs with
  | ind length ih =>
      subst hlength
      have htype : TypeDerived cs :=
        typeDerived_of_arguments fun tail hless => (ih _ hless tail rfl).2.1
      exact ⟨htype, argumentsDerived_of_list fun opened hless => (ih _ hless opened rfl).2.2,
        listDerived_of_type htype fun after hless => (ih _ hless after rfl).2.2⟩

/-- What is read as a type is derived with it. -/
theorem derives_of_parse {text : String} {t : TypeExpr} (h : parse text = .ok t) :
    Derives text.toList t := by
  unfold parse parseChars at h
  split at h
  · cases h
  · split at h
    · cases h
    · rename_i rest hread
      split at h
      · rename_i hend
        cases h
        obtain ⟨front, hderived, hcs, hrest⟩ := (derived_of_read _).1 hread
        rw [← hrest, hend, List.append_nil] at hcs
        rwa [hcs]
      · cases h

/-! ## What is derived is read -/

/-- What may stand behind a type inside another one, or at the end of a text. -/
def Ends (rest : List Char) : Prop := ∀ c, rest.head? = some c → c = ',' ∨ c = '>'

/-- What may stand behind a head, blanks apart, is part of no name. -/
theorem isNameChar_eq_false_of_mem {c : Char} (h : c ∈ ['?', '*', '[', ',', '>', '<']) :
    isNameChar c = false := by
  simp only [List.mem_cons, List.not_mem_nil, or_false] at h
  rcases h with rfl | rfl | rfl | rfl | rfl | rfl
  all_goals decide +kernel

/-- A mark starts with no blank. -/
theorem IsMark.exists_cons {mark : List Char} (h : IsMark mark) :
    ∃ c rest, mark = c :: rest ∧ isBlank c = false ∧ c ∈ ['?', '*', '['] := by
  cases h with
  | nullable => exact ⟨'?', [], rfl, by decide, by simp⟩
  | pointer => exact ⟨'*', [], rfl, by decide, by simp⟩
  | rank _ => exact ⟨'[', _, rfl, by decide, by simp⟩

/-- Marks start with no blank; where there are none, what stands behind them comes first. -/
theorem DerivesMarks.skipBlanks_append {text marks : List Char} (h : DerivesMarks text marks)
    (rest : List Char) :
    skipBlanks (text ++ rest) = if text = [] then skipBlanks rest else text ++ rest := by
  cases h with
  | nil => rfl
  | cons hmark _ _ =>
      obtain ⟨c, behind, rfl, hblank, _⟩ := hmark.exists_cons
      rw [if_neg (by simp)]
      exact skipBlanks_cons hblank

/-- The first character behind a head that is no blank starts marks, or ends the type. -/
theorem DerivesMarks.mem_of_head? {text marks rest : List Char} (h : DerivesMarks text marks)
    (hends : Ends (skipBlanks rest)) {c : Char}
    (hc : (skipBlanks (text ++ rest)).head? = some c) : c ∈ ['?', '*', '[', ',', '>'] := by
  rw [h.skipBlanks_append] at hc
  cases h with
  | nil => rcases hends c hc with rfl | rfl <;> simp
  | cons hmark _ _ =>
      obtain ⟨d, behind, rfl, _, hmem⟩ := hmark.exists_cons
      rw [if_neg (by simp)] at hc
      cases hc
      simp only [List.mem_cons, List.not_mem_nil, or_false] at hmem ⊢
      tauto

/-- An array rank is read up to its closing bracket. -/
theorem readRank_append {inner : List Char} (hinner : ∀ c ∈ inner, c = ',' ∨ isBlank c = true)
    (opened rest : List Char) :
    ∃ hshorter, readRank opened (inner ++ ']' :: rest) =
      .ok (withoutBlanks (inner ++ [']']), ⟨rest, hshorter⟩) := by
  induction inner with
  | nil => exact ⟨by simp, rfl⟩
  | cons c inner ih =>
      obtain ⟨hfirst, hothers⟩ := List.forall_mem_cons.mp hinner
      obtain ⟨hshorter, hread⟩ := ih hothers
      refine ⟨Text.length_lt_cons hshorter, ?_⟩
      show readRank opened (c :: (inner ++ ']' :: rest)) = _
      rcases hfirst with rfl | hblank
      · simp only [readRank, hread, bind, Except.bind]
        rfl
      · have hclosing : c ≠ ']' := by
          rintro rfl
          revert hblank
          decide
        have hcomma : c ≠ ',' := by
          rintro rfl
          revert hblank
          decide
        simp [readRank, hread, bind, Except.bind, hclosing, hcomma, hblank, withoutBlanks]

/-- A mark of one character is read, and then the others. -/
theorem readMarks_of_mark {cs after marks rest : List Char} {c : Char}
    (hcs : skipBlanks cs = c :: after) (hmark : c = '?' ∨ c = '*')
    (h : ∃ hle, readMarks after = .ok (marks, ⟨rest, hle⟩)) :
    ∃ hle, readMarks cs = .ok (c :: marks, ⟨rest, hle⟩) := by
  obtain ⟨hless, hread⟩ := h
  have hlength := Text.length_lt_of_skipBlanks hcs
  refine ⟨by omega, ?_⟩
  unfold readMarks
  split
  · rename_i hnil
    rw [hcs] at hnil
    cases hnil
  · rename_i hcons
    rw [hcs] at hcons
    cases hcons
    simp [hmark, hread, bind, Except.bind]

/-- An array rank is read, and then the other marks. -/
theorem readMarks_of_rank {cs after rank behind marks rest : List Char}
    (hcs : skipBlanks cs = '[' :: after)
    (hrank : ∃ hshorter, readRank after after = .ok (rank, ⟨behind, hshorter⟩))
    (h : ∃ hle, readMarks behind = .ok (marks, ⟨rest, hle⟩)) :
    ∃ hle, readMarks cs = .ok ('[' :: (rank ++ marks), ⟨rest, hle⟩) := by
  obtain ⟨hbehind, hrank⟩ := hrank
  obtain ⟨hless, hread⟩ := h
  have hlength := Text.length_lt_of_skipBlanks hcs
  refine ⟨by omega, ?_⟩
  unfold readMarks
  split
  · rename_i hnil
    rw [hcs] at hnil
    cases hnil
  · rename_i hcons
    rw [hcs] at hcons
    cases hcons
    simp [hrank, hread, bind, Except.bind]

/-- Marks are read without their blanks. -/
theorem DerivesMarks.readMarks {text marks : List Char} (h : DerivesMarks text marks)
    {cs rest : List Char} (hends : Ends (skipBlanks rest))
    (hcs : skipBlanks cs = skipBlanks (text ++ rest)) :
    ∃ hle, TypeExpr.readMarks cs = .ok (marks, ⟨skipBlanks rest, hle⟩) := by
  induction h generalizing cs with
  | nil =>
      rw [List.nil_append] at hcs
      refine ⟨hcs ▸ Text.length_skipBlanks_le cs, ?_⟩
      unfold TypeExpr.readMarks
      split
      · rename_i hnil
        simp [← hcs, hnil]
      · rename_i c after hcons
        have hstop := hends c (by rw [← hcs, hcons]; rfl)
        rcases hstop with rfl | rfl <;> simp [← hcs, hcons]
  | @cons mark blanks text marks hmark hblanks hrest ih =>
      have hothers := @ih (blanks ++ (text ++ rest)) (hblanks.skipBlanks_append _)
      cases hmark with
      | nullable =>
          have hwhole : ['?'] ++ (blanks ++ text) ++ rest = '?' :: (blanks ++ (text ++ rest)) := by
            simp
          rw [hwhole] at hcs
          exact readMarks_of_mark (hcs.trans (skipBlanks_cons (by decide))) (Or.inl rfl) hothers
      | pointer =>
          have hwhole : ['*'] ++ (blanks ++ text) ++ rest = '*' :: (blanks ++ (text ++ rest)) := by
            simp
          rw [hwhole] at hcs
          exact readMarks_of_mark (hcs.trans (skipBlanks_cons (by decide))) (Or.inr rfl) hothers
      | @rank inner hinner =>
          have hwhole : '[' :: (inner ++ [']']) ++ (blanks ++ text) ++ rest =
              '[' :: (inner ++ ']' :: (blanks ++ (text ++ rest))) := by simp
          rw [hwhole] at hcs
          exact readMarks_of_rank (hcs.trans (skipBlanks_cons (by decide)))
            (readRank_append hinner _ _) hothers

/-- Behind a head, blanks apart, stand arguments, marks, or what ends the type. -/
theorem DerivesArguments.mem_of_head? {written between text marks rest : List Char}
    {arguments : List TypeExpr} (h : DerivesArguments written arguments)
    (hbetween : IsBlanks between) (hmarks : DerivesMarks text marks)
    (hends : Ends (skipBlanks rest)) {c : Char}
    (hc : (skipBlanks (written ++ (between ++ (text ++ rest)))).head? = some c) :
    c ∈ ['?', '*', '[', ',', '>', '<'] := by
  cases h with
  | none =>
      rw [List.nil_append, hbetween.skipBlanks_append] at hc
      have hmem := hmarks.mem_of_head? hends hc
      simp only [List.mem_cons, List.not_mem_nil, or_false] at hmem ⊢
      tauto
  | angled _ =>
      cases hc
      simp

/-- A name ends where arguments, marks or blanks start, and where the type ends. -/
theorem isNameChar_eq_false_of_head? {blanks rest : List Char} (hblanks : IsBlanks blanks)
    (hrest : ∀ c, (skipBlanks rest).head? = some c → isNameChar c = false) {c : Char}
    (hc : (blanks ++ rest).head? = some c) : isNameChar c = false := by
  by_cases hblank : isBlank c = true
  · by_contra hname
    rw [Bool.not_eq_false] at hname
    rw [isBlank_eq_false_of_isNameChar hname] at hblank
    cases hblank
  · rw [Bool.not_eq_true] at hblank
    have hskip : skipBlanks (blanks ++ rest) = blanks ++ rest :=
      Text.skipBlanks_of_head? fun d hd => by rwa [Option.some.inj (hd.symm.trans hc)]
    rw [hblanks.skipBlanks_append] at hskip
    exact hrest c (hskip ▸ hc)

/-- A type is read in three parts. -/
theorem readType_of_parts {cs head tail marks rest : List Char} {arguments : List TypeExpr}
    {afterArguments : List Char} (hcs : skipBlanks cs = head ++ tail) (hhead : IsHead head)
    (htail : ∀ c, tail.head? = some c → isNameChar c = false)
    (harguments : ∃ h, readArguments tail = .ok (arguments, ⟨afterArguments, h⟩))
    (hmarks : ∃ h, readMarks afterArguments = .ok (marks, ⟨rest, h⟩)) :
    ∃ hshorter, readType cs =
      .ok (⟨String.ofList head, arguments, String.ofList marks⟩, ⟨rest, hshorter⟩) := by
  have hread : ∃ h, readHead (skipBlanks cs) = .ok (String.ofList head, ⟨tail, h⟩) := by
    rw [hcs]
    exact readHead_append hhead htail
  obtain ⟨htailLess, hread⟩ := hread
  obtain ⟨hafterLess, harguments⟩ := harguments
  obtain ⟨hrestLess, hmarks⟩ := hmarks
  have hstart := Text.length_skipBlanks_le cs
  refine ⟨by omega, ?_⟩
  unfold readType
  simp [hread, harguments, hmarks, bind, Except.bind]

/-- Without an opening bracket no arguments are read. -/
theorem readArguments_of_none {cs : List Char} (hnone : (skipBlanks cs).head? ≠ some '<') :
    ∃ hle, readArguments cs = .ok ([], ⟨skipBlanks cs, hle⟩) := by
  refine ⟨Text.length_skipBlanks_le cs, ?_⟩
  unfold readArguments
  split
  · rename_i opened hskip
    rw [hskip] at hnone
    exact absurd rfl hnone
  · rfl

/-- Arguments are read up to the bracket that closes them. -/
theorem readArguments_of_list {cs opened rest : List Char} {arguments : List TypeExpr}
    (hcs : skipBlanks cs = '<' :: opened)
    (h : ∃ hshorter, readArgumentList opened opened = .ok (arguments, ⟨rest, hshorter⟩)) :
    ∃ hle, readArguments cs = .ok (arguments, ⟨rest, hle⟩) := by
  obtain ⟨hless, hread⟩ := h
  have hlength := Text.length_lt_of_skipBlanks hcs
  refine ⟨by omega, ?_⟩
  unfold readArguments
  split
  · rename_i others hothers
    rw [hcs] at hothers
    cases hothers
    simp [hread, bind, Except.bind]
  · rename_i hother
    exact absurd hcs (hother opened)

/-- An argument list is read one type at a time. -/
theorem readArgumentList_of_type {opened cs behind : List Char} {t : TypeExpr}
    (h : ∃ hshorter, readType cs = .ok (t, ⟨behind, hshorter⟩)) {rest : List Char}
    {others : List TypeExpr}
    (hbehind : behind = '>' :: rest ∧ others = [] ∨
      ∃ after, behind = ',' :: after ∧
        ∃ hshorter, readArgumentList opened after = .ok (others, ⟨rest, hshorter⟩)) :
    ∃ hshorter, readArgumentList opened cs = .ok (t :: others, ⟨rest, hshorter⟩) := by
  obtain ⟨hless, hread⟩ := h
  rcases hbehind with ⟨rfl, rfl⟩ | ⟨after, rfl, hafter, hlist⟩
  · refine ⟨by rw [List.length_cons] at hless; omega, ?_⟩
    have hskip := @skipBlanks_cons '>' rest (by decide)
    unfold readArgumentList
    simp only [hread, bind, Except.bind]
    split
    · rename_i hnil
      rw [hskip] at hnil
      cases hnil
    · rename_i hcons
      rw [hskip] at hcons
      cases hcons
      simp
  · refine ⟨by rw [List.length_cons] at hless; omega, ?_⟩
    have hskip := @skipBlanks_cons ',' after (by decide)
    unfold readArgumentList
    simp only [hread, bind, Except.bind]
    split
    · rename_i hnil
      rw [hskip] at hnil
      cases hnil
    · rename_i hcons
      rw [hskip] at hcons
      cases hcons
      simp [hlist]

mutual

/-- A derived text is read as the type that it is derived with. -/
theorem Derives.readType : {text : List Char} → {t : TypeExpr} → Derives text t →
    {rest : List Char} → Ends (skipBlanks rest) →
    ∃ hshorter, TypeExpr.readType (text ++ rest) = .ok (t, ⟨skipBlanks rest, hshorter⟩)
  | _, _, @Derives.type before head behind written between text marks arguments hbefore hhead
    hbehind
      harguments hbetween hmarks, rest, hends => by
    have hisHead := isHead_iff.mpr hhead
    have hstart : skipBlanks (before ++ (head ++ (behind ++ (written ++ (between ++ text)))) ++
        rest) = head ++ (behind ++ (written ++ (between ++ (text ++ rest)))) := by
      simp only [List.append_assoc]
      rw [hbefore.skipBlanks_append, hisHead.skipBlanks]
    obtain ⟨afterArguments, hafter, hread⟩ := harguments.readArguments hbehind hbetween hmarks hends
    refine readType_of_parts hstart hisHead ?_ hread (hmarks.readMarks hends hafter)
    intro c hc
    refine isNameChar_eq_false_of_head? hbehind ?_ hc
    intro d hd
    exact isNameChar_eq_false_of_mem (harguments.mem_of_head? hbetween hmarks hends hd)

/-- Derived arguments are read in front of marks. -/
theorem DerivesArguments.readArguments : {written : List Char} → {arguments : List TypeExpr} →
    DerivesArguments written arguments → {blanks between text marks rest : List Char} →
    IsBlanks blanks → IsBlanks between → DerivesMarks text marks → Ends (skipBlanks rest) →
    ∃ after, skipBlanks after = skipBlanks (text ++ rest) ∧
      ∃ hle, TypeExpr.readArguments (blanks ++ (written ++ (between ++ (text ++ rest)))) =
        .ok (arguments, ⟨after, hle⟩)
  | _, _, .none, blanks, between, text, marks, rest, hblanks, hbetween, hmarks, hends => by
    have hskip : skipBlanks (blanks ++ ([] ++ (between ++ (text ++ rest)))) =
        skipBlanks (text ++ rest) := by
      rw [hblanks.skipBlanks_append, List.nil_append, hbetween.skipBlanks_append]
    refine ⟨_, ?_, readArguments_of_none ?_⟩
    · rw [hskip, Text.skipBlanks_skipBlanks]
    · rw [hskip]
      intro hopening
      have hmem := hmarks.mem_of_head? hends hopening
      revert hmem
      decide
  | _, _, @DerivesArguments.angled list _ hlist, blanks, between, text, marks, rest, hblanks,
      hbetween, _, _ => by
    refine ⟨between ++ (text ++ rest), hbetween.skipBlanks_append _, ?_⟩
    have hopened : '<' :: (list ++ ['>']) ++ (between ++ (text ++ rest)) =
        '<' :: (list ++ '>' :: (between ++ (text ++ rest))) := by simp
    rw [hopened]
    refine readArguments_of_list ?_ (hlist.readArgumentList _)
    rw [hblanks.skipBlanks_append]
    exact skipBlanks_cons (by decide)

/-- A derived list of types is read up to the closing bracket. -/
theorem DerivesList.readArgumentList : {text : List Char} → {ts : List TypeExpr} →
    DerivesList text ts → (opened : List Char) → {rest : List Char} →
    ∃ hshorter, TypeExpr.readArgumentList opened (text ++ '>' :: rest) =
      .ok (ts, ⟨rest, hshorter⟩)
  | _, _, @DerivesList.last text blanks t htype hblanks, opened, rest => by
    have hskip : skipBlanks (blanks ++ '>' :: rest) = '>' :: rest := by
      rw [hblanks.skipBlanks_append]
      exact skipBlanks_cons (by decide)
    have hends : Ends (skipBlanks (blanks ++ '>' :: rest)) := by simp [hskip, Ends]
    have hread := htype.readType hends
    rw [hskip] at hread
    rw [List.append_assoc]
    exact readArgumentList_of_type hread (Or.inl ⟨rfl, rfl⟩)
  | _, _, @DerivesList.more text blanks others t ts htype hblanks hrest, opened, rest => by
    have hskip : skipBlanks (blanks ++ ',' :: (others ++ '>' :: rest)) =
        ',' :: (others ++ '>' :: rest) := by
      rw [hblanks.skipBlanks_append]
      exact skipBlanks_cons (by decide)
    have hends : Ends (skipBlanks (blanks ++ ',' :: (others ++ '>' :: rest))) := by
      simp [hskip, Ends]
    have hread := htype.readType hends
    rw [hskip] at hread
    rw [List.append_assoc, List.append_assoc]
    exact readArgumentList_of_type hread (Or.inr ⟨_, rfl, hrest.readArgumentList opened⟩)

end

/-- Where nothing but blanks is left no type is read. -/
theorem readType_of_skipBlanks_eq_nil {cs : List Char} (h : skipBlanks cs = []) :
    readType cs = .error .missing := by
  have hhead : readHead (skipBlanks cs) = .error .missing := by
    rw [h]
    rfl
  unfold readType
  simp [hhead, bind, Except.bind]

/-- A text is read as each type that it is derived with. -/
theorem parse_of_derives {text : String} {t : TypeExpr} (h : Derives text.toList t) :
    parse text = .ok t := by
  have hends : Ends (skipBlanks []) := nofun
  have hread := h.readType hends
  rw [List.append_nil] at hread
  obtain ⟨_, hread⟩ := hread
  have hsome : skipBlanks text.toList ≠ [] := by
    intro hnone
    rw [readType_of_skipBlanks_eq_nil hnone] at hread
    cases hread
  rw [parse, parseChars, if_neg hsome, hread]
  rfl

/-- Reading accepts exactly the texts that the grammar derives, each with the type that it is
derived with. A text is derived with one type at most, and a text that is derived with none is
refused. -/
theorem parse_iff_derives (text : String) :
    (∀ t, parse text = .ok t ↔ Derives text.toList t) ∧
      (∀ s t, Derives text.toList s → Derives text.toList t → s = t) ∧
      ((∀ t, ¬ Derives text.toList t) → ∃ error, parse text = .error error) := by
  refine ⟨fun t => ⟨derives_of_parse, parse_of_derives⟩, ?_, ?_⟩
  · intro s t hs ht
    exact Except.ok.inj ((parse_of_derives hs).symm.trans (parse_of_derives ht))
  · intro hnone
    cases hread : parse text with
    | error error => exact ⟨error, rfl⟩
    | ok t => exact absurd (derives_of_parse hread) (hnone t)

/-- The grammar derives a box with a tuple among its arguments from a text with blanks, and nothing
from a name with a blank in it. -/
theorem parse_iff_derives_box :
    Derives " N.Box < T* , (int,U) [ , ] > ".toList
        ⟨"N.Box", [⟨"T", [], "*"⟩, ⟨"(int,U)", [], "[,]"⟩], ""⟩ ∧
      ∀ t, ¬ Derives "N. Box".toList t := by
  obtain ⟨hreads, _, _⟩ := parse_iff_derives " N.Box < T* , (int,U) [ , ] > "
  refine ⟨(hreads _).mp (by decide +kernel), fun t hderived => ?_⟩
  have hread := ((parse_iff_derives "N. Box").1 t).mpr hderived
  have hrefused : parse "N. Box" = .error (.trailingInput 3) := by decide +kernel
  rw [hrefused] at hread
  cases hread

end RadioBroker.TypeExpr
