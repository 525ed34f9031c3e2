import RadioBroker.Proofs.TypeExpr.Head

/-!
# What readers look at

No reader of types looks behind the next character. What is read in front of some text is read in
front of any text that starts alike, and a character that is refused is refused whatever stands
behind it. Readers that do so are put together from parts that do.
-/

namespace RadioBroker.TypeExpr

open Text (skipBlanks)

variable {α β : Type}

/-! ## Outcomes -/

/-- What comes of reading a text. -/
inductive Outcome (α : Type) where
  /-- Something is read in front of `rest`. -/
  | done (value : α) (rest : List Char)
  /-- `found` is refused in front of `rest`. -/
  | refused (found : Char) (rest : List Char)
  /-- The text ends too early. -/
  | cut

/-- What comes of reading on behind what is read. -/
def Outcome.bind : Outcome α → (α → List Char → Outcome β) → Outcome β
  | done value rest, next => next value rest
  | refused found rest, _ => refused found rest
  | cut, _ => cut

/-- The outcome of a reader. It does not tell what is missing at the end of a text. -/
def outcome {left : List Char → Prop} :
    Except Failure (α × { rest : List Char // left rest }) → Outcome α
  | .ok (value, rest) => .done value rest.1
  | .error (.unexpected found rest) => .refused found rest
  | .error _ => .cut

variable {left : List Char → Prop} {result : Except Failure (α × { rest : List Char // left rest })}
  {cs rest : List Char} {found : Char} {value : α}

/-- Something is read exactly if that is the outcome. -/
theorem outcome_eq_done_iff :
    outcome result = .done value rest ↔ ∃ h, result = .ok (value, ⟨rest, h⟩) := by
  cases result with
  | error failure => cases failure <;> simp [outcome]
  | ok read =>
      obtain ⟨other, text, htext⟩ := read
      simp only [outcome, Outcome.done.injEq, Except.ok.injEq, Prod.mk.injEq, Subtype.mk.injEq]
      exact ⟨fun h => ⟨h.2 ▸ htext, h⟩, fun h => h.2⟩

/-- A character is refused exactly if that is the outcome. -/
theorem outcome_eq_refused_iff :
    outcome result = .refused found rest ↔ result = .error (.unexpected found rest) := by
  cases result with
  | error failure => cases failure <;> simp [outcome]
  | ok read => simp [outcome]

/-- The outcome of two readers, one behind the other. -/
theorem outcome_bind {right : List Char → Prop}
    {next : α × { rest : List Char // left rest } →
      Except Failure (β × { rest : List Char // right rest })}
    {behind : α → List Char → Outcome β}
    (h : ∀ read, outcome (next read) = behind read.1 read.2.1) :
    outcome (result >>= next) = (outcome result).bind behind := by
  cases result with
  | error failure => cases failure <;> rfl
  | ok read => exact h read

/-! ## Readers that look at the next character only -/

/-- A reader is prompt at a text if it does not look behind the next character there. -/
structure Prompt (read : List Char → Outcome α) (cs : List Char) : Prop where
  done : ∀ value rest, read cs = .done value rest → rest ≠ [] →
    ∃ front, cs = front ++ rest ∧
      ∀ other, other.head? = rest.head? → read (front ++ other) = .done value other
  refused : ∀ found rest, read cs = .refused found rest →
    ∃ front, cs = front ++ found :: rest ∧
      ∀ other, read (front ++ found :: other) = .refused found other

namespace Prompt

variable {read other : List Char → Outcome α} {c : Char}

/-- Readers that do the same are prompt together. -/
theorem congr (h : Prompt read cs) (hsame : ∀ text, other text = read text) : Prompt other cs :=
  funext hsame ▸ h

/-- Reading nothing is prompt. -/
theorem pure (value : α) (cs : List Char) : Prompt (Outcome.done value) cs where
  done := by
    rintro _ _ h _
    cases h
    exact ⟨[], rfl, fun _ _ => rfl⟩
  refused := nofun

/-- Reading on behind a prompt reader is prompt. -/
theorem bind {next : α → List Char → Outcome β} (h : Prompt read cs)
    (hnext : ∀ value rest, read cs = .done value rest → Prompt (next value) rest) :
    Prompt (fun text => (read text).bind next) cs := by
  -- What is read on in front of more text, is read behind the same front.
  have hbehind : ∀ {value behind front rest}, read cs = .done value behind →
      behind = front ++ rest → rest ≠ [] → ∃ whole, cs = whole ++ rest ∧
        ∀ other, other.head? = rest.head? →
          (read (whole ++ other)).bind next = next value (front ++ other) := by
    rintro value behind front rest hread rfl hrest
    obtain ⟨before, hcs, hbefore⟩ := h.done value _ hread (by simp [hrest])
    refine ⟨before ++ front, by rw [hcs, List.append_assoc], fun other hother => ?_⟩
    rw [List.append_assoc, hbefore]
    · rfl
    · rw [List.head?_append, List.head?_append, hother]
  constructor
  · intro value rest hdone hrest
    cases hread : read cs with
    | done first behind =>
        rw [hread] at hdone
        obtain ⟨front, hsplit, hfront⟩ := (hnext first behind hread).done value rest hdone hrest
        obtain ⟨whole, hcs, hwhole⟩ := hbehind hread hsplit hrest
        exact ⟨whole, hcs, fun other hother => (hwhole other hother).trans (hfront other hother)⟩
    | refused _ _ => simp [hread, Outcome.bind] at hdone
    | cut => simp [hread, Outcome.bind] at hdone
  · intro found rest hrefused
    cases hread : read cs with
    | done first behind =>
        rw [hread] at hrefused
        obtain ⟨front, hsplit, hfront⟩ := (hnext first behind hread).refused found rest hrefused
        obtain ⟨whole, hcs, hwhole⟩ := hbehind hread hsplit (List.cons_ne_nil _ _)
        exact ⟨whole, hcs, fun other => (hwhole (found :: other) rfl).trans (hfront other)⟩
    | refused other text =>
        rw [hread] at hrefused
        cases hrefused
        obtain ⟨front, hcs, hfront⟩ := h.refused found rest hread
        exact ⟨front, hcs, fun other => by rw [hfront]; rfl⟩
    | cut => simp [hread, Outcome.bind] at hrefused

/-- Reading behind blanks is prompt. -/
theorem behindBlanks (h : Prompt read (skipBlanks cs))
    (hsame : ∀ text, other text = read (skipBlanks text)) : Prompt other cs := by
  obtain ⟨blanks, hblanks, hcs⟩ := Text.exists_blanks cs
  -- A text that starts like what is left behind the blanks has no blanks to skip.
  have hskip : ∀ {front rest more}, skipBlanks cs = front ++ rest → rest ≠ [] →
      more.head? = rest.head? → other (blanks ++ (front ++ more)) = read (front ++ more) := by
    intro front rest more hsplit hrest hmore
    rw [hsame, hblanks.skipBlanks_append, Text.skipBlanks_of_head?]
    intro c hc
    have hhead : (skipBlanks cs).head? = some c := by
      rw [hsplit, ← hc, List.head?_append, List.head?_append, hmore]
    obtain ⟨tail, htail⟩ := List.head?_eq_some_iff.mp hhead
    exact Text.not_isBlank_of_skipBlanks htail
  constructor
  · intro value rest hdone hrest
    rw [hsame] at hdone
    obtain ⟨front, hsplit, hfront⟩ := h.done value rest hdone hrest
    refine ⟨blanks ++ front, by rw [hcs, hsplit, List.append_assoc], fun more hmore => ?_⟩
    rw [List.append_assoc, hskip hsplit hrest hmore, hfront more hmore]
  · intro found rest hrefused
    rw [hsame] at hrefused
    obtain ⟨front, hsplit, hfront⟩ := h.refused found rest hrefused
    refine ⟨blanks ++ front, by rw [hcs, hsplit, List.append_assoc], fun more => ?_⟩
    have hread := @hskip front (found :: rest) (found :: more) hsplit (List.cons_ne_nil _ _) rfl
    rw [List.append_assoc, hread, hfront more]

/-- At the end of a text nothing is refused and nothing is left. -/
theorem nil (h : read [] = .cut ∨ ∃ value, read [] = .done value []) : Prompt read [] := by
  rcases h with hcut | ⟨value, hdone⟩
  · constructor
    · intro value rest h
      simp [hcut] at h
    · intro found rest h
      simp [hcut] at h
  · constructor
    · intro other rest h hrest
      rw [hdone] at h
      cases h
      exact absurd rfl hrest
    · intro found rest h
      simp [hdone] at h

/-- A reader that takes a character and reads on is prompt. -/
theorem cons {step : List Char → Outcome α} (h : Prompt step cs)
    (hsame : ∀ text, read (c :: text) = step text) : Prompt read (c :: cs) := by
  constructor
  · intro value rest hdone hrest
    rw [hsame] at hdone
    obtain ⟨front, rfl, hfront⟩ := h.done value rest hdone hrest
    exact ⟨c :: front, rfl, fun other hother => (hsame _).trans (hfront other hother)⟩
  · intro found rest hrefused
    rw [hsame] at hrefused
    obtain ⟨front, rfl, hfront⟩ := h.refused found rest hrefused
    exact ⟨c :: front, rfl, fun other => (hsame _).trans (hfront other)⟩

/-- A reader that stops in front of a character is prompt. -/
theorem stay (value : α) (hstay : ∀ text, read (c :: text) = .done value (c :: text)) :
    Prompt read (c :: cs) := by
  constructor
  · intro _ rest hdone _
    rw [hstay] at hdone
    cases hdone
    refine ⟨[], rfl, fun other hother => ?_⟩
    obtain ⟨tail, rfl⟩ := List.head?_eq_some_iff.mp hother
    exact hstay tail
  · intro found rest hrefused
    rw [hstay] at hrefused
    cases hrefused

/-- A reader that refuses a character is prompt. -/
theorem refuse (hrefuse : ∀ text, read (c :: text) = .refused c text) : Prompt read (c :: cs) := by
  constructor
  · intro _ rest hdone _
    rw [hrefuse] at hdone
    cases hdone
  · intro found rest hrefused
    rw [hrefuse] at hrefused
    cases hrefused
    exact ⟨[], rfl, hrefuse⟩

end Prompt

/-! ## Heads -/

/-- A name is read up to the next character that may not stand in it. -/
theorem prompt_name (c : Char) (cs : List Char) :
    Prompt (fun text => .done (String.ofList (c :: text.takeWhile isNameChar))
      (text.dropWhile isNameChar)) cs where
  refused := nofun
  done := by
    rintro _ _ h hrest
    cases h
    refine ⟨cs.takeWhile isNameChar, List.takeWhile_append_dropWhile.symm, fun other hother => ?_⟩
    have hname : ∀ d ∈ cs.takeWhile isNameChar, isNameChar d = true :=
      fun d hd => List.mem_takeWhile_imp hd
    have hstop : other.takeWhile isNameChar = [] ∧ other.dropWhile isNameChar = other := by
      obtain ⟨d, behind, hbehind⟩ := List.exists_cons_of_ne_nil hrest
      rw [hbehind] at hother
      obtain ⟨tail, rfl⟩ := List.head?_eq_some_iff.mp hother
      have hd : isNameChar d = false := by
        simpa [hbehind] using List.head?_dropWhile_not isNameChar cs
      simp [hd]
    rw [List.takeWhile_append_of_pos hname, List.dropWhile_append_of_pos hname, hstop.1, hstop.2,
      List.append_nil]

/-- A tuple is read up to the bracket that closes it, whatever stands behind. -/
theorem prompt_tuple (cs : List Char) :
    Prompt (fun text => match readTuple 0 text with
      | none => .cut
      | some (inner, rest) => .done (String.ofList ('(' :: inner)) rest.1) cs := by
  constructor
  · intro value rest hdone _
    cases hread : readTuple 0 cs with
    | none => simp [hread] at hdone
    | some read =>
        obtain ⟨inner, behind⟩ := read
        rw [hread] at hdone
        cases hdone
        refine ⟨inner, eq_append_of_readTuple hread, fun other _ => ?_⟩
        obtain ⟨_, hother⟩ := readTuple_append (closes_of_readTuple hread) other
        simp [hother]
  · intro found rest hrefused
    split at hrefused <;> cases hrefused

/-- Reading a head is prompt. -/
theorem prompt_readHead (cs : List Char) : Prompt (fun text => outcome (readHead text)) cs := by
  cases cs with
  | nil => exact .nil (Or.inl rfl)
  | cons c cs =>
      by_cases htuple : c = '('
      · subst htuple
        refine .cons (prompt_tuple cs) fun text => ?_
        cases hread : readTuple 0 text <;> simp [readHead, hread, outcome]
      · by_cases hname : (isNameChar c && c != '.') = true
        · refine .cons (prompt_name c cs) fun text => ?_
          simp [readHead, htuple, hname, outcome]
        · refine .refuse fun text => ?_
          simp [readHead, htuple, hname, outcome]

/-! ## Marks -/

/-- The outcome of an array rank, which is read character by character. -/
theorem outcome_readRank_cons (opened : List Char) (c : Char) (cs : List Char) :
    outcome (readRank opened (c :: cs)) =
      if c = ']' then .done [']'] cs
      else if c = ',' then
        (outcome (readRank opened cs)).bind fun marks rest => .done (',' :: marks) rest
      else if Text.isBlank c then outcome (readRank opened cs)
      else .refused c cs := by
  rw [readRank]
  split
  · rfl
  · split
    · exact outcome_bind fun _ => rfl
    · split
      · cases readRank opened cs with
        | error failure => cases failure <;> rfl
        | ok read => rfl
      · rfl

/-- Where an array rank is opened does not matter for its outcome. -/
theorem outcome_readRank (opened cs : List Char) :
    outcome (readRank opened cs) = outcome (readRank [] cs) := by
  induction cs with
  | nil => rfl
  | cons c cs ih => rw [outcome_readRank_cons, outcome_readRank_cons, ih]

/-- Reading an array rank is prompt. -/
theorem prompt_readRank (cs : List Char) : Prompt (fun text => outcome (readRank [] text)) cs := by
  induction cs with
  | nil => exact .nil (Or.inl rfl)
  | cons c cs ih =>
      by_cases hclosing : c = ']'
      · exact .cons (.pure [']'] cs) fun text => by simp [outcome_readRank_cons, hclosing]
      · by_cases hcomma : c = ','
        · exact .cons (ih.bind fun marks rest _ => .pure (',' :: marks) rest) fun text => by
            simp [outcome_readRank_cons, hcomma]
        · by_cases hblank : Text.isBlank c = true
          · exact .cons ih fun text => by
              simp [outcome_readRank_cons, hclosing, hcomma, hblank]
          · exact .refuse fun text => by
              simp [outcome_readRank_cons, hclosing, hcomma, hblank]

/-- The outcome of marks where there are no blanks in front of them. -/
def marksOutcome : List Char → Outcome (List Char)
  | [] => .done [] []
  | c :: after =>
    if c = '?' ∨ c = '*' then
      (outcome (readMarks after)).bind fun marks rest => .done (c :: marks) rest
    else if c = '[' then
      (outcome (readRank [] after)).bind fun rank behind =>
        (outcome (readMarks behind)).bind fun marks rest => .done ('[' :: rank ++ marks) rest
    else .done [] (c :: after)

/-- The outcome of marks depends on what stands behind the blanks in front of them. -/
theorem outcome_readMarks (cs : List Char) :
    outcome (readMarks cs) = marksOutcome (skipBlanks cs) := by
  rw [readMarks]
  split
  · rename_i hskip
    rw [hskip]
    rfl
  · rename_i c after hskip
    refine Eq.trans ?_ (congrArg marksOutcome hskip).symm
    simp only [marksOutcome]
    split
    · exact outcome_bind fun _ => rfl
    · split
      · rw [← outcome_readRank after]
        exact outcome_bind fun _ => outcome_bind fun _ => rfl
      · rfl

/-- Reading marks is prompt. -/
theorem prompt_readMarks (cs : List Char) : Prompt (fun text => outcome (readMarks text)) cs := by
  obtain ⟨length, hlength⟩ : ∃ length, cs.length = length := ⟨_, rfl⟩
  induction length using Nat.strongRecOn generalizing cs with
  | ind length ih =>
      refine .behindBlanks ?_ outcome_readMarks
      cases hskip : skipBlanks cs with
      | nil => exact .nil (Or.inr ⟨_, rfl⟩)
      | cons c after =>
          have hless : after.length < length := hlength ▸ Text.length_lt_of_skipBlanks hskip
          by_cases hmark : c = '?' ∨ c = '*'
          · exact .cons ((ih _ hless after rfl).bind fun marks rest _ => .pure (c :: marks) rest)
              fun text => by simp [marksOutcome, hmark]
          · by_cases hopening : c = '['
            · refine .cons ((prompt_readRank after).bind fun rank behind hrank =>
                (Prompt.bind (ih _ ?_ behind rfl) fun marks rest _ =>
                  .pure ('[' :: rank ++ marks) rest)) fun text => by
                    simp [marksOutcome, hopening]
              obtain ⟨hbehind, _⟩ := outcome_eq_done_iff.mp hrank
              exact Nat.lt_trans hbehind hless
            · exact .stay [] fun text => by simp [marksOutcome, hmark, hopening]

/-! ## Types -/

/-- The outcome of a type is that of its head, its arguments and its marks. -/
theorem outcome_readType (cs : List Char) :
    outcome (readType cs) = (outcome (readHead (skipBlanks cs))).bind fun head afterHead =>
      (outcome (readArguments afterHead)).bind fun arguments afterArguments =>
        (outcome (readMarks afterArguments)).bind fun marks rest =>
          .done ⟨head, arguments, String.ofList marks⟩ rest := by
  rw [readType]
  exact outcome_bind fun _ => outcome_bind fun _ => outcome_bind fun _ => rfl

/-- The outcome of a list behind its first type. -/
def listOutcome (opened : List Char) (first : TypeExpr) : List Char → Outcome (List TypeExpr)
  | [] => .cut
  | c :: after =>
    if c = ',' then
      (outcome (readArgumentList opened after)).bind fun others rest => .done (first :: others) rest
    else if c = '>' then .done [first] after
    else .refused c after

/-- The outcome of a list is that of its first type and of what stands behind it. -/
theorem outcome_readArgumentList_eq (opened cs : List Char) :
    outcome (readArgumentList opened cs) = (outcome (readType cs)).bind fun first behind =>
      listOutcome opened first (skipBlanks behind) := by
  rw [readArgumentList]
  refine outcome_bind fun ⟨first, behind, hbehind⟩ => ?_
  dsimp only
  split
  · rename_i hskip
    rw [hskip]
    rfl
  · rename_i c after hskip
    refine Eq.trans ?_ (congrArg (listOutcome opened first) hskip).symm
    simp only [listOutcome]
    split
    · exact outcome_bind fun _ => rfl
    · split <;> rfl

/-- Where a list is opened does not matter for its outcome. -/
theorem outcome_readArgumentList (opened cs : List Char) :
    outcome (readArgumentList opened cs) = outcome (readArgumentList [] cs) := by
  obtain ⟨length, hlength⟩ : ∃ length, cs.length = length := ⟨_, rfl⟩
  induction length using Nat.strongRecOn generalizing cs with
  | ind length ih =>
      rw [outcome_readArgumentList_eq, outcome_readArgumentList_eq]
      cases hfirst : outcome (readType cs) with
      | refused found rest => rfl
      | cut => rfl
      | done first behind =>
          obtain ⟨hbehind, _⟩ := outcome_eq_done_iff.mp hfirst
          show listOutcome _ _ _ = listOutcome _ _ _
          cases hskip : skipBlanks behind with
          | nil => rfl
          | cons c after =>
              have hless : after.length < length :=
                hlength ▸ Nat.lt_trans (Text.length_lt_of_skipBlanks hskip) hbehind
              simp only [listOutcome]
              rw [ih _ hless after rfl]

/-- The outcome of arguments where there are no blanks in front of them. -/
def argumentsOutcome : List Char → Outcome (List TypeExpr)
  | '<' :: opened => outcome (readArgumentList [] opened)
  | rest => .done [] rest

/-- The outcome of arguments depends on what stands behind the blanks in front of them. -/
theorem outcome_readArguments (cs : List Char) :
    outcome (readArguments cs) = argumentsOutcome (skipBlanks cs) := by
  rw [readArguments]
  split
  · rename_i opened hskip
    refine Eq.trans ?_ (congrArg argumentsOutcome hskip).symm
    show _ = outcome (readArgumentList [] opened)
    rw [← outcome_readArgumentList opened]
    cases readArgumentList opened opened with
    | error failure => cases failure <;> rfl
    | ok read => rfl
  · rename_i hother
    unfold argumentsOutcome
    split
    · rename_i opened hskip
      exact absurd hskip (hother opened)
    · rfl

/-- Reading a type is prompt if reading the arguments behind its head is. -/
theorem prompt_readType_of_arguments {cs : List Char}
    (h : ∀ tail : List Char, tail.length < cs.length →
      Prompt (fun text => outcome (readArguments text)) tail) :
    Prompt (fun text => outcome (readType text)) cs := by
  refine .behindBlanks ((prompt_readHead _).bind fun head afterHead hhead =>
    (h afterHead ?_).bind fun arguments afterArguments _ =>
      (prompt_readMarks afterArguments).bind fun marks rest _ => .pure _ rest) outcome_readType
  obtain ⟨hshorter, _⟩ := outcome_eq_done_iff.mp hhead
  exact Nat.lt_of_lt_of_le hshorter (Text.length_skipBlanks_le cs)

/-- Reading arguments is prompt if reading the list behind the opening bracket is. -/
theorem prompt_readArguments_of_list {cs : List Char}
    (h : ∀ opened : List Char, opened.length < cs.length →
      Prompt (fun text => outcome (readArgumentList [] text)) opened) :
    Prompt (fun text => outcome (readArguments text)) cs := by
  refine .behindBlanks ?_ outcome_readArguments
  cases hskip : skipBlanks cs with
  | nil => exact .nil (Or.inr ⟨_, rfl⟩)
  | cons c opened =>
      by_cases hopening : c = '<'
      · subst hopening
        exact .cons (h opened (Text.length_lt_of_skipBlanks hskip)) fun _ => rfl
      · exact .stay [] fun text => by simp [argumentsOutcome, hopening]

/-- Reading a list is prompt if reading its first type is and the list behind a comma. -/
theorem prompt_readArgumentList_of_type {cs : List Char}
    (htype : Prompt (fun text => outcome (readType text)) cs)
    (h : ∀ after : List Char, after.length < cs.length →
      Prompt (fun text => outcome (readArgumentList [] text)) after) :
    Prompt (fun text => outcome (readArgumentList [] text)) cs := by
  refine (htype.bind fun first behind hfirst => ?_).congr (outcome_readArgumentList_eq [])
  obtain ⟨hbehind, _⟩ := outcome_eq_done_iff.mp hfirst
  refine Prompt.behindBlanks (?_ : Prompt (listOutcome [] first) (skipBlanks behind)) fun _ => rfl
  cases hskip : skipBlanks behind with
  | nil => exact .nil (Or.inl rfl)
  | cons c after =>
      have hless : after.length < cs.length :=
        Nat.lt_trans (Text.length_lt_of_skipBlanks hskip) hbehind
      by_cases hcomma : c = ','
      · exact .cons ((h after hless).bind fun others rest _ => .pure (first :: others) rest)
          fun text => by simp [listOutcome, hcomma]
      · by_cases hclosing : c = '>'
        · exact .cons (.pure [first] after) fun text => by simp [listOutcome, hclosing]
        · exact .refuse fun text => by simp [listOutcome, hcomma, hclosing]

/-- Reading types, arguments and lists is prompt. -/
theorem prompt_read (cs : List Char) :
    Prompt (fun text => outcome (readType text)) cs ∧
      Prompt (fun text => outcome (readArguments text)) cs ∧
      Prompt (fun text => outcome (readArgumentList [] text)) cs := by
  obtain ⟨length, hlength⟩ : ∃ length, cs.length = length := ⟨_, rfl⟩
  induction length using Nat.strongRecOn generalizing cs with
  | ind length ih =>
      subst hlength
      have htype := prompt_readType_of_arguments fun tail hless => (ih _ hless tail rfl).2.1
      exact ⟨htype, prompt_readArguments_of_list fun opened hless => (ih _ hless opened rfl).2.2,
        prompt_readArgumentList_of_type htype fun after hless => (ih _ hless after rfl).2.2⟩

/-- Reading a type is prompt. -/
theorem prompt_readType (cs : List Char) : Prompt (fun text => outcome (readType text)) cs :=
  (prompt_read cs).1

end RadioBroker.TypeExpr
