import RadioBroker.Proofs.TypeExpr.Renaming
import RadioBroker.Proofs.TypeExpr.Words

/-!
# Names that stand alone

A name stands alone in a text where it is a longest run of name characters and no angle bracket
opens behind it. In a written type these are the heads without arguments, and the names that stand
alone in tuples. Arguments in place of parameters replace all such heads that are parameters; tuples
are heads themselves and keep their text, so a parameter that stands alone in a tuple is still
there. -/

namespace RadioBroker.TypeExpr

variable {name front rest text : List Char} {c : Char}

/-! ## Standing alone -/

/-- What stands between two texts continues no name of theirs and is not applied to arguments. -/
def IsGap (front rest : List Char) : Prop :=
  (∀ c ∈ front.getLast?, isNameChar c = false) ∧ ∀ c ∈ rest.head?, isNameChar c = false ∧ c ≠ '<'

/-- A name stands alone in a text: it is a longest run of name characters, and not followed by an
opening angle bracket. -/
def StandsIn (name text : List Char) : Prop :=
  name ≠ [] ∧ (∀ c ∈ name, isNameChar c = true) ∧
    ∃ front rest, text = front ++ (name ++ rest) ∧ IsGap front rest

/-- Nothing stands in a text without name characters. -/
theorem not_standsIn_of_forall (htext : ∀ c ∈ text, isNameChar c = false) :
    ¬ StandsIn name text := by
  rintro ⟨hne, hname, front, rest, rfl, _⟩
  obtain ⟨c, hc⟩ := List.exists_mem_of_ne_nil name hne
  have hno := htext c (List.mem_append_right _ (List.mem_append_left _ hc))
  exact Bool.false_ne_true (hno.symm.trans (hname c hc))

/-- What stands alone in a text is a word of it. -/
theorem StandsIn.mem_words (h : StandsIn name text) : name ∈ words text := by
  obtain ⟨hne, hname, front, rest, rfl, hbefore, hbehind⟩ := h
  have hbehindWord : name ∈ words (name ++ rest) := by
    cases rest with
    | nil => simp [words_of_forall hne hname]
    | cons c rest =>
        rw [words_append_cons (hbehind c rfl).1, words_of_forall hne hname]
        exact List.mem_cons_self
  rcases List.eq_nil_or_concat front with rfl | ⟨before, last, rfl⟩
  · exact hbehindWord
  · rw [List.concat_eq_append, List.append_assoc, List.singleton_append,
      words_append_cons (hbefore last (by simp))]
    exact List.mem_append_right _ hbehindWord

/-- A character that no name has stands in no name. -/
theorem notMem_of_forall (hname : ∀ d ∈ name, isNameChar d = true) (hc : isNameChar c = false) :
    c ∉ name :=
  fun hmem => Bool.false_ne_true (hc.symm.trans (hname c hmem))

/-- Behind a gap only the first character matters. -/
theorem isGap_append_cons {before more : List Char} :
    IsGap before (more ++ c :: rest) ↔ IsGap before (more ++ [c]) := by
  cases more <;> exact Iff.rfl

/-- A character that no name has cuts a text in two, of which the first one ends with it. -/
theorem standsIn_append_cons (hc : isNameChar c = false) :
    StandsIn name (front ++ c :: rest) ↔ StandsIn name (front ++ [c]) ∨ StandsIn name rest := by
  constructor
  · rintro ⟨hne, hname, before, behind, htext, hgap⟩
    rcases Text.eq_append_of_append_cons (notMem_of_forall hname hc) htext with
      ⟨more, rfl, rfl⟩ | ⟨more, rfl, rfl⟩
    · refine Or.inr ⟨hne, hname, more, behind, rfl, fun d hd => hgap.1 d ?_, hgap.2⟩
      rw [List.append_cons]
      exact List.mem_getLast?_append_of_mem_getLast? hd
    · exact Or.inl ⟨hne, hname, before, more ++ [c], by simp, isGap_append_cons.mp hgap⟩
  · rintro (⟨hne, hname, before, behind, htext, hgap⟩ | ⟨hne, hname, before, behind, rfl, hgap⟩)
    · rcases Text.eq_append_of_append_cons (notMem_of_forall hname hc) htext with
        ⟨more, _, hnil⟩ | ⟨more, rfl, rfl⟩
      · simp [hne] at hnil
      · exact ⟨hne, hname, before, more ++ c :: rest, by simp, isGap_append_cons.mpr hgap⟩
    · refine ⟨hne, hname, front ++ c :: before, behind, by simp, fun d hd => ?_, hgap.2⟩
      rw [List.getLast?_append, List.getLast?_cons, Option.some_or] at hd
      cases hlast : before.getLast? with
      | none =>
          rw [hlast] at hd
          cases hd
          exact hc
      | some last =>
          rw [hlast] at hd
          cases hd
          exact hgap.1 _ hlast

/-- A character that continues no name and opens no arguments ends what stands in front of it. -/
theorem standsIn_concat (hc : isNameChar c = false) (hopening : c ≠ '<') :
    StandsIn name (front ++ [c]) ↔ StandsIn name front := by
  constructor
  · rintro ⟨hne, hname, before, behind, htext, hgap⟩
    rcases Text.eq_append_of_append_cons (notMem_of_forall hname hc) htext with
      ⟨more, _, hnil⟩ | ⟨more, rfl, rfl⟩
    · simp [hne] at hnil
    · refine ⟨hne, hname, before, more, rfl, hgap.1, fun d hd => hgap.2 d ?_⟩
      exact List.mem_head?_append_of_mem_head? hd
  · rintro ⟨hne, hname, before, behind, rfl, hgap⟩
    refine ⟨hne, hname, before, behind ++ [c], by simp, hgap.1, fun d hd => ?_⟩
    cases behind with
    | nil =>
        cases hd
        exact ⟨hc, hopening⟩
    | cons e behind => exact hgap.2 d hd

/-- Texts that such a character separates are searched one by one. -/
theorem standsIn_separated (hc : isNameChar c = false) (hopening : c ≠ '<') :
    StandsIn name (front ++ c :: rest) ↔ StandsIn name front ∨ StandsIn name rest := by
  rw [standsIn_append_cons hc, standsIn_concat hc hopening]

/-- Such characters behind a text change nothing. -/
theorem standsIn_append_of_forall (hrest : ∀ c ∈ rest, isNameChar c = false ∧ c ≠ '<') :
    StandsIn name (front ++ rest) ↔ StandsIn name front := by
  induction rest generalizing front with
  | nil => rw [List.append_nil]
  | cons c rest ih =>
      obtain ⟨⟨hc, hopening⟩, hrest⟩ := List.forall_mem_cons.mp hrest
      rw [List.append_cons, ih hrest, standsIn_concat hc hopening]

/-- In a text of name characters only the text itself stands alone. -/
theorem StandsIn.eq_of_forall (h : StandsIn name text) (htext : ∀ c ∈ text, isNameChar c = true) :
    name = text := by
  obtain ⟨_, _, before, behind, rfl, hgap⟩ := h
  rw [List.forall_mem_append, List.forall_mem_append] at htext
  have hbefore : before.getLast? = none := by
    refine Option.eq_none_iff_forall_not_mem.mpr fun c hc => ?_
    have hname := htext.1 c (List.mem_of_mem_getLast? hc)
    exact Bool.false_ne_true ((hgap.1 c hc).symm.trans hname)
  have hbehind : behind.head? = none := by
    refine Option.eq_none_iff_forall_not_mem.mpr fun c hc => ?_
    have hname := htext.2.2 c (List.mem_of_mem_head? hc)
    exact Bool.false_ne_true ((hgap.2 c hc).1.symm.trans hname)
  rw [List.getLast?_eq_none_iff.mp hbefore, List.head?_eq_none_iff.mp hbehind]
  simp

/-! ## Standing alone in written types -/

/-- A bracket stands in no name. -/
theorem isNameChar_bracket : isNameChar '(' = false ∧ isNameChar ')' = false := by decide +kernel

/-- A name is no tuple. -/
theorem IsName.not_isTuple (h : IsName text) : ¬ IsTuple text := by
  rintro ⟨inner, _, rfl⟩
  exact Bool.false_ne_true (isNameChar_bracket.1.symm.trans (h.2.1 '(' List.mem_cons_self))

/-- A name in front of an angle bracket does not stand alone. -/
theorem not_standsIn_applied (htext : ∀ c ∈ text, isNameChar c = true) :
    ¬ StandsIn name (text ++ ['<']) := by
  have hopening : isNameChar '<' = false := isNameChar_eq_false_of_mem (by simp)
  rintro ⟨hne, hname, before, behind, hsplit, hgap⟩
  rcases Text.eq_append_of_append_cons (notMem_of_forall hname hopening) hsplit with
    ⟨more, _, hnil⟩ | ⟨more, rfl, rfl⟩
  · simp [hne] at hnil
  · cases more with
    | nil => exact (hgap.2 '<' rfl).2 rfl
    | cons c more =>
        have hc := htext c (by simp)
        exact Bool.false_ne_true ((hgap.2 c rfl).1.symm.trans hc)

/-- What stands in a head that is applied stands in a tuple. -/
theorem standsIn_applied (h : IsHead text) :
    StandsIn name (text ++ '<' :: rest) ↔
      (IsTuple text ∧ StandsIn name text) ∨ StandsIn name rest := by
  have hopening : isNameChar '<' = false := isNameChar_eq_false_of_mem (by simp)
  rw [standsIn_append_cons hopening]
  refine or_congr_left ?_
  rcases isHead_iff.mp h with hname | htuple
  · exact ⟨fun hstands => absurd hstands (not_standsIn_applied hname.2.1),
      fun hstands => absurd hstands.1 hname.not_isTuple⟩
  · obtain ⟨inner, _, rfl⟩ := id htuple
    have hclosing : isNameChar ')' = false := isNameChar_bracket.2
    have hnothing : ¬ StandsIn name ['<'] := not_standsIn_of_forall (by simpa using hopening)
    have hassoc : '(' :: (inner ++ [')']) ++ ['<'] = '(' :: inner ++ ')' :: ['<'] := by simp
    rw [hassoc, standsIn_separated hclosing (by decide), ← List.cons_append,
      standsIn_concat hclosing (by decide)]
    simp [hnothing, htuple]

/-- What stands in written types stands in one of them. -/
theorem standsIn_joined {ts : List TypeExpr} :
    StandsIn name (joined ts) ↔ ∃ t ∈ ts, StandsIn name t.display.toList := by
  have hcomma : isNameChar ',' = false := isNameChar_eq_false_of_mem (by simp)
  have hblank : isNameChar ' ' = false := by decide +kernel
  have hnothing : ¬ StandsIn name [] := not_standsIn_of_forall (List.forall_mem_nil _)
  induction ts with
  | nil => simpa [joined] using hnothing
  | cons t ts ih =>
      cases ts with
      | nil => simp [joined]
      | cons second others =>
          have hothers : StandsIn name (' ' :: joined (second :: others)) ↔
              StandsIn name [] ∨ StandsIn name (joined (second :: others)) :=
            @standsIn_separated name [] _ ' ' hblank (by decide)
          rw [joined_cons_cons, standsIn_separated hcomma (by decide), hothers,
            or_iff_right hnothing, List.exists_mem_cons_iff]
          exact or_congr_right ih

/-- Marks continue no name and open no arguments. -/
theorem IsMarks.not_mem_name {marks : List Char} (h : IsMarks marks) :
    ∀ c ∈ marks, isNameChar c = false ∧ c ≠ '<' := by
  induction h with
  | nil => nofun
  | @mark c cs hmark _ ih =>
      refine List.forall_mem_cons.mpr ⟨?_, ih⟩
      rcases hmark with rfl | rfl <;> decide +kernel
  | @rank cs commas _ ih =>
      intro c hc
      rw [List.mem_cons, List.mem_append, List.mem_cons] at hc
      rcases hc with rfl | hcomma | rfl | hrest
      · decide +kernel
      · rw [List.eq_of_mem_replicate hcomma]
        decide +kernel
      · decide +kernel
      · exact ih c hrest

/-- Marks behind a type change nothing. -/
theorem standsIn_append_marks {marks : List Char} (h : IsMarks marks) :
    StandsIn name (front ++ marks) ↔ StandsIn name front :=
  standsIn_append_of_forall h.not_mem_name

/-! ## Arguments in place of parameters -/

mutual

/-- The heads in a type, at any depth, that arguments in place of parameters leave there. -/
def keptHeads (parameters : List String) : TypeExpr → List String
  | ⟨head, [], _⟩ => if head ∈ parameters then [] else [head]
  | ⟨head, first :: others, _⟩ => head :: keptHeadsIn parameters (first :: others)

/-- The heads in several types, at any depth, that arguments in place of parameters leave there. -/
def keptHeadsIn (parameters : List String) : List TypeExpr → List String
  | [] => []
  | t :: ts => keptHeads parameters t ++ keptHeadsIn parameters ts

end

@[simp] theorem keptHeadsIn_eq_flatMap (parameters : List String) (ts : List TypeExpr) :
    keptHeadsIn parameters ts = ts.flatMap (keptHeads parameters) := by
  induction ts with
  | nil => rfl
  | cons t ts ih => simp [keptHeadsIn, ih]

/-- A parameter stands alone in a tuple that is kept. -/
def Survives (parameters : List String) (parameter : String) (t : TypeExpr) : Prop :=
  ∃ head ∈ t.keptHeads parameters, IsTuple head.toList ∧ StandsIn parameter.toList head.toList

variable {parameters : List String} {arguments : List TypeExpr} {parameter : String}

/-- The written form of a type with more marks. -/
theorem display_withSuffix (t : TypeExpr) (marks : String) :
    (t.withSuffix marks).display = t.display ++ marks := by
  obtain ⟨head, inner, suffix⟩ := t
  simp only [withSuffix, display_mk, String.append_assoc]

/-- A head that is no parameter has a parameter standing in it only if it is a tuple. -/
theorem standsIn_head {head : String} (hhead : IsHead head.toList)
    (hparameter : parameter ∈ parameters) (hkept : head ∉ parameters) :
    StandsIn parameter.toList head.toList ↔
      IsTuple head.toList ∧ StandsIn parameter.toList head.toList := by
  refine ⟨fun hstands => ⟨(isHead_iff.mp hhead).resolve_left fun hname => ?_, hstands⟩, And.right⟩
  have hsame := String.toList_inj.mp (hstands.eq_of_forall hname.2.1)
  exact hkept (hsame ▸ hparameter)

/-- Where no parameter stands in the arguments, the parameters that stand in a type after the
arguments are put in their place are those that stand in tuples that are kept. -/
theorem WellFormed.standsIn_substitute {t : TypeExpr} (h : t.WellFormed)
    (hlength : parameters.length = arguments.length) (hparameter : parameter ∈ parameters)
    (hfresh : ∀ argument ∈ arguments, ¬ StandsIn parameter.toList argument.display.toList) :
    StandsIn parameter.toList (t.substitute parameters arguments).display.toList ↔
      t.Survives parameters parameter := by
  induction h with
  | @mk head suffix inner hhead hinner hsuffix ih =>
      cases inner with
      | nil =>
          rw [TypeExpr.substitute, display_withSuffix, String.toList_append,
            standsIn_append_marks hsuffix, Survives, keptHeads]
          by_cases hreplaced : head ∈ parameters
          · obtain ⟨argument, hargument⟩ := exists_argumentFor hreplaced hlength
            rw [hargument, Option.getD_some, if_pos hreplaced]
            simpa using hfresh argument (mem_of_argumentFor hargument)
          · rw [argumentFor_of_notMem hreplaced, Option.getD_none, display_named, if_neg hreplaced,
              standsIn_head hhead hparameter hreplaced]
            simp
      | cons first others =>
          have hclosing : isNameChar '>' = false := isNameChar_eq_false_of_mem (by simp)
          have hwritten : ((⟨head, first :: others, suffix⟩ : TypeExpr).substitute parameters
              arguments).display.toList = head.toList ++ '<' :: (joined ((first :: others).map
                (TypeExpr.substitute parameters arguments)) ++ ['>']) ++ suffix.toList := by
            rw [TypeExpr.substitute, substituteList_eq_map, toList_display]
            simp
          rw [hwritten, standsIn_append_marks hsuffix, standsIn_applied hhead,
            standsIn_concat hclosing (by decide), standsIn_joined, Survives, keptHeads,
            keptHeadsIn_eq_flatMap, List.exists_mem_cons_iff]
          refine or_congr_right ?_
          calc (∃ s ∈ (first :: others).map (TypeExpr.substitute parameters arguments),
                  StandsIn parameter.toList s.display.toList)
              ↔ ∃ t ∈ first :: others, t.Survives parameters parameter := by
                simp only [List.mem_map, exists_exists_and_eq_and]
                exact exists_congr fun t => and_congr_right (ih t)
            _ ↔ _ := by
                simp only [Survives, List.mem_flatMap]
                tauto

end RadioBroker.TypeExpr
