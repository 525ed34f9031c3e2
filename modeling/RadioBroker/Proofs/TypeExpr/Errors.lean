import RadioBroker.Proofs.TypeExpr.Lookahead
import RadioBroker.Proofs.TypeExpr.Unfinished

/-!
# What the errors of types say

A text that is not a type is either the start of one, or no text that starts like it is a type. The
kind of error tells which, and it is right on every text: empty and unclosed texts can be completed,
an unexpected character and trailing input are there whatever stands behind them. Errors point at
the byte offset of the character that they name.
-/

namespace RadioBroker.TypeExpr

open Text (skipBlanks isBlank)

/-! ## Errors that no text behind them changes -/

/-- A character that is refused is refused in each text that is the same up to it. -/
theorem parse_of_unexpected {text : String} {found : Char} {rest : List Char}
    (h : readType text.toList = .error (.unexpected found rest)) :
    ∃ before, text.toList = before ++ found :: rest ∧
      ∀ other : String, ∀ more, other.toList = before ++ found :: more →
        parse other = .error (.unexpectedChar found (Text.byteLength before)) := by
  obtain ⟨before, htext, hbefore⟩ :=
    (prompt_readType text.toList).refused found rest (outcome_eq_refused_iff.mpr h)
  refine ⟨before, htext, fun other more hother => ?_⟩
  have hread := outcome_eq_refused_iff.mp (hbefore more)
  rw [← hother] at hread
  have hparse := parse_of_readType_error hread
  rwa [Failure.toError, hother, byteLength_sub] at hparse

/-- What is left behind a whole type is trailing input. -/
theorem parse_of_rest {text : String} {t : TypeExpr} {c : Char} {before behind : List Char}
    (h : ∃ hshorter, readType text.toList = .ok (t, ⟨c :: behind, hshorter⟩))
    (hblank : isBlank c = false) (htext : text.toList = before ++ c :: behind) :
    parse text = .error (.trailingInput (Text.byteLength before)) := by
  obtain ⟨hshorter, hread⟩ := h
  have hsome : skipBlanks text.toList ≠ [] := by
    intro hnone
    rw [readType_of_skipBlanks_eq_nil hnone] at hread
    cases hread
  unfold parse parseChars
  rw [if_neg hsome, hread]
  dsimp only
  rw [Text.skipBlanks_cons hblank]
  dsimp only
  rw [htext, byteLength_sub]

/-- Trailing input stands behind a whole type in each text that is the same up to its first
character, which is not blank. -/
theorem parse_of_trailing {text : String} {t : TypeExpr} {rest : Text.Shorter text.toList}
    (h : readType text.toList = .ok (t, rest)) (hrest : rest.1 ≠ []) :
    ∃ before c behind, text.toList = before ++ c :: behind ∧ rest.1 = c :: behind ∧
      isBlank c = false ∧ Derives before t ∧
      ∀ other : String, ∀ more, other.toList = before ++ c :: more →
        parse other = .error (.trailingInput (Text.byteLength before)) := by
  obtain ⟨before, hderived, htext, hskip⟩ := (derived_of_read _).1 h
  obtain ⟨c, behind, hcons⟩ := List.exists_cons_of_ne_nil hrest
  rw [hcons] at htext hskip
  have hblank : isBlank c = false := Text.not_isBlank_of_skipBlanks hskip
  obtain ⟨front, hfront, hother⟩ := (prompt_readType text.toList).done t rest.1
    (outcome_eq_done_iff.mpr ⟨rest.2, h⟩) hrest
  obtain rfl : front = before := by
    rw [hcons, htext] at hfront
    exact (List.append_cancel_right hfront).symm
  refine ⟨front, c, behind, htext, hcons, hblank, hderived, fun other more hmore => ?_⟩
  have hread := outcome_eq_done_iff.mp (hother (c :: more) (by rw [hcons]; rfl))
  rw [← hmore] at hread
  exact parse_of_rest hread hblank hmore

/-! ## Errors of texts that end too early -/

/-- A text that ends too early can be completed. -/
theorem exists_parse_of_early {text : String} {failure : Failure}
    (h : readType text.toList = .error failure) (hearly : failure.IsEarly) :
    ∃ more t, parse (text ++ more) = .ok t := by
  obtain ⟨more, t, hderived⟩ := exists_derives_of_early h hearly
  exact ⟨String.ofList more, t, parse_of_derives (by simpa using hderived)⟩

/-- A bracket that is not closed stands where it is reported. -/
theorem Cut.exists_opener {text rest : List Char} {opener : Char}
    (h : Cut text (.unclosed opener rest)) : ∃ before, text = before ++ opener :: rest := by
  cases h with
  | tuple => exact ⟨_, rfl⟩
  | rank => exact ⟨_, rfl⟩
  | list => exact ⟨_, rfl⟩

/-! ## All errors -/

/-- `text` is `before`, then `c`, which stands at the byte `offset`, then `behind`. -/
structure StandsAt (c : Char) (offset : Nat) (text before behind : String) : Prop where
  eq : text = before ++ c.toString ++ behind
  offset_eq : Text.byteLength before.toList = offset

/-- What the error that is reported for a text says about it. -/
structure ErrorExact (text : String) (error : ParseError) : Prop where
  /-- The text is the start of a type exactly if it is empty or unclosed to the reader. -/
  completable_iff : (error = .empty ∨ ∃ opener offset, error = .unclosed opener offset) ↔
    ∃ more t, parse (text ++ more) = .ok t
  /-- No text that starts like it is a type exactly if a character in it is unexpected or
  trailing. -/
  hopeless_iff : ((∃ found offset, error = .unexpectedChar found offset) ∨
      ∃ offset, error = .trailingInput offset) ↔
    ∀ more t, parse (text ++ more) ≠ .ok t
  /-- An unexpected character stands where it is reported, and is reported whatever stands
  behind. -/
  unexpectedChar : ∀ found offset, error = .unexpectedChar found offset →
    ∃ before behind, StandsAt found offset text before behind ∧
      ∀ other, parse (before ++ found.toString ++ other) = .error error
  /-- A bracket that is not closed stands where it is reported. -/
  unclosed : ∀ opener offset, error = .unclosed opener offset →
    ∃ before behind, StandsAt opener offset text before behind
  /-- Trailing input starts behind a whole type with a character that is not blank, and is reported
  whatever stands behind that. -/
  trailingInput : ∀ offset, error = .trailingInput offset →
    ∃ before c behind, StandsAt c offset text before behind ∧ isBlank c = false ∧
      (∃ t, parse before = .ok t) ∧
      ∀ other, parse (before ++ c.toString ++ other) = .error error

/-- Where the characters of a text split, the text does. -/
theorem standsAt_of_toList {text : String} {c : Char} {before behind : List Char}
    (h : text.toList = before ++ c :: behind) :
    StandsAt c (Text.byteLength before) text (String.ofList before) (String.ofList behind) where
  eq := by
    rw [← String.toList_inj]
    simp [h]
  offset_eq := by rw [String.toList_ofList]

/-- The characters of a text with one character in it. -/
theorem toList_append_char (before : List Char) (c : Char) (other : String) :
    (String.ofList before ++ c.toString ++ other).toList = before ++ c :: other.toList := by
  simp

/-- Texts that end too early have exact errors. -/
theorem errorExact_of_early {text : String} {failure : Failure}
    (hread : readType text.toList = .error failure) (hearly : failure.IsEarly) :
    ErrorExact text (failure.toError text.toList) := by
  obtain ⟨more, t, hcomplete⟩ := exists_parse_of_early hread hearly
  have hnotHopeless : ¬ ∀ more t, parse (text ++ more) ≠ .ok t := fun h => h more t hcomplete
  cases failure with
  | missing =>
      rw [Failure.toError]
      exact ⟨iff_of_true (Or.inl rfl) ⟨more, t, hcomplete⟩, iff_of_false (by simp) hnotHopeless,
        by simp, by simp, by simp⟩
  | unexpected found rest => exact hearly.elim
  | unclosed opener rest =>
      rw [Failure.toError]
      refine ⟨iff_of_true (Or.inr ⟨_, _, rfl⟩) ⟨more, t, hcomplete⟩,
        iff_of_false (by simp) hnotHopeless, by simp, ?_, by simp⟩
      rintro _ _ herror
      cases herror
      obtain ⟨front, cut, _, hcut, htext⟩ := (cut_of_read _).1 hread hearly
      obtain ⟨before, rfl⟩ := hcut.exists_opener
      rw [← List.append_assoc] at htext
      rw [htext, byteLength_sub]
      exact ⟨_, _, standsAt_of_toList htext⟩

/-- Texts with an unexpected character have exact errors. -/
theorem errorExact_of_unexpected {text : String} {found : Char} {rest : List Char}
    (hread : readType text.toList = .error (.unexpected found rest)) :
    ErrorExact text ((Failure.unexpected found rest).toError text.toList) := by
  obtain ⟨before, htext, hbefore⟩ := parse_of_unexpected hread
  have hfinal : ∀ more,
      parse (text ++ more) = .error (.unexpectedChar found (Text.byteLength before)) :=
    fun more => hbefore _ (rest ++ more.toList) (by simp [htext])
  rw [Failure.toError, htext, byteLength_sub]
  refine ⟨iff_of_false (by simp) (by simp [hfinal]),
    iff_of_true (Or.inl ⟨_, _, rfl⟩) (by simp [hfinal]), ?_, by simp, by simp⟩
  rintro _ _ herror
  cases herror
  exact ⟨_, _, standsAt_of_toList htext, fun other => hbefore _ _ (toList_append_char _ _ _)⟩

/-- Texts with trailing input have exact errors. -/
theorem errorExact_of_trailing {text : String} {t : TypeExpr} {rest : Text.Shorter text.toList}
    (hread : readType text.toList = .ok (t, rest)) (hrest : rest.1 ≠ []) :
    ErrorExact text
      (.trailingInput (Text.byteLength text.toList - Text.byteLength rest.1)) := by
  obtain ⟨before, c, behind, htext, hcons, hblank, hderived, hbefore⟩ :=
    parse_of_trailing hread hrest
  have hfinal : ∀ more, parse (text ++ more) = .error (.trailingInput (Text.byteLength before)) :=
    fun more => hbefore _ (behind ++ more.toList) (by simp [htext])
  rw [hcons, htext, byteLength_sub]
  refine ⟨iff_of_false (by simp) (by simp [hfinal]),
    iff_of_true (Or.inr ⟨_, rfl⟩) (by simp [hfinal]), by simp, by simp, ?_⟩
  rintro _ herror
  cases herror
  refine ⟨_, c, _, standsAt_of_toList htext, hblank, ⟨t, parse_of_derives ?_⟩, fun other => ?_⟩
  · rwa [String.toList_ofList]
  · exact hbefore _ _ (toList_append_char _ _ _)

/-- The error that is reported for a text tells exactly whether the text only ends too early, and
names the place where it is decided that it is no type. -/
theorem errors_exact {text : String} {error : ParseError} (h : parse text = .error error) :
    ErrorExact text error := by
  rcases readType_of_parse_error h with ⟨failure, hread, rfl⟩ | ⟨t, rest, hread, hrest, rfl⟩
  · cases failure with
    | missing => exact errorExact_of_early hread trivial
    | unexpected found rest => exact errorExact_of_unexpected hread
    | unclosed opener rest => exact errorExact_of_early hread trivial
  · exact errorExact_of_trailing hread hrest

/-- A character behind a tuple is reported at its offset in bytes: the letter in the tuple takes
two. -/
theorem errors_wideTuple :
    parse "N<(é) x>" = .error (.unexpectedChar 'x' 7) ∧
      ErrorExact "N<(é) x>" (.unexpectedChar 'x' 7) := by
  have hrefused : parse "N<(é) x>" = .error (.unexpectedChar 'x' 7) := by decide +kernel
  exact ⟨hrefused, errors_exact hrefused⟩

end RadioBroker.TypeExpr
