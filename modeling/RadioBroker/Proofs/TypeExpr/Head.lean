import Mathlib.Data.List.DropRight
import RadioBroker.Proofs.Traversal
import RadioBroker.TypeExpr.Parser

/-!
# Heads of types

The head of a type is a name or a tuple. What is read as a head is one, and a head is read in front
of any text that does not continue its name. A tuple ends with the bracket that closes its first
one: between these two brackets all others have their partners.
-/

namespace RadioBroker

/-! ## Characters of names -/

namespace Text

/-- No blank character is alphabetic or numeric. -/
theorem isBlank_eq_false_of_isAlphanumeric {c : Char} (h : isAlphanumeric c = true) :
    isBlank c = false := by
  have hnarrow : (blankRanges.all fun blank => decide (blank.2 < 48 ∨ 122 < blank.1)) = true := by
    decide
  have hwide : (blankRanges.all fun blank => wideAlphanumericRanges.all fun wide =>
      decide (blank.2 < wide.1 ∨ wide.2 < blank.1)) = true := by decide +kernel
  rw [← Bool.not_eq_true]
  intro hblank
  obtain ⟨blank, hmem, hin⟩ := List.any_eq_true.mp hblank
  rw [Bool.and_eq_true, decide_eq_true_eq, decide_eq_true_eq] at hin
  unfold isAlphanumeric at h
  split at h
  · have hrange := toNat_of_isAlphanum h
    have hout := of_decide_eq_true (List.all_eq_true.mp hnarrow blank hmem)
    omega
  · obtain ⟨wide, hmemWide, hcovers⟩ := List.any_eq_true.mp h
    rw [Bool.and_eq_true, decide_eq_true_eq, decide_eq_true_eq] at hcovers
    have hout := of_decide_eq_true
      (List.all_eq_true.mp (List.all_eq_true.mp hwide blank hmem) wide hmemWide)
    omega

/-- A text that does not start with a blank has no blanks to skip. -/
theorem skipBlanks_of_head? {cs : List Char} (h : ∀ c, cs.head? = some c → isBlank c = false) :
    skipBlanks cs = cs := by
  cases cs with
  | nil => rfl
  | cons c cs => rw [skipBlanks, List.dropWhile_cons_of_neg (by simp [h c rfl])]

/-- What stands behind a character is shorter than all of the text. -/
theorem length_lt_append (c : Char) (cs rest : List Char) :
    rest.length < (c :: cs ++ rest).length := by
  rw [List.length_append, List.length_cons]
  omega

/-- A character that is not blank is not skipped. -/
theorem skipBlanks_cons {c : Char} {cs : List Char} (h : isBlank c = false) :
    skipBlanks (c :: cs) = c :: cs :=
  skipBlanks_of_head? fun _ hhead => Option.some.inj hhead ▸ h

/-- A run of blank characters. -/
def IsBlanks (cs : List Char) : Prop := ∀ c ∈ cs, isBlank c = true

theorem isBlanks_nil : IsBlanks [] := List.forall_mem_nil _

/-- Blanks in front of a text are skipped. -/
theorem IsBlanks.skipBlanks_append {blanks : List Char} (h : IsBlanks blanks) (rest : List Char) :
    skipBlanks (blanks ++ rest) = skipBlanks rest :=
  List.dropWhile_append_of_pos h

/-- Nothing is left of blanks. -/
theorem IsBlanks.skipBlanks_eq_nil {blanks : List Char} (h : IsBlanks blanks) :
    skipBlanks blanks = [] := by
  have hskip := h.skipBlanks_append []
  rwa [List.append_nil] at hskip

/-- Blanks are skipped up to a character that is not blank. -/
theorem IsBlanks.skipBlanks_append_cons {blanks rest : List Char} {c : Char} (h : IsBlanks blanks)
    (hc : isBlank c = false) : skipBlanks (blanks ++ c :: rest) = c :: rest := by
  rw [h.skipBlanks_append, skipBlanks_cons hc]

/-- What is skipped are blanks. -/
theorem exists_blanks (cs : List Char) : ∃ blanks, IsBlanks blanks ∧ cs = blanks ++ skipBlanks cs :=
  ⟨cs.takeWhile isBlank, fun _ hc => List.mem_takeWhile_imp hc,
    List.takeWhile_append_dropWhile.symm⟩

/-- What stands behind the first character that is not skipped is shorter than the text. -/
theorem length_lt_of_skipBlanks {cs after : List Char} {c : Char} (h : skipBlanks cs = c :: after) :
    after.length < cs.length := by
  have hle := length_skipBlanks_le cs
  rw [h] at hle
  exact hle

/-- Blanks are skipped once. -/
@[simp] theorem skipBlanks_skipBlanks (cs : List Char) :
    skipBlanks (skipBlanks cs) = skipBlanks cs :=
  List.dropWhile_idempotent isBlank cs

end Text

namespace TypeExpr

open Text (skipBlanks skipBlanks_cons isBlank)

/-- No blank character may stand in a name. -/
theorem isBlank_eq_false_of_isNameChar {c : Char} (h : isNameChar c = true) :
    isBlank c = false := by
  simp only [isNameChar, Bool.or_eq_true, beq_iff_eq] at h
  obtain ((((halpha | rfl) | rfl) | rfl) | rfl) := h
  · exact Text.isBlank_eq_false_of_isAlphanumeric halpha
  all_goals decide

/-! ## Heads -/

/-- The number of open brackets, one more than `depth` in front of a character, less one behind it;
there is none if the character closes the last one. -/
def depthBehind? (depth : Nat) (c : Char) : Option Nat :=
  if c = '(' then some (depth + 1)
  else if c = ')' then (match depth with | 0 => none | d + 1 => some d)
  else some depth

/-- Whether a text ends with the bracket that closes the first of `depth + 1` open ones. -/
def closes : (depth : Nat) → (cs : List Char) → Bool
  | _, [] => false
  | depth, c :: cs =>
    match depthBehind? depth c with
    | none => cs.isEmpty
    | some deeper => closes deeper cs

/-- The head of a type: a name that does not start with a dot, or a tuple. -/
inductive IsHead : List Char → Prop
  | name {c : Char} {cs : List Char} (hfirst : isNameChar c = true) (hdot : c ≠ '.')
      (hrest : ∀ d ∈ cs, isNameChar d = true) : IsHead (c :: cs)
  | tuple {cs : List Char} (hcloses : closes 0 cs = true) : IsHead ('(' :: cs)

/-- A head does not start with a blank. -/
theorem IsHead.skipBlanks {head : List Char} (h : IsHead head) (rest : List Char) :
    Text.skipBlanks (head ++ rest) = head ++ rest := by
  cases h with
  | name hfirst _ _ => exact skipBlanks_cons (isBlank_eq_false_of_isNameChar hfirst)
  | tuple _ => exact skipBlanks_cons (by decide)

/-- A tuple is read character by character. -/
theorem readTuple_cons (depth : Nat) (c : Char) (cs : List Char) :
    readTuple depth (c :: cs) =
      match depthBehind? depth c with
      | none => some ([c], ⟨cs, Text.length_lt_cons_self⟩)
      | some deeper =>
        match readTuple deeper cs with
        | none => none
        | some (text, ⟨rest, hrest⟩) => some (c :: text, ⟨rest, Text.length_lt_cons hrest⟩) := rfl

/-- A tuple is read up to the bracket that closes it. -/
theorem readTuple_append {depth : Nat} {cs : List Char} (h : closes depth cs = true)
    (rest : List Char) : ∃ hrest, readTuple depth (cs ++ rest) = some (cs, ⟨rest, hrest⟩) := by
  induction cs generalizing depth with
  | nil => cases h
  | cons c cs ih =>
      refine ⟨Text.length_lt_append c cs rest, ?_⟩
      show readTuple depth (c :: (cs ++ rest)) = _
      rw [readTuple_cons]
      rw [closes] at h
      cases hbehind : depthBehind? depth c with
      | none =>
          rw [hbehind] at h
          obtain rfl := List.isEmpty_iff.mp h
          rfl
      | some deeper =>
          rw [hbehind] at h
          obtain ⟨_, hread⟩ := ih h
          simp only [hread]

/-- What is read as a tuple ends with the bracket that closes it. -/
theorem closes_of_readTuple {depth : Nat} {cs text : List Char} {rest : Text.Shorter cs}
    (h : readTuple depth cs = some (text, rest)) : closes depth text = true := by
  induction cs generalizing depth text with
  | nil => cases h
  | cons c cs ih =>
      rw [readTuple_cons] at h
      cases hbehind : depthBehind? depth c with
      | none =>
          rw [hbehind] at h
          cases h
          simp [closes, hbehind]
      | some deeper =>
          rw [hbehind] at h
          dsimp only at h
          split at h
          · cases h
          · rename_i inner left hleft hread
            cases h
            rw [closes, hbehind]
            exact ih hread

/-- A head is read up to the next character that may not stand in a name. -/
theorem readHead_append {head : List Char} (h : IsHead head) {rest : List Char}
    (hrest : ∀ c, rest.head? = some c → isNameChar c = false) :
    ∃ hshorter, readHead (head ++ rest) = .ok (String.ofList head, ⟨rest, hshorter⟩) := by
  cases h with
  | @name c cs hfirst hdot hall =>
      have htuple : c ≠ '(' := by
        rintro rfl
        revert hfirst
        decide +kernel
      have hstop : rest.takeWhile isNameChar = [] ∧ rest.dropWhile isNameChar = rest := by
        cases rest with
        | nil => exact ⟨rfl, rfl⟩
        | cons d rest => simp [hrest d rfl]
      refine ⟨Text.length_lt_append c cs rest, ?_⟩
      show readHead (c :: (cs ++ rest)) = _
      simp [readHead, htuple, hfirst, hdot, List.takeWhile_append_of_pos hall,
        List.dropWhile_append_of_pos hall, hstop]
  | @tuple cs hcloses =>
      obtain ⟨_, hread⟩ := readTuple_append hcloses rest
      refine ⟨Text.length_lt_append '(' cs rest, ?_⟩
      show readHead ('(' :: (cs ++ rest)) = _
      simp [readHead, hread]

/-- What is read as a head is one. -/
theorem isHead_of_readHead {cs : List Char} {head : String} {rest : Text.Shorter cs}
    (h : readHead cs = .ok (head, rest)) : IsHead head.toList := by
  unfold readHead at h
  split at h
  · cases h
  · rename_i c cs
    split at h
    · rename_i hopen
      split at h
      · cases h
      · rename_i text left hleft hread
        cases h
        rw [String.toList_ofList, hopen]
        exact .tuple (closes_of_readTuple hread)
    · split at h
      · rename_i hname
        rw [Bool.and_eq_true, bne_iff_ne] at hname
        cases h
        rw [String.toList_ofList]
        exact .name hname.1 hname.2 fun d hd => List.mem_takeWhile_imp hd
      · cases h

/-- What is read as a tuple stands in front of what is left. -/
theorem eq_append_of_readTuple {depth : Nat} {cs text : List Char} {rest : Text.Shorter cs}
    (h : readTuple depth cs = some (text, rest)) : cs = text ++ rest.1 := by
  induction cs generalizing depth text with
  | nil => cases h
  | cons c cs ih =>
      rw [readTuple_cons] at h
      split at h
      · cases h
        rfl
      · split at h
        · cases h
        · rename_i hread
          cases h
          exact congrArg (c :: ·) (ih hread)

/-- What is read as a head stands in front of what is left. -/
theorem eq_append_of_readHead {cs : List Char} {head : String} {rest : Text.Shorter cs}
    (h : readHead cs = .ok (head, rest)) : cs = head.toList ++ rest.1 := by
  unfold readHead at h
  split at h
  · cases h
  · rename_i c cs
    split at h
    · split at h
      · cases h
      · rename_i hread
        cases h
        rw [String.toList_ofList, List.cons_append]
        exact congrArg (c :: ·) (eq_append_of_readTuple hread)
    · split at h
      · cases h
        rw [String.toList_ofList, List.cons_append]
        exact congrArg (c :: ·) List.takeWhile_append_dropWhile.symm
      · cases h

/-! ## Names and tuples -/

/-- A name: name characters, of which the first is no dot. -/
def IsName (cs : List Char) : Prop :=
  cs ≠ [] ∧ (∀ c ∈ cs, isNameChar c = true) ∧ cs.head? ≠ some '.'

/-- A text in which each bracket has its partner. -/
inductive IsBalanced : List Char → Prop
  | nil : IsBalanced []
  | plain {c : Char} {cs : List Char} (hopening : c ≠ '(') (hclosing : c ≠ ')')
      (hrest : IsBalanced cs) : IsBalanced (c :: cs)
  | nested {inner rest : List Char} (hinner : IsBalanced inner) (hrest : IsBalanced rest) :
      IsBalanced ('(' :: (inner ++ ')' :: rest))

/-- A tuple: a balanced text in brackets. -/
def IsTuple (cs : List Char) : Prop :=
  ∃ inner, IsBalanced inner ∧ cs = '(' :: (inner ++ [')'])

/-- A balanced text closes no bracket that is open in front of it. -/
theorem IsBalanced.closes_append {cs : List Char} (h : IsBalanced cs) (depth : Nat)
    (rest : List Char) : closes depth (cs ++ rest) = closes depth rest := by
  induction h generalizing depth rest with
  | nil => rfl
  | @plain c cs hopening hclosing _ ih =>
      show closes depth (c :: (cs ++ rest)) = _
      have hdeeper : depthBehind? depth c = some depth := by simp [depthBehind?, hopening, hclosing]
      rw [closes, hdeeper]
      exact ih depth rest
  | @nested inner behind _ _ ihInner ihRest =>
      have hassoc : '(' :: (inner ++ ')' :: behind) ++ rest =
          '(' :: (inner ++ ')' :: (behind ++ rest)) := by simp
      rw [hassoc]
      show closes (depth + 1) (inner ++ ')' :: (behind ++ rest)) = _
      rw [ihInner]
      exact ihRest depth rest

/-- A text that closes the first of several open brackets is balanced up to the one that closes the
last of them. -/
theorem exists_balanced_of_closes {depth : Nat} {cs : List Char} (h : closes depth cs = true) :
    ∃ inner rest, IsBalanced inner ∧ cs = inner ++ ')' :: rest ∧
      (depth = 0 → rest = []) ∧ ∀ outer, depth = outer + 1 → closes outer rest = true := by
  -- An opening bracket uses the hypothesis twice: up to its partner and behind it.
  induction hlength : cs.length using Nat.strongRecOn generalizing cs depth with
  | ind length ih =>
      cases cs with
      | nil => cases h
      | cons c cs =>
          rw [List.length_cons] at hlength
          by_cases hopening : c = '('
          · subst hopening
            have hdeeper : closes (depth + 1) cs = true := h
            obtain ⟨inner, behind, hinner, rfl, _, hbehind⟩ := ih _ (by omega) hdeeper rfl
            rw [List.length_append, List.length_cons] at hlength
            obtain ⟨later, rest, hlater, rfl, hrest⟩ := ih _ (by omega) (hbehind depth rfl) rfl
            exact ⟨'(' :: (inner ++ ')' :: later), rest, .nested hinner hlater, by simp, hrest⟩
          · by_cases hclosing : c = ')'
            · subst hclosing
              refine ⟨[], cs, .nil, rfl, ?_, ?_⟩
              · rintro rfl
                exact List.isEmpty_iff.mp h
              · rintro outer rfl
                exact h
            · have hdeeper : depthBehind? depth c = some depth := by
                simp [depthBehind?, hopening, hclosing]
              rw [closes, hdeeper] at h
              obtain ⟨inner, rest, hinner, rfl, hrest⟩ := ih _ (by omega) h rfl
              exact ⟨c :: inner, rest, .plain hopening hclosing hinner, rfl, hrest⟩

/-- The heads are the names and the tuples. -/
theorem isHead_iff {cs : List Char} : IsHead cs ↔ IsName cs ∨ IsTuple cs := by
  constructor
  · intro h
    cases h with
    | @name c cs hfirst hdot hrest =>
        refine Or.inl ⟨List.cons_ne_nil _ _, List.forall_mem_cons.mpr ⟨hfirst, hrest⟩, ?_⟩
        exact fun hhead => hdot (Option.some.inj hhead)
    | tuple hcloses =>
        obtain ⟨inner, rest, hinner, rfl, hend, _⟩ := exists_balanced_of_closes hcloses
        rw [hend rfl]
        exact Or.inr ⟨inner, hinner, rfl⟩
  · rintro (⟨hnonempty, hall, hdot⟩ | ⟨inner, hinner, rfl⟩)
    · cases cs with
      | nil => exact absurd rfl hnonempty
      | cons c cs =>
          obtain ⟨hfirst, hrest⟩ := List.forall_mem_cons.mp hall
          exact .name hfirst (fun heq => hdot (congrArg some heq)) hrest
    · refine .tuple ?_
      rw [hinner.closes_append]
      rfl

end TypeExpr

end RadioBroker
