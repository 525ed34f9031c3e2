import RadioBroker.Proofs.TypeExpr.Grammar
import RadioBroker.TypeExpr.Printer

/-!
# The shape of written types

Well-formed types are those that can be written: names and tuples, applied to well-formed types,
with marks behind them. A text that the grammar derives writes a well-formed type, and the written
form of a well-formed type is derived with it. So what is read is well formed, reading the written
form of a well-formed type gives the type back, and written forms tell well-formed types apart.
-/

namespace RadioBroker.TypeExpr

open Text (isBlank IsBlanks isBlanks_nil)

/-! ## Marks -/

/-- The marks behind a type, without blanks. -/
inductive IsMarks : List Char → Prop
  | nil : IsMarks []
  | mark {c : Char} {cs : List Char} (hmark : c = '?' ∨ c = '*') (hrest : IsMarks cs) :
      IsMarks (c :: cs)
  | rank {cs : List Char} (commas : Nat) (hrest : IsMarks cs) :
      IsMarks ('[' :: (List.replicate commas ',' ++ ']' :: cs))

/-- An array rank without its blanks is an array rank. -/
theorem withoutBlanks_rank (inner : List Char) :
    withoutBlanks ('[' :: (inner ++ [']'])) = '[' :: (withoutBlanks inner ++ [']']) := by
  have hopening : isBlank '[' = false := by decide
  have hclosing : isBlank ']' = false := by decide
  simp [withoutBlanks, hopening, hclosing]

/-- Commas and blanks, without the blanks, are commas. -/
theorem withoutBlanks_eq_replicate {inner : List Char}
    (hinner : ∀ c ∈ inner, c = ',' ∨ isBlank c = true) :
    withoutBlanks inner = List.replicate (withoutBlanks inner).length ',' := by
  refine List.eq_replicate_of_mem fun c hc => ?_
  obtain ⟨hmem, hblank⟩ := List.mem_filter.mp hc
  rcases hinner c hmem with rfl | hc
  · rfl
  · rw [hc] at hblank
    cases hblank

/-- Commas have no blanks among them. -/
theorem withoutBlanks_replicate (commas : Nat) :
    withoutBlanks (List.replicate commas ',') = List.replicate commas ',' := by
  refine List.filter_eq_self.mpr fun c hc => ?_
  rw [List.eq_of_mem_replicate hc]
  decide

/-- Derived marks are marks. -/
theorem DerivesMarks.isMarks {text marks : List Char} (h : DerivesMarks text marks) :
    IsMarks marks := by
  induction h with
  | nil => exact .nil
  | cons hmark _ _ ih =>
      cases hmark with
      | nullable => exact .mark (Or.inl rfl) ih
      | pointer => exact .mark (Or.inr rfl) ih
      | rank hinner =>
          rw [withoutBlanks_rank, withoutBlanks_eq_replicate hinner, List.cons_append,
            List.append_assoc]
          exact .rank _ ih

/-- Marks are derived as they stand. -/
theorem IsMarks.derives {marks : List Char} (h : IsMarks marks) : DerivesMarks marks marks := by
  induction h with
  | nil => exact .nil
  | mark hmark _ ih =>
      rcases hmark with rfl | rfl
      · exact .cons .nullable isBlanks_nil ih
      · exact .cons .pointer isBlanks_nil ih
  | @rank cs commas _ ih =>
      have hinner : ∀ c ∈ List.replicate commas ',', c = ',' ∨ isBlank c = true :=
        fun c hc => Or.inl (List.eq_of_mem_replicate hc)
      have hderived := DerivesMarks.cons (.rank hinner) isBlanks_nil ih
      rw [withoutBlanks_rank, withoutBlanks_replicate] at hderived
      simpa using hderived

/-! ## Types -/

/-- A type that can be written. -/
inductive WellFormed : TypeExpr → Prop
  | mk {head suffix : String} {arguments : List TypeExpr} (hhead : IsHead head.toList)
      (harguments : ∀ t ∈ arguments, WellFormed t) (hsuffix : IsMarks suffix.toList) :
      WellFormed ⟨head, arguments, suffix⟩

/-- A well-formed type without its marks. -/
theorem WellFormed.unmarked {t : TypeExpr} (h : t.WellFormed) :
    (⟨t.head, t.arguments, ""⟩ : TypeExpr).WellFormed := by
  obtain ⟨hhead, harguments, _⟩ := h
  exact .mk hhead harguments .nil

/-- The written forms of several types, as they stand between angle brackets. -/
def joined (ts : List TypeExpr) : List Char :=
  List.intercalate [',', ' '] (ts.map fun t => t.display.toList)

/-- The written form of a type, character by character. -/
theorem toList_display (t : TypeExpr) :
    t.display.toList = t.head.toList ++
      ((if t.arguments = [] then [] else '<' :: (joined t.arguments ++ ['>'])) ++
        t.suffix.toList) := by
  obtain ⟨head, arguments, suffix⟩ := t
  rw [display_mk]
  split <;> simp [Text.angled, joined, String.toList_intercalate, Function.comp_def]

/-- The written forms of two types and more are separated by a comma and a blank. -/
theorem joined_cons_cons (first second : TypeExpr) (others : List TypeExpr) :
    joined (first :: second :: others) =
      first.display.toList ++ ',' :: ' ' :: joined (second :: others) := by
  simp [joined, List.intercalate]

mutual

/-- Only well-formed types are derived. -/
theorem Derives.wellFormed : {text : List Char} → {t : TypeExpr} → Derives text t → t.WellFormed
  | _, _, .type _ hhead _ harguments _ hmarks => by
    refine .mk ?_ harguments.wellFormed ?_
    · rw [String.toList_ofList]
      exact isHead_iff.mpr hhead
    · rw [String.toList_ofList]
      exact hmarks.isMarks

/-- Only well-formed arguments are derived. -/
theorem DerivesArguments.wellFormed : {text : List Char} → {ts : List TypeExpr} →
    DerivesArguments text ts → ∀ t ∈ ts, t.WellFormed
  | _, _, .none => nofun
  | _, _, .angled hlist => hlist.wellFormed

/-- Only well-formed types are derived in lists. -/
theorem DerivesList.wellFormed : {text : List Char} → {ts : List TypeExpr} →
    DerivesList text ts → ∀ t ∈ ts, t.WellFormed
  | _, _, .last htype _ => List.forall_mem_singleton.mpr htype.wellFormed
  | _, _, .more htype _ hrest => List.forall_mem_cons.mpr ⟨htype.wellFormed, hrest.wellFormed⟩

end

/-- The written form of a well-formed type, behind blanks, is derived with the type. -/
theorem WellFormed.derives {t : TypeExpr} (h : t.WellFormed) {blanks : List Char}
    (hblanks : IsBlanks blanks) : Derives (blanks ++ t.display.toList) t := by
  -- The induction is on types and lists of types together; what is joined has blanks in front of
  -- every type but the first.
  induction t using TypeExpr.rec
    (motive_2 := fun ts => (∀ t ∈ ts, t.WellFormed) → ts ≠ [] → ∀ blanks, IsBlanks blanks →
      DerivesList (blanks ++ joined ts) ts) generalizing blanks with
  | mk head arguments suffix ih =>
      obtain ⟨hhead, harguments, hsuffix⟩ := h
      have hwritten : DerivesArguments
          (if arguments = [] then [] else '<' :: (joined arguments ++ ['>'])) arguments := by
        split
        · rename_i hnone
          rw [hnone]
          exact .none
        · rename_i hsome
          exact .angled (ih harguments hsome [] isBlanks_nil)
      have hderived := Derives.type hblanks (isHead_iff.mp hhead) isBlanks_nil hwritten
        isBlanks_nil hsuffix.derives
      rw [String.ofList_toList, String.ofList_toList] at hderived
      rwa [toList_display]
  | nil => exact absurd rfl ‹_›
  | cons t ts ht hts =>
      rename_i hall _ blanks hblanks
      have hfirst := ht (hall t List.mem_cons_self) hblanks
      cases ts with
      | nil =>
          have hone : joined [t] = t.display.toList := by simp [joined]
          have hlist := DerivesList.last hfirst isBlanks_nil
          rwa [List.append_nil, ← hone] at hlist
      | cons second others =>
          have hothers : ∀ other ∈ second :: others, other.WellFormed := fun other hmem =>
            hall other (List.mem_cons_of_mem _ hmem)
          have hblank : IsBlanks [' '] := List.forall_mem_singleton.mpr (by decide)
          have hlist := hts hothers (List.cons_ne_nil _ _) [' '] hblank
          rw [joined_cons_cons, ← List.append_assoc]
          exact .more hfirst isBlanks_nil hlist

/-- Reading the written form of a well-formed type gives the type back. -/
theorem parse_display {t : TypeExpr} (h : t.WellFormed) : parse t.display = .ok t :=
  parse_of_derives (h.derives isBlanks_nil)

/-- Written forms tell well-formed types apart. -/
theorem WellFormed.display_inj {s t : TypeExpr} (hs : s.WellFormed) (ht : t.WellFormed)
    (h : s.display = t.display) : s = t := by
  have hread := parse_display hs
  rw [h, parse_display ht] at hread
  exact (Except.ok.inj hread).symm

/-- What is read is well formed. -/
theorem wellFormed_of_parse {text : String} {t : TypeExpr} (h : parse text = .ok t) :
    t.WellFormed :=
  (derives_of_parse h).wellFormed

/-! ## Reading and writing -/

/-- A type is well formed exactly if it is read back from its written form, and exactly if some text
is read as it. So writing what was read changes nothing when it is read and written again, and no
two types that are read are written alike. -/
theorem display_roundTrip :
    (∀ t : TypeExpr, t.WellFormed ↔ (IsName t.head.toList ∨ IsTuple t.head.toList) ∧
        (∀ argument ∈ t.arguments, argument.WellFormed) ∧ IsMarks t.suffix.toList) ∧
      (∀ t : TypeExpr, t.WellFormed ↔ parse t.display = .ok t) ∧
      (∀ t : TypeExpr, t.WellFormed ↔ ∃ text, parse text = .ok t) ∧
      (∀ text written, (parse text).map display = .ok written →
        (parse written).map display = .ok written) ∧
      ∀ first second s t, parse first = .ok s → parse second = .ok t → s.display = t.display →
        s = t := by
  refine ⟨fun t => ⟨?_, ?_⟩, fun t => ⟨parse_display, wellFormed_of_parse⟩,
    fun t => ⟨?_, ?_⟩, ?_, ?_⟩
  · rintro ⟨hhead, harguments, hsuffix⟩
    exact ⟨isHead_iff.mp hhead, harguments, hsuffix⟩
  · obtain ⟨head, arguments, suffix⟩ := t
    rintro ⟨hhead, harguments, hsuffix⟩
    exact .mk (isHead_iff.mpr hhead) harguments hsuffix
  · exact fun h => ⟨t.display, parse_display h⟩
  · rintro ⟨text, hread⟩
    exact wellFormed_of_parse hread
  · intro text written h
    cases hread : parse text with
    | error error =>
        rw [hread] at h
        cases h
    | ok t =>
        rw [hread] at h
        obtain rfl := Except.ok.inj h
        rw [parse_display (wellFormed_of_parse hread)]
        rfl
  · intro first second s t hs ht hdisplay
    exact (wellFormed_of_parse hs).display_inj (wellFormed_of_parse ht) hdisplay

/-- A type is read from a text with blanks at many places. It is written without most of them, and
is read from that as well. -/
theorem display_roundTrip_dictionary :
    ∃ t, parse " Dictionary< string ,(int, T) [ , ] > ?" = .ok t ∧
      t.display = "Dictionary<string, (int, T)[,]>?" ∧ parse t.display = .ok t ∧ t.WellFormed := by
  obtain ⟨_, hdisplay, htext, _, _⟩ := display_roundTrip
  have hread : parse " Dictionary< string ,(int, T) [ , ] > ?" = .ok ⟨"Dictionary",
      [named "string", ⟨"(int, T)", [], "[,]"⟩], "?"⟩ := by decide +kernel
  have hwellFormed := (htext _).mpr ⟨_, hread⟩
  exact ⟨_, hread, by decide +kernel, (hdisplay _).mp hwellFormed, hwellFormed⟩

end RadioBroker.TypeExpr
