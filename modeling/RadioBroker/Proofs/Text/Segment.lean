import Mathlib.Data.List.TakeWhile
import RadioBroker.Text.Segment

/-!
# Cutting names

What is left of a name that is cut at a mark, and the pieces between the marks. A name with a last
mark is what stands before it, the mark, and its last part; what is no mark stands in one of the
pieces. -/

namespace RadioBroker.Text

/-- More behind a qualified path. -/
theorem qualify_append (scope front rest : String) :
    qualify scope (front ++ rest) = qualify scope front ++ rest := by
  unfold qualify
  split
  · rfl
  · rw [String.append_assoc, String.append_assoc, String.append_assoc]

/-! ## The first mark -/

section First

variable {mark c : Char} {name front rest : String}

/-- What stands before a mark in a text whose first part has no such mark. -/
theorem toList_before_append {front rest : List Char} (hname : name.toList = front ++ rest)
    (hfront : ∀ c ∈ front, c ≠ mark) :
    (before mark name).toList = front ++ rest.takeWhile (· ≠ mark) := by
  rw [before, String.toList_ofList, hname,
    List.takeWhile_append_of_pos fun c hc => decide_eq_true (hfront c hc)]

/-- What stands before a mark consists of characters of the text. -/
theorem mem_of_mem_before (h : c ∈ (before mark name).toList) : c ∈ name.toList := by
  rw [before, String.toList_ofList] at h
  exact (List.takeWhile_sublist _).subset h

/-- What stands before a mark is no longer than the text. -/
theorem length_before_le (mark : Char) (name : String) :
    (before mark name).length ≤ name.length := by
  rw [before, String.length_ofList, ← String.length_toList]
  exact (List.takeWhile_sublist _).length_le

/-- Nothing is cut off a name without the mark. -/
theorem before_of_notMem (h : mark ∉ name.toList) : before mark name = name := by
  have hall : ∀ c ∈ name.toList, decide (c ≠ mark) = true := fun c hc =>
    decide_eq_true fun heq => h (heq ▸ hc)
  rw [before, List.takeWhile_eq_self_iff.mpr hall, String.ofList_toList]

/-- A name whose front has the mark is cut in its front. -/
theorem before_append_of_mem (h : mark ∈ front.toList) :
    before mark (front ++ rest) = before mark front := by
  have hstops : (front.toList.takeWhile (· ≠ mark)).length ≠ front.toList.length := by
    intro hlength
    have hall := (List.takeWhile_prefix _).eq_of_length hlength
    rw [← hall] at h
    simpa using List.mem_takeWhile_imp h
  rw [before, before, String.toList_append, List.takeWhile_append, if_neg hstops]

/-- What stands before the first angle bracket does not depend on what is in brackets. -/
theorem before_append_angled (name : String) (pieces : List String) :
    before '<' (name ++ angled pieces) = before '<' name := by
  by_cases hmark : '<' ∈ name.toList
  · exact before_append_of_mem hmark
  · have hwritten : (name ++ angled pieces).toList = name.toList ++
        '<' :: (String.intercalate ", " pieces ++ ">").toList := by simp [angled]
    have hname : ∀ c ∈ name.toList, c ≠ '<' := fun c hc heq => hmark (heq ▸ hc)
    rw [before_of_notMem hmark, ← String.toList_inj, toList_before_append hwritten hname]
    simp

end First

/-! ## The last mark -/

section Last

variable {mark c : Char} {name front : String}

/-- The last part of a name consists of characters of the name. -/
theorem mem_of_mem_afterLast (h : c ∈ (afterLast mark name).toList) : c ∈ name.toList := by
  rw [afterLast, String.toList_ofList, List.mem_reverse] at h
  exact List.mem_reverse.mp ((List.takeWhile_sublist _).subset h)

/-- A name is what stands before its last mark, the mark, and its last part. -/
theorem toList_eq_of_beforeLast? (h : beforeLast? mark name = some front) :
    name.toList = front.toList ++ mark :: (afterLast mark name).toList := by
  unfold beforeLast? at h
  split at h
  · cases h
  · rename_i found backwards hdrop
    cases h
    have hmark : found = mark := by
      have hstop := List.head?_dropWhile_not (fun c => decide (c ≠ mark)) name.toList.reverse
      rw [hdrop] at hstop
      simpa using hstop
    have hwhole := List.takeWhile_append_dropWhile (p := fun c => decide (c ≠ mark))
      (l := name.toList.reverse)
    rw [hdrop, hmark] at hwhole
    rw [String.toList_ofList, afterLast, String.toList_ofList, ← List.reverse_inj,
      List.reverse_append, List.reverse_cons, List.reverse_reverse, List.reverse_reverse,
      List.append_assoc, List.singleton_append]
    exact hwhole.symm

/-- A name without the mark is its own last part. -/
theorem afterLast_of_beforeLast?_eq_none (h : beforeLast? mark name = none) :
    afterLast mark name = name := by
  unfold beforeLast? at h
  split at h
  · rename_i hdrop
    have hwhole := List.takeWhile_append_dropWhile (p := fun c => decide (c ≠ mark))
      (l := name.toList.reverse)
    rw [hdrop, List.append_nil] at hwhole
    rw [afterLast, hwhole, List.reverse_reverse, String.ofList_toList]
  · cases h

end Last

/-! ## Pieces between marks -/

section Pieces

variable {α : Type} [DecidableEq α] {mark entry : α} {entries : List α}

/-- What is no mark stands in one of the pieces between marks. -/
theorem exists_mem_splitOn (h : entry ∈ entries) (hmark : entry ≠ mark) :
    ∃ piece ∈ entries.splitOn mark, entry ∈ piece := by
  induction entries with
  | nil => cases h
  | cons other entries ih =>
      rw [List.splitOn_cons_eq_if_modifyHead]
      split
      · rename_i hother
        have hbehind : entry ∈ entries :=
          (List.mem_cons.mp h).resolve_left fun heq => hmark (heq.trans (eq_of_beq hother))
        obtain ⟨piece, hpiece, hmem⟩ := ih hbehind
        exact ⟨piece, List.mem_cons_of_mem _ hpiece, hmem⟩
      · obtain ⟨first, others, hsplit⟩ :=
          List.exists_cons_of_ne_nil (List.splitOn_ne_nil mark entries)
        rw [hsplit, List.modifyHead_cons]
        rw [hsplit] at ih
        rcases List.mem_cons.mp h with rfl | hbehind
        · exact ⟨_, List.mem_cons_self, List.mem_cons_self⟩
        · obtain ⟨piece, hpiece, hmem⟩ := ih hbehind
          rcases List.mem_cons.mp hpiece with rfl | hothers
          · exact ⟨_, List.mem_cons_self, List.mem_cons_of_mem _ hmem⟩
          · exact ⟨piece, List.mem_cons_of_mem _ hothers, hmem⟩

end Pieces

/-! ## An entry beside a piece -/

/-- An entry that a piece of a list does not have stands in front of the piece or behind it. -/
theorem eq_append_of_append_cons {α : Type} {front rest before piece behind : List α} {entry : α}
    (hentry : entry ∉ piece) (h : front ++ entry :: rest = before ++ (piece ++ behind)) :
    (∃ more, before = front ++ entry :: more ∧ rest = more ++ (piece ++ behind)) ∨
      ∃ more, behind = more ++ entry :: rest ∧ front = before ++ (piece ++ more) := by
  rcases List.append_eq_append_iff.mp h with ⟨more, rfl, hmore⟩ | ⟨more, rfl, hmore⟩
  · cases more with
    | nil =>
        cases piece with
        | nil => exact Or.inr ⟨[], hmore.symm, by simp⟩
        | cons other others =>
            obtain ⟨rfl, _⟩ := List.cons.inj hmore
            exact absurd List.mem_cons_self hentry
    | cons other others =>
        obtain ⟨rfl, rfl⟩ := List.cons.inj hmore
        exact Or.inl ⟨others, rfl, rfl⟩
  · rcases List.append_eq_append_iff.mp hmore with ⟨last, rfl, hlast⟩ | ⟨last, rfl, hlast⟩
    · exact Or.inr ⟨last, hlast, rfl⟩
    · cases last with
      | nil => exact Or.inr ⟨[], hlast.symm, by simp⟩
      | cons other others =>
          obtain ⟨rfl, _⟩ := List.cons.inj hlast
          exact absurd (List.mem_append_right _ List.mem_cons_self) hentry

end RadioBroker.Text
