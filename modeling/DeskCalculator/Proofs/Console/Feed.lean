import DeskCalculator.Console.Run

/-!
# The lines of an input

The lines that a run answers are those of the whole input. The program reads the input piece by
piece, each up to a line feed, and a carriage return may stand before this line feed. A line end is
never cut in two then, so the lines of the pieces are the lines of the input (`linesRead_flatten`).
-/

namespace DeskCalculator

variable {text first line : Text}

theorem splitLines_ne_nil (h : text ≠ []) : splitLines text ≠ [] := by
  obtain ⟨c, rest, rfl⟩ := List.exists_cons_of_ne_nil h
  unfold splitLines
  split
  · exact List.cons_ne_nil _ _
  · split <;> exact List.cons_ne_nil _ _

theorem splitLines_cons_of_ne {c : Char} (hc : c ≠ '\n') {lines : List Text}
    (h : splitLines text = line :: lines) : splitLines (c :: text) = (c :: line) :: lines := by
  rw [splitLines, if_neg hc, h]

theorem splitLines_append (first rest : Text) :
    splitLines (first ++ '\n' :: rest) = splitLines (first ++ ['\n']) ++ splitLines rest := by
  induction first with
  | nil => rfl
  | cons c first ih =>
    by_cases hc : c = '\n'
    · rw [List.cons_append, List.cons_append, splitLines, splitLines, if_pos hc, if_pos hc, ih]
      rfl
    · have hne : first ++ ['\n'] ≠ [] := List.append_ne_nil_of_right_ne_nil _ (List.cons_ne_nil _ _)
      obtain ⟨line, lines, hlines⟩ := List.exists_cons_of_ne_nil (splitLines_ne_nil hne)
      rw [hlines] at ih
      rw [List.cons_append, List.cons_append, splitLines_cons_of_ne hc ih,
        splitLines_cons_of_ne hc hlines]
      rfl

/-- A line consists of characters of the text that are no line feeds. -/
theorem mem_of_mem_splitLines (h : line ∈ splitLines text) {d : Char} (hd : d ∈ line) :
    d ∈ text ∧ d ≠ '\n' := by
  induction text generalizing line with
  | nil => cases h
  | cons c text ih =>
    by_cases hc : c = '\n'
    · rw [splitLines, if_pos hc] at h
      rcases List.mem_cons.mp h with rfl | hmem
      · cases hd
      · exact (ih hmem hd).imp_left (List.mem_cons_of_mem c)
    · have hfirst {tail : Text} (htail : d ∈ tail → d ∈ text ∧ d ≠ '\n') (hmem : d ∈ c :: tail) :
          d ∈ c :: text ∧ d ≠ '\n' := by
        rcases List.mem_cons.mp hmem with rfl | hmem
        · exact ⟨List.mem_cons_self, hc⟩
        · exact (htail hmem).imp_left (List.mem_cons_of_mem c)
      rw [splitLines, if_neg hc] at h
      split at h
      · rw [List.mem_singleton.mp h] at hd
        exact hfirst (fun hnil => absurd hnil List.not_mem_nil) hd
      · next first lines hlines =>
        rw [hlines] at ih
        rcases List.mem_cons.mp h with rfl | hmem
        · exact hfirst (ih List.mem_cons_self) hd
        · exact (ih (List.mem_cons_of_mem first hmem) hd).imp_left (List.mem_cons_of_mem c)

theorem not_mem_translateNewlines (text : Text) : '\r' ∉ translateNewlines text := by
  induction text with
  | nil => exact List.not_mem_nil
  | cons c rest ih =>
    unfold translateNewlines
    split
    · next hc => exact List.not_mem_cons_of_ne_of_not_mem (Ne.symm hc) ih
    · split
      · exact ih
      · exact List.not_mem_cons_of_ne_of_not_mem (by decide) ih

theorem translateNewlines_of_not_mem (h : '\r' ∉ text) : translateNewlines text = text := by
  induction text with
  | nil => rfl
  | cons c rest ih =>
    have hc : c ≠ '\r' := (List.ne_of_not_mem_cons h).symm
    rw [translateNewlines, if_pos hc, ih (List.not_mem_of_not_mem_cons h)]

theorem translateNewlines_append (first rest : Text) : translateNewlines (first ++ '\n' :: rest) =
    translateNewlines (first ++ ['\n']) ++ translateNewlines rest := by
  induction first with
  | nil => rfl
  | cons c first ih =>
    -- A carriage return looks one character ahead: at the most at the line feed.
    have hhead : (first ++ '\n' :: rest).head? = (first ++ ['\n']).head? := by
      cases first <;> rfl
    simp only [List.cons_append, translateNewlines, hhead, ih]
    split
    · rfl
    · split <;> rfl

theorem exists_translateNewlines_concat (first : Text) :
    ∃ before, translateNewlines (first ++ ['\n']) = before ++ ['\n'] := by
  induction first with
  | nil => exact ⟨[], rfl⟩
  | cons c first ih =>
    obtain ⟨before, hbefore⟩ := ih
    rw [List.cons_append, translateNewlines, hbefore]
    split
    · exact ⟨c :: before, rfl⟩
    · split
      · exact ⟨before, rfl⟩
      · exact ⟨'\n' :: before, rfl⟩

/-- **A line has no line end.** -/
theorem no_line_end_of_mem_linesRead (h : line ∈ linesRead text) : '\n' ∉ line ∧ '\r' ∉ line :=
  ⟨fun hmem => (mem_of_mem_splitLines h hmem).2 rfl,
    fun hmem => not_mem_translateNewlines text (mem_of_mem_splitLines h hmem).1⟩

theorem linesRead_of_not_mem (h : '\r' ∉ text) : linesRead text = splitLines text := by
  rw [linesRead, translateNewlines_of_not_mem h]

theorem linesRead_append (first rest : Text) :
    linesRead (first ++ '\n' :: rest) = linesRead (first ++ ['\n']) ++ linesRead rest := by
  obtain ⟨before, hbefore⟩ := exists_translateNewlines_concat first
  unfold linesRead
  rw [translateNewlines_append, hbefore, List.append_assoc]
  exact splitLines_append before (translateNewlines rest)

/-- **Reading piece by piece**: the lines of an input are those of its pieces, where each piece but
the last ends with a line feed. -/
theorem linesRead_flatten {pieces : List Text} (h : ∀ piece ∈ pieces, piece.getLast? = some '\n')
    (last : Text) :
    linesRead (pieces.flatten ++ last) = pieces.flatMap linesRead ++ linesRead last := by
  induction pieces with
  | nil => rfl
  | cons piece pieces ih =>
    obtain ⟨hpiece, hpieces⟩ := List.forall_mem_cons.mp h
    obtain ⟨first, rfl⟩ := List.getLast?_eq_some_iff.mp hpiece
    rw [List.flatten_cons, List.append_assoc, List.append_assoc, List.singleton_append,
      linesRead_append, ih hpieces, List.flatMap_cons, List.append_assoc]

end DeskCalculator
