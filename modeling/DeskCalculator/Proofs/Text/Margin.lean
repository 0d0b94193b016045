import DeskCalculator.Text.Blank
import Mathlib.Data.List.DropRight
import Mathlib.Data.List.TakeWhile
import Mathlib.Tactic.Common

/-!
# Margins

A text without margin characters is its own trimmed form, and one of nothing but margin characters
has an empty one. Of a text with another text behind it, the right margin is that of the other text,
unless the other text is nothing but margin. A trimmed text ends with a character that is none, and
it has no margins of its own (`trim_trim`). What trimming takes away are the two margins
(`margins_append_trim`).
-/

namespace DeskCalculator

theorem dropWhile_eq_self {p : Char → Bool} {text : Text} (h : ∀ c ∈ text, p c = false) :
    text.dropWhile p = text := by
  cases text with
  | nil => rfl
  | cons c text => rw [List.dropWhile_cons, h c List.mem_cons_self, if_neg Bool.false_ne_true]

theorem trimRight_eq_self {text : Text} (h : ∀ c ∈ text, isMargin c = false) :
    trimRight text = text := by
  unfold trimRight
  rw [dropWhile_eq_self fun c hc => h c (List.mem_reverse.mp hc), List.reverse_reverse]

theorem trim_eq_self {text : Text} (h : ∀ c ∈ text, isMargin c = false) : trim text = text := by
  unfold trim
  rw [dropWhile_eq_self h, trimRight_eq_self h]

theorem trimRight_append (first second : Text) :
    trimRight (first ++ second) =
      if trimRight second = [] then trimRight first else first ++ trimRight second := by
  unfold trimRight
  rw [List.reverse_append, List.dropWhile_append]
  simp only [List.reverse_eq_nil_iff, List.isEmpty_iff]
  split
  · rfl
  · rw [List.reverse_append, List.reverse_reverse]

theorem trimRight_eq_nil_iff {text : Text} :
    trimRight text = [] ↔ ∀ c ∈ text, isMargin c = true := by
  unfold trimRight
  rw [List.reverse_eq_nil_iff, List.dropWhile_eq_nil_iff]
  simp only [List.mem_reverse]

theorem trim_eq_nil_iff {text : Text} : trim text = [] ↔ ∀ c ∈ text, isMargin c = true := by
  unfold trim
  rw [trimRight_eq_nil_iff]
  constructor
  · intro h c hc
    rw [← List.takeWhile_append_dropWhile (p := isMargin) (l := text)] at hc
    rcases List.mem_append.mp hc with hleft | hrest
    · exact List.all_eq_true.mp List.all_takeWhile c hleft
    · exact h c hrest
  · intro h c hc
    exact h c ((List.dropWhile_sublist isMargin).subset hc)

theorem trim_ne_nil_of_mem {text : Text} {c : Char} (hc : c ∈ text) (h : isMargin c = false) :
    trim text ≠ [] := by
  intro hnil
  rw [trim_eq_nil_iff.mp hnil c hc] at h
  cases h

theorem exists_getLast?_trim {text : Text} (h : trim text ≠ []) :
    ∃ c, (trim text).getLast? = some c ∧ isMargin c = false := by
  unfold trim trimRight at h ⊢
  rw [ne_eq, List.reverse_eq_nil_iff] at h
  refine ⟨_, by rw [List.getLast?_reverse, List.head?_eq_some_head h], ?_⟩
  simpa using List.head_dropWhile_not isMargin h

/-- The end of a text that begins with no margin can be trimmed without its first character. -/
theorem trimRight_cons {c : Char} (h : isMargin c = false) (text : Text) :
    trimRight (c :: text) = c :: trimRight text := by
  have hsingle : trimRight [c] = [c] := trimRight_eq_self fun d hd => by
    rwa [List.mem_singleton.mp hd]
  show trimRight ([c] ++ text) = [c] ++ trimRight text
  rw [trimRight_append]
  split
  · next hnil => rw [hsingle, hnil, List.append_nil]
  · rfl

theorem trimRight_trimRight (text : Text) : trimRight (trimRight text) = trimRight text := by
  unfold trimRight
  rw [List.reverse_reverse, List.dropWhile_idempotent]

theorem trim_trim (text : Text) : trim (trim text) = trim text := by
  unfold trim
  cases hdrop : text.dropWhile isMargin with
  | nil => rfl
  | cons c rest =>
    have hc : isMargin c = false := by
      have hhead := List.head_dropWhile_not isMargin (by rw [hdrop]; exact List.cons_ne_nil c rest)
      simpa only [hdrop, List.head_cons, Bool.not_eq_true] using hhead
    rw [trimRight_cons hc, List.dropWhile_cons_of_neg (by simp [hc]), trimRight_cons hc,
      trimRight_trimRight]

/-! ### Margins -/

/-- The margin at the beginning of a text. -/
def leftMargin (text : Text) : Text :=
  text.takeWhile isMargin

/-- The margin at the end of a text, if the text is not all margin. -/
def rightMargin (text : Text) : Text :=
  ((text.dropWhile isMargin).reverse.takeWhile isMargin).reverse

theorem isMargin_of_mem_leftMargin (text : Text) : ∀ c ∈ leftMargin text, isMargin c = true :=
  List.all_eq_true.mp List.all_takeWhile

theorem isMargin_of_mem_rightMargin (text : Text) : ∀ c ∈ rightMargin text, isMargin c = true :=
  fun c hc => List.all_eq_true.mp List.all_takeWhile c (List.mem_reverse.mp hc)

/-- **A text is its trimmed form between its margins.** -/
theorem margins_append_trim (text : Text) :
    leftMargin text ++ (trim text ++ rightMargin text) = text := by
  unfold leftMargin rightMargin trim trimRight
  rw [← List.reverse_append, List.takeWhile_append_dropWhile, List.reverse_reverse,
    List.takeWhile_append_dropWhile]

end DeskCalculator
