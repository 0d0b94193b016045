import DeskCalculator.Keypad.Desk
import DeskCalculator.Proofs.Text.Digit
import DeskCalculator.Proofs.Text.Margin
import DeskCalculator.Proofs.Token.Lexer
import Mathlib.Data.List.Basic

/-!
# Typing key by key

Where no failure is shown, a typed key changes the buffer only, and what it makes of the buffer
depends on the buffer, the key and the line of the latest result (`struck`, `foldl_append`). A key
is either refused or put behind what is kept of the buffer (`struck_eq`), and the three things that
the next key looks at, the length of the buffer, its last segment and whether a product is implied,
follow from those of the kept part and the key (`segment_placed`, `impliesProduct_placed`).
-/

namespace DeskCalculator

/-! ### Segments and products -/

theorem not_mem_segment_nil {c : Char} : c ∉ segment [] := List.not_mem_nil

theorem segment_append_of_forall {first second : Text}
    (h : ∀ c ∈ second, isSeparator c = false) :
    segment (first ++ second) = segment first ++ second := by
  unfold segment
  rw [List.reverse_append, List.takeWhile_append_of_pos, List.reverse_append, List.reverse_reverse]
  intro c hc
  rw [h c (List.mem_reverse.mp hc), Bool.not_false]

theorem segment_append_separator (first : Text) {c : Char} (hc : isSeparator c = true) :
    segment (first ++ [c]) = [] := by
  unfold segment
  rw [List.reverse_append, List.reverse_singleton, List.singleton_append, List.takeWhile_cons, hc]
  rfl

/-- What stands before a separator does not belong to the segment. -/
theorem segment_append_of_separator (first second : Text) {c : Char} (hc : isSeparator c = true) :
    segment (first ++ [c] ++ second) = segment second := by
  have hnone := List.reverse_eq_nil_iff.mp (segment_append_separator first hc)
  unfold segment
  rw [List.reverse_append, List.takeWhile_append, hnone, List.append_nil]
  split
  · next hall =>
    rw [(List.takeWhile_prefix _).eq_of_length hall]
  · rfl

theorem mem_of_mem_segment {c : Char} {buffer : Text} (h : c ∈ segment buffer) : c ∈ buffer :=
  List.mem_reverse.mp ((List.takeWhile_subset _) (List.mem_reverse.mp h))

theorem impliesProduct_nil : impliesProduct [] = false := rfl

/-- Only the end of a buffer tells whether a product is implied, margins aside. -/
theorem impliesProduct_append (first second : Text) :
    impliesProduct (first ++ second) =
      if trimRight second = [] then impliesProduct first else impliesProduct second := by
  unfold impliesProduct
  rw [trimRight_append]
  by_cases h : trimRight second = []
  · rw [if_pos h, if_pos h]
  · rw [if_neg h, if_neg h, List.getLast?_append_of_ne_nil _ h]

/-! ### The keys of a typed text -/

/-- What `keystrokes` yields: single characters and words. -/
structure IsKey (key : Text) : Prop where
  ne_nil : key ≠ []
  single_or_word : (∃ c, key = [c]) ∨ ∀ c ∈ key, isLetter c = true

theorem isKey_of_mem_keystrokes {line key : Text} (h : key ∈ keystrokes line) : IsKey key := by
  induction line using keystrokes.induct with
  | case1 => simp [keystrokes] at h
  | case2 c rest hletter ih =>
    rw [keystrokes, if_pos hletter] at h
    rcases List.mem_cons.mp h with rfl | h
    · refine ⟨List.cons_ne_nil _ _, .inr fun x hx => ?_⟩
      rcases List.mem_cons.mp hx with rfl | hx
      · exact hletter
      · exact List.all_eq_true.mp List.all_takeWhile x hx
    · exact ih h
  | case3 c rest hletter hblank ih =>
    rw [keystrokes, if_neg hletter, if_pos hblank] at h
    exact ih h
  | case4 c rest hletter hblank ih =>
    rw [keystrokes, if_neg hletter, if_neg hblank] at h
    rcases List.mem_cons.mp h with rfl | h
    · exact ⟨List.cons_ne_nil _ _, .inl ⟨c, rfl⟩⟩
    · exact ih h

/-- **The keys of a text are its characters that are no blanks.** -/
theorem flatten_keystrokes (line : Text) :
    (keystrokes line).flatten = line.filter fun c => !isBlank c := by
  induction line using keystrokes.induct with
  | case1 => simp [keystrokes]
  | case2 c rest hletter ih =>
    have hword : ∀ x ∈ c :: rest.takeWhile isLetter, isLetter x = true := by
      refine List.forall_mem_cons.mpr ⟨hletter, fun x hx => ?_⟩
      exact List.all_eq_true.mp List.all_takeWhile x hx
    have hkept : (c :: rest.takeWhile isLetter).filter (fun c => !isBlank c) =
        c :: rest.takeWhile isLetter := by
      refine List.filter_eq_self.mpr fun x hx => ?_
      rw [isBlank_eq_false (isMargin_of_isLetter (hword x hx))]
      rfl
    rw [keystrokes, if_pos hletter, List.flatten_cons, ih, ← hkept, ← List.filter_append,
      List.cons_append, List.takeWhile_append_dropWhile]
  | case3 c rest hletter hblank ih =>
    rw [keystrokes, if_neg hletter, if_pos hblank, ih, List.filter_cons_of_neg (by simp [hblank])]
  | case4 c rest hletter hblank ih =>
    rw [keystrokes, if_neg hletter, if_neg hblank, List.flatten_cons, ih,
      List.filter_cons_of_pos (by simp [hblank])]
    rfl

theorem isSeparator_of_isLetter {c : Char} (h : isLetter c = true) : isSeparator c = false := by
  rw [Bool.eq_false_iff]
  intro hsep
  simp only [isSeparator, isOperatorSign, Bool.or_eq_true, beq_iff_eq] at hsep
  rcases hsep with ((((((rfl | rfl) | rfl) | rfl) | rfl) | rfl) | rfl) <;>
    exact absurd h (by decide +kernel)

theorem isSeparator_point : ∀ c ∈ ['.'], isSeparator c = false := by
  intro c hc
  rw [List.mem_singleton.mp hc]
  rfl

theorem IsKey.separator {key : Text} (h : IsKey key) :
    (∃ c, key = [c] ∧ isSeparator c = true) ∨ ∀ c ∈ key, isSeparator c = false := by
  rcases h.single_or_word with ⟨c, rfl⟩ | hword
  · cases hc : isSeparator c with
    | true => exact .inl ⟨c, rfl, hc⟩
    | false =>
      right
      intro x hx
      rwa [List.mem_singleton.mp hx]
  · exact .inr fun c hc => isSeparator_of_isLetter (hword c hc)

theorem IsKey.eq_point {key : Text} (h : IsKey key) (hmem : '.' ∈ key) : key = ['.'] := by
  rcases h.single_or_word with ⟨c, rfl⟩ | hword
  · rw [List.mem_singleton.mp hmem]
  · exact absurd (hword _ hmem) (by rw [isLetter_point]; decide)

/-! ### A key behind a buffer -/

/-- A key behind what is kept of the buffer. -/
def placed (base key : Text) : Text :=
  base ++ if key = ['('] ∧ impliesProduct base then ['*', '('] else key

theorem placed_nil (key : Text) : placed [] key = key := by
  unfold placed
  rw [impliesProduct_nil, if_neg (by simp), List.nil_append]

theorem length_placed (base key : Text) : (placed base key).length =
    base.length + key.length + if key = ['('] ∧ impliesProduct base = true then 1 else 0 := by
  unfold placed
  rw [List.length_append]
  split
  · next h => rw [h.1]; rfl
  · rfl

theorem placed_ne_nil {base key : Text} (h : key ≠ []) : placed base key ≠ [] := by
  unfold placed
  split
  · simp
  · simp [h]

theorem segment_placed_separator (base : Text) {c : Char} (hc : isSeparator c = true) :
    segment (placed base [c]) = [] := by
  unfold placed
  split
  · rw [show (['*', '('] : Text) = ['*'] ++ ['('] from rfl, ← List.append_assoc]
    exact segment_append_separator _ rfl
  · exact segment_append_separator _ hc

theorem segment_placed (base : Text) {key : Text} (h : ∀ c ∈ key, isSeparator c = false) :
    segment (placed base key) = segment base ++ key := by
  unfold placed
  rw [if_neg]
  · exact segment_append_of_forall h
  · rintro ⟨rfl, -⟩
    exact absurd (h '(' List.mem_cons_self) (by decide)

theorem impliesProduct_placed (base key : Text) : impliesProduct (placed base key) =
    if trimRight key = [] then impliesProduct base else impliesProduct key := by
  unfold placed
  split
  · next h =>
    have hproduct : trimRight ['*', '('] ≠ [] ∧ impliesProduct ['*', '('] = false := by
      decide +kernel
    have hparen : trimRight ['('] ≠ [] ∧ impliesProduct ['('] = false := by decide +kernel
    rw [impliesProduct_append, h.1, if_neg hproduct.1, if_neg hparen.1, hproduct.2, hparen.2]
  · exact impliesProduct_append _ _

/-! ### The buffer after a key -/

/-- The buffer after a key, where no failure is shown. -/
def struck (lastResult : Option Text) (buffer key : Text) : Text :=
  (Pad.append { buffer, lastResult } key).buffer

/-- The buffer after keys in order. -/
def typed (lastResult : Option Text) (buffer : Text) (keys : List Text) : Text :=
  keys.foldl (struck lastResult) buffer

/-- What is kept of a buffer before a key. -/
def kept (lastResult : Option Text) (buffer key : Text) : Text :=
  Pad.base { buffer, lastResult } key

variable {lastResult : Option Text} {buffer key : Text}

theorem append_of_message {pad : Pad} (h : pad.message = none) (key : Text) :
    pad.append key = { pad with buffer := struck pad.lastResult pad.buffer key } := by
  obtain ⟨buffer, lastResult, message, history, destination⟩ := pad
  obtain rfl : message = none := h
  unfold struck Pad.append
  simp only
  split <;> rfl

/-- **Where no failure is shown, typing changes the buffer only.** -/
theorem foldl_append {pad : Pad} (h : pad.message = none) (keys : List Text) :
    keys.foldl Pad.append pad = { pad with buffer := typed pad.lastResult pad.buffer keys } := by
  induction keys generalizing pad with
  | nil => rfl
  | cons key keys ih =>
    rw [List.foldl_cons, append_of_message h]
    exact ih h

theorem dispatchAll_append (supply : Supply) (desk : Desk) (keys : List Text) :
    (desk.dispatchAll supply (keys.map .append)).pad = keys.foldl Pad.append desk.pad := by
  induction keys generalizing desk with
  | nil => rfl
  | cons key keys ih => exact ih _

theorem struck_refused (h : '.' ∈ segment buffer) : struck lastResult buffer ['.'] = buffer := by
  unfold struck Pad.append
  rw [if_pos (.inr ⟨rfl, h⟩)]

theorem struck_eq (hkey : key ≠ []) (h : key = ['.'] → '.' ∉ segment buffer) :
    struck lastResult buffer key = placed (kept lastResult buffer key) key := by
  unfold struck Pad.append
  rw [if_neg]
  · rfl
  · rintro (hnil | ⟨rfl, hmem⟩)
    · exact hkey hnil
    · exact h rfl hmem

theorem kept_none (buffer key : Text) :
    kept none buffer key = if buffer = ['0'] ∧ key ≠ ['.'] then [] else buffer := by
  simp [kept, Pad.base, Pad.showsResult]

theorem kept_shown (h : lastResult = some (resultLine buffer))
    (hkey : continuesResult key = false) : kept lastResult buffer key = [] := by
  simp [kept, Pad.base, Pad.showsResult, h, hkey]

theorem kept_of_continues (lastResult : Option Text) (buffer : Text)
    (hkey : continuesResult key = true) : kept lastResult buffer key = kept none buffer key := by
  simp [kept, Pad.base, Pad.showsResult, hkey]

theorem kept_of_ne (h : lastResult ≠ some (resultLine buffer)) (key : Text) :
    kept lastResult buffer key = kept none buffer key := by
  simp [kept, Pad.base, Pad.showsResult, h]

theorem base_eq_or (pad : Pad) (key : Text) : pad.base key = pad.buffer ∨ pad.base key = [] := by
  unfold Pad.base
  simp only
  split
  · exact .inr rfl
  · split
    · exact .inr rfl
    · exact .inl rfl

theorem kept_eq_or (lastResult : Option Text) (buffer key : Text) :
    kept lastResult buffer key = buffer ∨ kept lastResult buffer key = [] :=
  base_eq_or _ key

end DeskCalculator
