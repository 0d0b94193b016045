import DeskCalculator.Proofs.Console.Session
import Mathlib.Algebra.Order.BigOperators.Group.List

/-!
# Typed lines and pressed keys

Some keys act at once when they are pressed: they evaluate, delete or clear. A line that is typed
puts all its keys into the buffer, those that act like any other, and then evaluates it. So typing a
line and pressing its keys come to the same where no key of the line acts
(`desk_enter_of_not_acts`). Otherwise they differ, and a new desk shows it. The names of the keys
that act have letters or an equality sign, which are counted here (`marks`). A typed line keeps all
of them in the expression that it evaluates (`exists_entry_of_enter`), whereas pressed keys that act
put none into the buffer, so that the expression evaluated first has less (`Within.press`).
Therefore the two agree on every desk exactly if no key of the line acts (`typed_as_pressed_iff`).
-/

namespace DeskCalculator

/-! ### Keys that act -/

namespace Key

variable {key : Text}

/-- Whether a key does something else than being put into the buffer. -/
def acts (key : Text) : Bool :=
  (actions.lookup key).isSome

theorem typed_of_not_acts (h : ¬ acts key = true) : typed key = .append key := by
  have hlookup : actions.lookup key = none := Option.not_isSome_iff_eq_none.mp h
  unfold typed intent?
  rw [hlookup]
  simp only
  split <;> rfl

theorem exists_mem_actions_of_acts (h : acts key = true) :
    ∃ intent, (key, intent) ∈ actions ∧ typed key = intent := by
  obtain ⟨intent, hlookup⟩ := Option.isSome_iff_exists.mp h
  obtain ⟨before, after, heq, -⟩ := List.lookup_eq_some_iff.mp hlookup
  refine ⟨intent, by simp [heq], ?_⟩
  unfold typed intent?
  rw [hlookup]
  rfl

theorem typed_of_acts (h : acts key = true) :
    typed key = .evaluate ∨ typed key = .delete ∨ typed key = .clear := by
  obtain ⟨intent, hmem, rfl⟩ := exists_mem_actions_of_acts h
  have hall : ∀ action ∈ actions,
      action.2 = .evaluate ∨ action.2 = .delete ∨ action.2 = .clear := by decide
  exact hall _ hmem

end Key

namespace Dialogue

/-- The intents of the keys of a line that are pressed one by one, and then of an evaluation, if the
last key has not evaluated. -/
def pressing (line : Text) : List Intent :=
  let intents := (keystrokes line).map Key.typed
  if intents.getLast? = some .evaluate then intents else intents ++ [.evaluate]

variable {stamp : Nat → Stamp} {desk : Desk} {line : Text}

theorem pressing_of_not_acts (h : ∀ key ∈ keystrokes line, ¬ Key.acts key = true) :
    pressing line = typing line := by
  have hintents : (keystrokes line).map Key.typed = (keystrokes line).map .append :=
    List.map_congr_left fun key hkey => Key.typed_of_not_acts (h key hkey)
  unfold pressing typing
  simp only [hintents]
  rw [if_neg]
  intro hlast
  obtain ⟨key, -, hkey⟩ := List.mem_map.mp (List.mem_of_getLast? hlast)
  cases hkey

/-- **Where no key acts, a line is typed as its keys are pressed.** -/
theorem desk_enter_of_not_acts (hne : line ≠ [])
    (h : ∀ key ∈ keystrokes line, ¬ Key.acts key = true) :
    (enter stamp desk line).desk = desk.dispatchAll (supply stamp) (pressing line) := by
  rw [pressing_of_not_acts h, enter_eq_performAndShow hne]
  exact desk_perform _

end Dialogue

/-! ### Marks -/

/-- A character of the keys that act. -/
def isMark (c : Char) : Bool :=
  isLetter c || c == '='

/-- The number of letters and equality signs in a text. -/
def marks (text : Text) : Nat :=
  text.countP isMark

theorem marks_append (first second : Text) :
    marks (first ++ second) = marks first + marks second :=
  List.countP_append

theorem marks_pos_of_acts {key : Text} (h : Key.acts key = true) : 0 < marks key := by
  obtain ⟨intent, hmem, -⟩ := Key.exists_mem_actions_of_acts h
  have hall : Key.actions.all (fun action => 0 < marks action.1) = true := by decide +kernel
  exact of_decide_eq_true (List.all_eq_true.mp hall _ hmem)

theorem isMark_of_isMargin {c : Char} (h : isMargin c = true) : isMark c = false := by
  rw [isMark, Bool.or_eq_false_iff]
  constructor
  · rw [Bool.eq_false_iff]
    intro hletter
    rw [isMargin_of_isLetter hletter] at h
    cases h
  · rw [beq_eq_false_iff_ne]
    rintro rfl
    exact absurd h (by decide +kernel)

theorem marks_dropWhile_isMargin (text : Text) : marks (text.dropWhile isMargin) = marks text :=
  countP_dropWhile (fun _ => isMark_of_isMargin) text

theorem marks_reverse (text : Text) : marks text.reverse = marks text :=
  List.countP_reverse

theorem marks_trim (text : Text) : marks (trim text) = marks text := by
  unfold trim trimRight
  rw [marks_reverse, marks_dropWhile_isMargin, marks_reverse, marks_dropWhile_isMargin]

/-- **A key puts its marks into the buffer**, where there is neither a result nor a failure. -/
theorem marks_struck {key : Text} (hkey : key ≠ []) (buffer : Text) :
    marks (struck none buffer key) = marks buffer + marks key := by
  by_cases hrefused : key = ['.'] ∧ '.' ∈ segment buffer
  · obtain ⟨rfl, hpoint⟩ := hrefused
    have hnone : marks ['.'] = 0 := by decide +kernel
    rw [struck_refused hpoint, hnone, Nat.add_zero]
  · have hkept : marks (kept none buffer key) = marks buffer := by
      rw [kept_none]
      split
      · next hzero =>
        rw [hzero.1]
        decide +kernel
      · rfl
    rw [struck_eq hkey fun hpoint hmem => hrefused ⟨hpoint, hmem⟩, placed, marks_append, hkept]
    split
    · next hproduct =>
      have hnone : marks ['*', '('] = marks ['('] := by decide +kernel
      rw [hproduct.1, hnone]
    · rfl

theorem marks_typed {keys : List Text} (hkeys : ∀ key ∈ keys, key ≠ []) (buffer : Text) :
    marks (typed none buffer keys) = marks buffer + (keys.map marks).sum := by
  induction keys generalizing buffer with
  | nil => rfl
  | cons key keys ih =>
    obtain ⟨hkey, hrest⟩ := List.forall_mem_cons.mp hkeys
    show marks (typed none (struck none buffer key) keys) = _
    rw [ih hrest, marks_struck hkey, List.map_cons, List.sum_cons, Nat.add_assoc]

namespace Dialogue

variable {stamp : Nat → Stamp} {line : Text}

/-- **A typed line keeps its marks**: on a new desk they are all in the expression evaluated. -/
theorem exists_entry_of_enter (stamp : Nat → Stamp) (h : 0 < ((keystrokes line).map marks).sum) :
    ∃ entry, (enter stamp {} line).desk.pad.history = [entry] ∧
      marks entry.expression = ((keystrokes line).map marks).sum := by
  have hne : line ≠ [] := by
    rintro rfl
    simp [keystrokes] at h
  have hmarks : marks (keyed stamp {} (keystrokes line)).pad.buffer =
      ((keystrokes line).map marks).sum := by
    rw [buffer_keyed_init, marks_typed fun key hkey => (isKey_of_mem_keystrokes hkey).ne_nil]
    exact Nat.zero_add _
  have hblank : trim (keyed stamp {} (keystrokes line)).pad.buffer ≠ [] := by
    intro hnil
    rw [← hmarks, ← marks_trim, hnil] at h
    exact Nat.lt_irrefl 0 h
  have hhistory := history_apply_of_due (due?_eq_some_iff.mpr ⟨rfl, hblank, rfl⟩) evaluate
    (stamp (keyed stamp {} (keystrokes line)).recorded)
  rw [(keyed_keeps stamp {} (keystrokes line)).1] at hhistory
  rw [desk_enter_of_ne_nil hne]
  exact ⟨_, hhistory, (marks_trim _).trans hmarks⟩

end Dialogue

/-! ### Pressed keys -/

/-- The marks that a pressed key puts into the buffer: none if it acts. -/
def pressedMarks (key : Text) : Nat :=
  if Key.acts key = true then 0 else marks key

/-- **The invariant**: as long as nothing has been evaluated, the pad is that of typing, with a
limited number of marks in the buffer, and so is the expression evaluated first. -/
structure Within (limit : Nat) (pad : Pad) : Prop where
  typing : pad.history = [] → pad.lastResult = none ∧ pad.message = none ∧ marks pad.buffer ≤ limit
  first : ∀ entry, pad.history.getLast? = some entry → marks entry.expression ≤ limit

theorem within_init : Within 0 {} :=
  ⟨fun _ => ⟨rfl, rfl, Nat.le_refl 0⟩, fun _ hlast => absurd hlast.symm (Option.some_ne_none _)⟩

section

variable {limit : Nat} {pad : Pad} {key : Text}

theorem Within.append (h : Within limit pad) (hkey : key ≠ []) :
    Within (limit + marks key) (pad.append key) := by
  have hhistory : (pad.append key).history = pad.history := by
    unfold Pad.append
    split <;> rfl
  refine ⟨fun hnone => ?_, fun entry hlast => ?_⟩
  · obtain ⟨hresult, hmessage, hmarks⟩ := h.typing (hhistory ▸ hnone)
    rw [append_of_message hmessage]
    refine ⟨hresult, hmessage, ?_⟩
    show marks (struck pad.lastResult pad.buffer key) ≤ _
    rw [hresult, marks_struck hkey]
    omega
  · rw [hhistory] at hlast
    exact Nat.le_add_right_of_le (h.first entry hlast)

theorem Within.shorten {pad' : Pad} (h : Within limit pad) (hbuffer : pad'.buffer.Sublist pad.buffer)
    (hlast : pad'.lastResult = pad.lastResult) (hmessage : pad'.message = none)
    (hhistory : pad'.history = pad.history) : Within limit pad' := by
  refine ⟨fun hnone => ?_, fun entry hentry => h.first entry (hhistory ▸ hentry)⟩
  obtain ⟨hresult, -, hmarks⟩ := h.typing (hhistory ▸ hnone)
  exact ⟨hlast.trans hresult, hmessage, hbuffer.countP_le.trans hmarks⟩

theorem Within.delete (h : Within limit pad) : Within limit pad.delete := by
  unfold Pad.delete
  split
  · exact h
  · exact h.shorten (List.dropLast_sublist _) rfl rfl rfl

theorem Within.evaluate (h : Within limit pad) (stamp : Stamp) :
    Within limit (pad.apply evaluate stamp .evaluate) := by
  cases hdue : pad.due? .evaluate with
  | none =>
    unfold Pad.apply
    rw [hdue]
    exact h
  | some expression =>
    obtain ⟨-, -, rfl⟩ := due?_eq_some_iff.mp hdue
    have hhistory := history_apply_of_due hdue DeskCalculator.evaluate stamp
    refine ⟨fun hnone => ?_, fun entry hlast => ?_⟩
    · rw [hhistory] at hnone
      exact absurd hnone (List.cons_ne_nil _ _)
    · rw [hhistory, List.getLast?_cons] at hlast
      cases hold : pad.history.getLast? with
      | some older =>
        rw [hold] at hlast
        obtain rfl := Option.some.inj hlast
        exact h.first older hold
      | none =>
        rw [hold] at hlast
        obtain rfl := Option.some.inj hlast
        show marks (trim pad.buffer) ≤ limit
        rw [marks_trim]
        exact (h.typing (List.getLast?_eq_none_iff.mp hold)).2.2

theorem Within.press (h : Within limit pad) (hkey : key ≠ []) (stamp : Stamp) :
    Within (limit + pressedMarks key) (pad.apply DeskCalculator.evaluate stamp (Key.typed key)) := by
  unfold pressedMarks
  split
  · next hacts =>
    rcases Key.typed_of_acts hacts with htyped | htyped | htyped
    · rw [htyped]
      exact h.evaluate stamp
    · rw [htyped]
      exact h.delete
    · rw [htyped]
      exact h.shorten (List.nil_sublist _) rfl rfl rfl
  · next hacts =>
    rw [Key.typed_of_not_acts hacts]
    exact h.append hkey

end

theorem Within.pressAll {limit : Nat} {desk : Desk} {keys : List Text} (h : Within limit desk.pad)
    (hkeys : ∀ key ∈ keys, key ≠ []) (stamp : Nat → Stamp) :
    Within (limit + (keys.map pressedMarks).sum)
      (desk.dispatchAll (Dialogue.supply stamp) (keys.map Key.typed)).pad := by
  induction keys generalizing limit desk with
  | nil => exact h
  | cons key keys ih =>
    obtain ⟨hkey, hrest⟩ := List.forall_mem_cons.mp hkeys
    rw [List.map_cons, List.sum_cons, ← Nat.add_assoc]
    exact ih (h.press hkey (stamp desk.recorded)) hrest

namespace Dialogue

theorem within_pressing (stamp : Nat → Stamp) (line : Text) :
    Within ((keystrokes line).map pressedMarks).sum
      (Desk.dispatchAll (supply stamp) {} (pressing line)).pad := by
  have hne : ∀ key ∈ keystrokes line, key ≠ [] := fun key hkey =>
    (isKey_of_mem_keystrokes hkey).ne_nil
  have hkeys : Within (0 + ((keystrokes line).map pressedMarks).sum)
      (Desk.dispatchAll (supply stamp) {} ((keystrokes line).map Key.typed)).pad :=
    within_init.pressAll hne stamp
  rw [Nat.zero_add] at hkeys
  unfold pressing
  simp only
  split
  · exact hkeys
  · rw [Desk.dispatchAll, List.foldl_concat]
    exact hkeys.evaluate _

/-- A key that acts takes marks away from the expression evaluated first. -/
theorem sum_pressedMarks_lt (h : ∃ key ∈ keystrokes line, Key.acts key = true) :
    ((keystrokes line).map pressedMarks).sum < ((keystrokes line).map marks).sum := by
  obtain ⟨key, hkey, hacts⟩ := h
  refine List.sum_lt_sum _ _ (fun other _ => ?_) ⟨key, hkey, ?_⟩
  · unfold pressedMarks
    split
    · exact Nat.zero_le _
    · exact Nat.le_refl _
  · rw [pressedMarks, if_pos hacts]
    exact marks_pos_of_acts hacts

/-- **Where a key acts, a new desk shows the difference** between typing the line and pressing its
keys. -/
theorem history_enter_ne_of_acts (h : ∃ key ∈ keystrokes line, Key.acts key = true) :
    (enter stamp {} line).desk.pad.history ≠
      (Desk.dispatchAll (supply stamp) {} (pressing line)).pad.history := by
  intro heq
  have hlt := sum_pressedMarks_lt h
  obtain ⟨entry, hhistory, hmarks⟩ := exists_entry_of_enter stamp (Nat.zero_lt_of_lt hlt)
  have hfirst := (within_pressing stamp line).first entry (by rw [← heq, hhistory]; rfl)
  omega

/-- **A line is typed as its keys are pressed exactly if no key of it acts.** Typing a line puts all
its keys into the buffer and then evaluates it, once; pressing its keys does what each asks for, and
evaluates at the end unless the last key has done so. The two leave the same pad on every desk if
and only if no key of the line evaluates, deletes or clears, and where one does they already differ
in the history on a new desk. -/
theorem typed_as_pressed_iff (stamp : Nat → Stamp) (hne : line ≠ []) :
    (∀ desk, (enter stamp desk line).desk =
      desk.dispatchAll (supply stamp) ((keystrokes line).map .append ++ [.evaluate])) ∧
    ((∀ desk, (enter stamp desk line).desk.pad =
        (desk.dispatchAll (supply stamp) (pressing line)).pad) ↔
      ∀ key ∈ keystrokes line, ¬ Key.acts key = true) ∧
    ((∃ key ∈ keystrokes line, Key.acts key = true) →
      (enter stamp {} line).desk.pad.history ≠
        (Desk.dispatchAll (supply stamp) {} (pressing line)).pad.history) := by
  refine ⟨fun desk => ?_, ⟨fun hsame key hkey hacts => ?_, fun hnone desk => ?_⟩,
    history_enter_ne_of_acts⟩
  · rw [enter_eq_performAndShow hne]
    exact desk_perform _
  · exact history_enter_ne_of_acts ⟨key, hkey, hacts⟩ (congrArg Pad.history (hsame {}))
  · rw [desk_enter_of_not_acts hne hnone]

/-- A sum. -/
def sumAlone : Text :=
  ['1', '+', '1']

/-- A sum with the key that evaluates. -/
def sumWithEquals : Text :=
  ['1', '+', '1', '=']

/-- The sum is typed as its keys are pressed; with the equality sign, which acts, it is not. -/
theorem typed_as_pressed_iff_sum :
    (sumAlone ≠ [] ∧ (∀ key ∈ keystrokes sumAlone, ¬ Key.acts key = true) ∧
      (enter countingStamp {} sumAlone).desk.pad =
        (Desk.dispatchAll (supply countingStamp) {} (pressing sumAlone)).pad) ∧
    (sumWithEquals ≠ [] ∧ (∃ key ∈ keystrokes sumWithEquals, Key.acts key = true) ∧
      (enter countingStamp {} sumWithEquals).desk.pad.history ≠
        (Desk.dispatchAll (supply countingStamp) {} (pressing sumWithEquals)).pad.history) := by
  have hkeys : keystrokes sumAlone = [['1'], ['+'], ['1']] := by decide +kernel
  have hkeysEquals : keystrokes sumWithEquals = [['1'], ['+'], ['1'], ['=']] := by decide +kernel
  have hnone : ∀ key ∈ keystrokes sumAlone, ¬ Key.acts key = true := by
    rw [hkeys]
    simp [Key.acts, Key.actions, List.lookup]
  have hacts : ∃ key ∈ keystrokes sumWithEquals, Key.acts key = true := by
    rw [hkeysEquals]
    exact ⟨['='], by decide, by decide⟩
  have hsum : sumAlone ≠ [] := List.cons_ne_nil _ _
  have hequals : sumWithEquals ≠ [] := List.cons_ne_nil _ _
  obtain ⟨-, hsame, -⟩ := typed_as_pressed_iff countingStamp hsum
  obtain ⟨-, -, hdiffer⟩ := typed_as_pressed_iff countingStamp hequals
  exact ⟨⟨hsum, hnone, hsame.mpr hnone {}⟩, hequals, hacts, hdiffer hacts⟩

/-- The equality sign of a typed sum is read as a character of the expression, and there is none
such; pressed, it evaluates the sum. -/
theorem typed_sumWithEquals :
    (sumWithEquals ≠ [] ∧ trim sumWithEquals = sumWithEquals ∧
      sumWithEquals.head? ≠ some ':' ∧
      pressing sumWithEquals = [.append ['1'], .append ['+'], .append ['1'], .evaluate]) ∧
    (enter countingStamp {} sumWithEquals).desk.pad.screen =
      (['1', '+', '1', '='], "Unknown character '='") ∧
    (Desk.dispatchAll (supply countingStamp) {} (pressing sumWithEquals)).pad.screen =
      (['2'], "= 2") := by
  decide +kernel

end Dialogue

end DeskCalculator
