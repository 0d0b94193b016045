import DeskCalculator.Keypad.Desk
import Mathlib.Data.List.Nodup
import Mathlib.Data.List.Pairwise

/-!
# The history is the log of the evaluations

An intent either has an expression due and then puts one entry in front of the history, or it leaves
the history as it is, unless it clears it (`history_apply_of_due`, `history_apply_of_not_due`). What
the calculator is given is asked for exactly where an expression is due (`apply_congr`).

So the history after intents can be told without looking at any history. The surroundings answer the
calls one by one (`Surroundings`), and `Desk.log` lists the evaluations that intents make, each with
the answers to its calls. The history consists of the evaluations since it was last cleared, newest
first, and of what it held at the beginning if it never was (`history_eq_log`).
-/

namespace DeskCalculator

/-! ### One intent -/

section

variable {pad : Pad} {intent : Intent} {expression : Text}

theorem due?_eq_some_iff : pad.due? intent = some expression ↔
    intent = .evaluate ∧ trim pad.buffer ≠ [] ∧ expression = trim pad.buffer := by
  unfold Pad.due?
  split
  · by_cases hblank : trim pad.buffer = [] <;> simp [hblank, eq_comm]
  · next hne => exact ⟨nofun, fun h => absurd h.1 hne⟩

theorem history_record (pad : Pad) (entry : Entry) :
    (pad.record entry).history = entry :: pad.history := by
  unfold Pad.record
  split <;> rfl

theorem apply_of_due (h : pad.due? intent = some expression) (evaluate : Text → Outcome)
    (stamp : Stamp) : pad.apply evaluate stamp intent =
      pad.record ⟨stamp.id, stamp.timestamp, expression, evaluate expression⟩ := by
  obtain ⟨rfl, -, -⟩ := due?_eq_some_iff.mp h
  unfold Pad.apply
  simp only [h]

theorem history_apply_of_due (h : pad.due? intent = some expression) (evaluate : Text → Outcome)
    (stamp : Stamp) : (pad.apply evaluate stamp intent).history =
      ⟨stamp.id, stamp.timestamp, expression, evaluate expression⟩ :: pad.history := by
  rw [apply_of_due h, history_record]

/-- Where none is due, the history stays as it is, unless it is cleared. -/
theorem history_apply_of_not_due (h : pad.due? intent = none) (hclear : intent ≠ .clearHistory)
    (evaluate : Text → Outcome) (stamp : Stamp) :
    (pad.apply evaluate stamp intent).history = pad.history := by
  unfold Pad.apply
  cases intent with
  | append text =>
    simp only [Pad.append]
    split <;> rfl
  | delete =>
    simp only [Pad.delete]
    split <;> rfl
  | clear => rfl
  | evaluate => simp only [h]
  | clearHistory => exact absurd rfl hclear
  | switchTo name => rfl
  | use id =>
    simp only
    split <;> rfl
  | other => rfl

/-- **Nothing else is asked for**: evaluators that agree on the expression that is due, if one is,
make the same of the intent. -/
theorem apply_congr {evaluate evaluate' : Text → Outcome} {stamp stamp' : Stamp}
    (h : ∀ expression ∈ pad.due? intent,
      evaluate expression = evaluate' expression ∧ stamp = stamp') :
    pad.apply evaluate stamp intent = pad.apply evaluate' stamp' intent := by
  cases hdue : pad.due? intent with
  | some expression =>
    obtain ⟨hout, rfl⟩ := h expression hdue
    rw [apply_of_due hdue, apply_of_due hdue, hout]
  | none =>
    cases intent with
    | evaluate =>
      unfold Pad.apply
      simp only [hdue]
    | append text => rfl
    | delete => rfl
    | clear => rfl
    | clearHistory => rfl
    | switchTo name => rfl
    | use id => rfl
    | other => rfl

end

/-! ### Entries by name -/

section

variable {pad : Pad} {entry : Entry}

theorem find?_id_of_mem {history : List Entry} (hids : (history.map Entry.id).Nodup)
    (hmem : entry ∈ history) : history.find? (·.id == entry.id) = some entry := by
  have hfound : (history.find? (·.id == entry.id)).isSome :=
    List.find?_isSome.mpr ⟨entry, hmem, BEq.rfl⟩
  obtain ⟨other, hother⟩ := Option.isSome_iff_exists.mp hfound
  have hid : other.id = entry.id := by simpa using List.find?_some hother
  rw [hother, List.inj_on_of_nodup_map hids (List.mem_of_find?_eq_some hother) hmem hid]

theorem apply_use_of_mem (hids : (pad.history.map Entry.id).Nodup) (hmem : entry ∈ pad.history)
    (evaluate : Text → Outcome) (stamp : Stamp) :
    pad.apply evaluate stamp (.use entry.id) = pad.restore entry := by
  unfold Pad.apply
  simp only [find?_id_of_mem hids hmem]

end

/-! ### What the calculator does not know -/

section

variable {intent : Intent}

/-- **Not known**: a screen that does not exist, an entry that is not in the history, or what is no
intent. -/
inductive Unknown (pad : Pad) : Intent → Prop where
  | screen {name : Text} (h : ∀ d : Destination, d.name ≠ name) : Unknown pad (.switchTo name)
  | entry {id : String} (h : ∀ entry ∈ pad.history, entry.id ≠ id) : Unknown pad (.use id)
  | other : Unknown pad .other

/-- **What is not known changes nothing.** -/
theorem dispatch_of_unknown {desk : Desk} (h : Unknown desk.pad intent) (supply : Supply) :
    desk.dispatch supply intent = desk := by
  have hpad : desk.pad.apply supply.evaluate (supply.stamp desk.recorded) intent = desk.pad := by
    unfold Pad.apply
    cases h with
    | screen h =>
      have hnone : Destination.ofName? _ = none :=
        List.find?_eq_none.mpr fun d _ heq => h d (eq_of_beq heq)
      simp only [hnone, Option.getD_none]
    | entry h =>
      have hnone := List.find?_eq_none.mpr fun entry hmem heq => h entry hmem (eq_of_beq heq)
      simp only [hnone]
    | other => rfl
  have hdue : desk.pad.due? intent = none := by
    cases h <;> rfl
  unfold Desk.dispatch
  rw [hpad, hdue]
  rfl

end

/-! ### Surroundings -/

/-- What a calculator has around it. Each call may be answered anew: the answers of the evaluator,
of the source of names and of the clock are listed by the number of the call. -/
structure Surroundings where
  evaluate : Nat → Text → Outcome
  newId : Nat → String
  clock : Nat → Int

namespace Surroundings

variable (around : Surroundings)

/-- What is given for the call of a number. -/
def supply (call : Nat) : Supply where
  evaluate := around.evaluate call
  stamp := fun call => ⟨around.newId call, around.clock call⟩

/-- The clock does not go back. -/
def GoesOn : Prop :=
  ∀ earlier later, earlier ≤ later → around.clock earlier ≤ around.clock later

/-- The evaluation of an expression by the calls of a number. -/
def entry (call : Nat) (expression : Text) : Entry :=
  ⟨around.newId call, around.clock call, expression, around.evaluate call expression⟩

end Surroundings

namespace Desk

variable (around : Surroundings)

/-- After an intent, with the answers to the next calls. -/
def step (desk : Desk) (intent : Intent) : Desk :=
  desk.dispatch (around.supply desk.recorded) intent

/-- After intents in order. -/
def follow (desk : Desk) (intents : List Intent) : Desk :=
  intents.foldl (step around) desk

/-- The expressions that the evaluator is called on. -/
def calls (desk : Desk) : List Intent → List Text
  | [] => []
  | intent :: intents => (desk.pad.due? intent).toList ++ (desk.step around intent).calls intents

/-- **The log of the evaluations** that intents make, oldest first: one for each evaluation of a
buffer that is not blank. -/
def log (desk : Desk) : List Intent → List Entry
  | [] => []
  | intent :: intents =>
    if intent = .evaluate ∧ trim desk.pad.buffer ≠ [] then
      around.entry desk.recorded (trim desk.pad.buffer) :: (desk.step around intent).log intents
    else (desk.step around intent).log intents

variable {around} {desk : Desk} {intent : Intent} {intents : List Intent} {expression : Text}

theorem follow_eq_dispatchAll (supply : Supply) (desk : Desk) (intents : List Intent) :
    desk.follow ⟨fun _ => supply.evaluate, fun n => (supply.stamp n).id,
      fun n => (supply.stamp n).timestamp⟩ intents = desk.dispatchAll supply intents := rfl

theorem follow_append (first second : List Intent) :
    desk.follow around (first ++ second) = (desk.follow around first).follow around second :=
  List.foldl_append

/-! ### The log -/

theorem log_cons_of_due (h : desk.pad.due? intent = some expression) :
    desk.log around (intent :: intents) =
      around.entry desk.recorded expression :: (desk.step around intent).log around intents := by
  obtain ⟨hintent, hne, rfl⟩ := due?_eq_some_iff.mp h
  rw [log, if_pos ⟨hintent, hne⟩]

theorem log_cons_of_not_due (h : desk.pad.due? intent = none) :
    desk.log around (intent :: intents) = (desk.step around intent).log around intents := by
  rw [log, if_neg]
  rintro ⟨hintent, hne⟩
  rw [due?_eq_some_iff.mpr ⟨hintent, hne, rfl⟩] at h
  cases h

theorem recorded_dispatch_of_due {supply : Supply} (h : desk.pad.due? intent = some expression) :
    (desk.dispatch supply intent).recorded = desk.recorded + 1 := by
  simp [dispatch, h]

theorem recorded_dispatch_of_not_due {supply : Supply} (h : desk.pad.due? intent = none) :
    (desk.dispatch supply intent).recorded = desk.recorded := by
  simp [dispatch, h]

theorem recorded_step_of_due (h : desk.pad.due? intent = some expression) :
    (desk.step around intent).recorded = desk.recorded + 1 :=
  recorded_dispatch_of_due h

theorem recorded_step_of_not_due (h : desk.pad.due? intent = none) :
    (desk.step around intent).recorded = desk.recorded :=
  recorded_dispatch_of_not_due h

theorem log_append (first second : List Intent) : desk.log around (first ++ second) =
    desk.log around first ++ (desk.follow around first).log around second := by
  induction first generalizing desk with
  | nil => rfl
  | cons intent first ih =>
    rw [List.cons_append]
    cases hdue : desk.pad.due? intent with
    | some expression =>
      rw [log_cons_of_due hdue, log_cons_of_due hdue, ih]
      rfl
    | none =>
      rw [log_cons_of_not_due hdue, log_cons_of_not_due hdue, ih]
      rfl

/-- The expressions of the log are those that the evaluator is called on. -/
theorem map_expression_log : (desk.log around intents).map (·.expression) =
    desk.calls around intents := by
  induction intents generalizing desk with
  | nil => rfl
  | cons intent intents ih =>
    rw [calls]
    cases hdue : desk.pad.due? intent with
    | some expression =>
      rw [log_cons_of_due hdue, List.map_cons, ih]
      rfl
    | none =>
      rw [log_cons_of_not_due hdue, ih]
      rfl

theorem recorded_follow : (desk.follow around intents).recorded =
    desk.recorded + (desk.log around intents).length := by
  induction intents generalizing desk with
  | nil => rfl
  | cons intent intents ih =>
    show ((desk.step around intent).follow around intents).recorded = _
    rw [ih]
    cases hdue : desk.pad.due? intent with
    | some expression =>
      rw [log_cons_of_due hdue, recorded_step_of_due hdue, List.length_cons]
      omega
    | none => rw [log_cons_of_not_due hdue, recorded_step_of_not_due hdue]

theorem getElem?_log {k : Nat} {entry : Entry} (h : (desk.log around intents)[k]? = some entry) :
    entry = around.entry (desk.recorded + k) entry.expression := by
  -- The desk is generalised: the number of the call has moved on for what comes later.
  induction intents generalizing desk k with
  | nil => cases h
  | cons intent intents ih =>
    cases hdue : desk.pad.due? intent with
    | some expression =>
      rw [log_cons_of_due hdue] at h
      cases k with
      | zero =>
        obtain rfl := Option.some.inj h
        rfl
      | succ k =>
        have hlater := ih h
        rwa [recorded_step_of_due hdue, Nat.add_assoc, Nat.add_comm 1] at hlater
    | none =>
      rw [log_cons_of_not_due hdue] at h
      have hlater := ih h
      rwa [recorded_step_of_not_due hdue] at hlater

theorem follow_congr {around' : Surroundings}
    (h : ∀ k entry, (desk.log around intents)[k]? = some entry →
      around'.entry (desk.recorded + k) entry.expression = entry) :
    desk.follow around' intents = desk.follow around intents := by
  induction intents generalizing desk with
  | nil => rfl
  | cons intent intents ih =>
    have hstep : desk.step around' intent = desk.step around intent := by
      unfold step dispatch
      congr 1
      refine apply_congr fun expression hdue => ?_
      rw [log_cons_of_due hdue] at h
      have hentry := h 0 _ rfl
      injection hentry with hid htime _ hout
      exact ⟨hout, congrArg₂ Stamp.mk hid htime⟩
    show (desk.step around' intent).follow around' intents =
      (desk.step around intent).follow around intents
    rw [hstep]
    refine ih fun k entry hk => ?_
    cases hdue : desk.pad.due? intent with
    | some expression =>
      rw [log_cons_of_due hdue] at h
      rw [recorded_step_of_due hdue, Nat.add_assoc, Nat.add_comm 1]
      exact h (k + 1) entry hk
    | none =>
      rw [log_cons_of_not_due hdue] at h
      rw [recorded_step_of_not_due hdue]
      exact h k entry hk

/-! ### The history -/

/-- What is not cleared stays below the new entries. -/
theorem history_follow (h : .clearHistory ∉ intents) : (desk.follow around intents).pad.history =
    (desk.log around intents).reverse ++ desk.pad.history := by
  induction intents generalizing desk with
  | nil => rfl
  | cons intent intents ih =>
    have hne : intent ≠ .clearHistory := fun heq => h (heq ▸ List.mem_cons_self)
    show ((desk.step around intent).follow around intents).pad.history = _
    rw [ih fun hmem => h (List.mem_cons_of_mem _ hmem)]
    cases hdue : desk.pad.due? intent with
    | some expression =>
      rw [log_cons_of_due hdue, List.reverse_cons, List.append_assoc, List.singleton_append]
      congr 1
      exact history_apply_of_due hdue _ _
    | none =>
      rw [log_cons_of_not_due hdue]
      congr 1
      exact history_apply_of_not_due hdue hne _ _

theorem exists_split_clearHistory (intents : List Intent) : ∃ before after,
    intents = before ++ after ∧ .clearHistory ∉ after ∧
      (before = [] ∨ before.getLast? = some .clearHistory) := by
  induction intents with
  | nil => exact ⟨[], [], rfl, List.not_mem_nil, .inl rfl⟩
  | cons intent intents ih =>
    obtain ⟨before, after, rfl, hafter, hbefore⟩ := ih
    rcases hbefore with rfl | hlast
    · by_cases hclear : intent = .clearHistory
      · exact ⟨[intent], after, rfl, hafter, .inr (by rw [hclear]; rfl)⟩
      · refine ⟨[], intent :: after, rfl, ?_, .inl rfl⟩
        rw [List.mem_cons, not_or]
        exact ⟨Ne.symm hclear, hafter⟩
    · refine ⟨intent :: before, after, rfl, hafter, .inr ?_⟩
      rw [List.getLast?_cons, hlast]
      rfl

theorem history_follow_of_getLast? (h : intents.getLast? = some .clearHistory) :
    (desk.follow around intents).pad.history = [] := by
  obtain ⟨before, rfl⟩ := List.getLast?_eq_some_iff.mp h
  rw [follow_append]
  rfl

theorem pairwise_timestamp_log (hclock : around.GoesOn) :
    (desk.log around intents).Pairwise fun earlier later =>
      earlier.timestamp ≤ later.timestamp := by
  rw [List.pairwise_iff_getElem]
  intro i j hi hj hij
  rw [getElem?_log (List.getElem?_eq_getElem hi), getElem?_log (List.getElem?_eq_getElem hj)]
  exact hclock _ _ (Nat.add_le_add_left (Nat.le_of_lt hij) _)

theorem nodup_id_log (hnew : Function.Injective around.newId) :
    ((desk.log around intents).map (·.id)).Nodup := by
  rw [List.Nodup, List.pairwise_map, List.pairwise_iff_getElem]
  intro i j hi hj hij
  rw [getElem?_log (List.getElem?_eq_getElem hi), getElem?_log (List.getElem?_eq_getElem hj)]
  exact fun heq => Nat.ne_of_lt hij (Nat.add_left_cancel (hnew heq))

end Desk

open Desk

/-- **The history is the log of the evaluations.** Whatever the desk, the intents and the
surroundings are: the history holds, newest first, the entries of the evaluations since it was last
cleared, and below them what it held at the beginning if it never was. There is one entry for each
expression that was due, with the answers to the next calls for it, so that calls and entries are in
step; and no other call matters. If the clock does not go back, no new entry has an earlier time
than the new ones below it, and if no name comes twice, the new entries differ in name. -/
theorem history_eq_log (around : Surroundings) (desk : Desk) (intents : List Intent) :
    (∃ before after, intents = before ++ after ∧ .clearHistory ∉ after ∧
      (before = [] ∨ before.getLast? = some .clearHistory) ∧
      ∃ older newer, desk.log around intents = older ++ newer ∧
        older = desk.log around before ∧
        (desk.follow around intents).pad.history =
          newer.reverse ++ (if before = [] then desk.pad.history else []) ∧
        (around.GoesOn → newer.reverse.Pairwise fun above below =>
          below.timestamp ≤ above.timestamp) ∧
        (Function.Injective around.newId → (newer.map (·.id)).Nodup)) ∧
    (desk.log around intents).map (·.expression) = desk.calls around intents ∧
    (∀ k entry, (desk.log around intents)[k]? = some entry →
      entry = around.entry (desk.recorded + k) entry.expression) ∧
    (desk.follow around intents).recorded =
      desk.recorded + (desk.log around intents).length ∧
    ∀ around' : Surroundings,
      (∀ k entry, (desk.log around intents)[k]? = some entry →
        around'.entry (desk.recorded + k) entry.expression = entry) →
      desk.follow around' intents = desk.follow around intents := by
  refine ⟨?_, map_expression_log, fun _ _ => getElem?_log, recorded_follow, fun _ => follow_congr⟩
  obtain ⟨before, after, rfl, hafter, hbefore⟩ := exists_split_clearHistory intents
  refine ⟨before, after, rfl, hafter, hbefore, _, _, log_append before after, rfl, ?_, ?_, ?_⟩
  · rw [follow_append, history_follow hafter]
    congr 1
    rcases hbefore with rfl | hlast
    · rfl
    · rw [history_follow_of_getLast? hlast, if_neg]
      rintro rfl
      cases hlast
  · exact fun hclock => List.pairwise_reverse.mpr (pairwise_timestamp_log hclock)
  · exact nodup_id_log

/-- Surroundings whose clock goes on and whose names differ in length. -/
def tallySurroundings : Surroundings where
  evaluate := fun _ => evaluate
  newId := fun n => String.ofList (List.replicate n '|')
  clock := fun n => n

/-- Of three evaluations the last two come after the history was cleared. -/
theorem history_eq_log_three_evaluations :
    (tallySurroundings.GoesOn ∧ Function.Injective tallySurroundings.newId) ∧
    ∃ history, (Desk.follow tallySurroundings {} [.append ['2'], .evaluate, .clearHistory,
        .append ['+'], .append ['3'], .evaluate, .append ['/'], .append ['0'],
        .evaluate]).pad.history = history ∧
      history.map (·.expression) = [['5', '/', '0'], ['2', '+', '3']] ∧
      (history.Pairwise fun above below => below.timestamp ≤ above.timestamp) ∧
      (history.map (·.id)).Nodup := by
  have hclock : tallySurroundings.GoesOn := fun _ _ h => Int.ofNat_le.mpr h
  have hnew : Function.Injective tallySurroundings.newId := by
    intro m n h
    simpa [tallySurroundings] using congrArg String.length h
  refine ⟨⟨hclock, hnew⟩, _, rfl, by decide +kernel, ?_⟩
  obtain ⟨⟨before, after, -, -, -, older, newer, -, -, hhistory, htimes, hids⟩, -⟩ :=
    history_eq_log tallySurroundings {} [.append ['2'], .evaluate, .clearHistory,
        .append ['+'], .append ['3'], .evaluate, .append ['/'], .append ['0'], .evaluate]
  rw [show (if before = [] then (Desk.pad {}).history else []) = [] from ite_self _,
    List.append_nil] at hhistory
  rw [hhistory]
  refine ⟨htimes hclock, ?_⟩
  rw [List.map_reverse, List.Nodup, List.pairwise_reverse]
  exact (hids hnew).imp Ne.symm

end DeskCalculator
