import DeskCalculator.Proofs.Keypad.StartOver

/-!
# Evaluating again

A message on the screen is what evaluating the buffer says, and a buffer that shows the latest
result evaluates to itself. So evaluating a second time adds to the history and changes nothing else
(`face_evaluate_evaluate`), and an empty line, which does not evaluate a shown result again, leaves
what an evaluation would have left (`evaluating_again`).
-/

namespace DeskCalculator

/-- A pad without its history: all that it shows. -/
def Pad.face (pad : Pad) : Pad :=
  { pad with history := [] }

variable {pad : Pad} {stamp : Stamp}

theorem face_of_history {pad' : Pad} {history : List Entry}
    (h : pad' = { pad with history := history }) : pad'.face = pad.face := by
  rw [h]
  rfl

/-- **The displayed form of a value is its own displayed form.** -/
theorem evaluate_shown {expression shown : Text} {v : Float}
    (h : evaluate expression = .success v shown) :
    trim shown = shown ∧ shown ≠ [] ∧ ∃ w, evaluate shown = .success w shown := by
  obtain ⟨hfinite, rfl⟩ := evaluate_eq_success h
  obtain ⟨n, htext, -⟩ := exists_plain_display hfinite
  refine ⟨?_, ?_, _, evaluate_display hfinite⟩
  · rw [← htext, n.trim_text]
  · rw [← htext]
    exact n.text_ne_nil

/-! ### The evaluation of a pad -/

theorem apply_evaluate_of_blank (h : trim pad.buffer = []) :
    pad.apply evaluate stamp .evaluate = pad := by
  unfold Pad.apply Pad.due?
  simp only [if_pos h]

theorem apply_evaluate_of_success {v : Float} {shown : Text} (hne : trim pad.buffer ≠ [])
    (h : evaluate (trim pad.buffer) = .success v shown) :
    pad.apply evaluate stamp .evaluate =
      { pad with
        buffer := shown
        lastResult := some (resultLine shown)
        message := none
        history := ⟨stamp.id, stamp.timestamp, trim pad.buffer, .success v shown⟩ ::
          pad.history } := by
  unfold Pad.apply Pad.due?
  simp only [if_neg hne, h, Pad.record]

theorem apply_evaluate_of_failure {kind : FaultKind} {message : String}
    (hne : trim pad.buffer ≠ []) (h : evaluate (trim pad.buffer) = .failure kind message) :
    pad.apply evaluate stamp .evaluate =
      { pad with
        message := some message
        history := ⟨stamp.id, stamp.timestamp, trim pad.buffer, .failure kind message⟩ ::
          pad.history } := by
  unfold Pad.apply Pad.due?
  simp only [if_neg hne, h, Pad.record]

theorem apply_evaluate_of_shown {v : Float}
    (hlast : pad.lastResult = some (resultLine pad.buffer)) (hmessage : pad.message = none)
    (htrim : trim pad.buffer = pad.buffer) (hne : pad.buffer ≠ [])
    (h : evaluate pad.buffer = .success v pad.buffer) :
    pad.apply evaluate stamp .evaluate =
      { pad with
        history := ⟨stamp.id, stamp.timestamp, pad.buffer, .success v pad.buffer⟩ ::
          pad.history } := by
  rw [← htrim] at hne h
  rw [apply_evaluate_of_success hne h, htrim, ← hlast, ← hmessage]

theorem apply_evaluate_of_message {kind : FaultKind} {message : String}
    (hmessage : pad.message = some message) (hne : trim pad.buffer ≠ [])
    (h : evaluate (trim pad.buffer) = .failure kind message) :
    pad.apply evaluate stamp .evaluate =
      { pad with
        history := ⟨stamp.id, stamp.timestamp, trim pad.buffer, .failure kind message⟩ ::
          pad.history } := by
  rw [apply_evaluate_of_failure hne h, ← hmessage]

/-- **Evaluating a second time changes the history only.** -/
theorem face_evaluate_evaluate (pad : Pad) (stamp stamp' : Stamp) :
    ((pad.apply evaluate stamp .evaluate).apply evaluate stamp' .evaluate).face =
      (pad.apply evaluate stamp .evaluate).face := by
  by_cases hblank : trim pad.buffer = []
  · rw [apply_evaluate_of_blank hblank, apply_evaluate_of_blank hblank]
  cases hout : evaluate (trim pad.buffer) with
  | success v shown =>
    obtain ⟨htrim, hne, w, hagain⟩ := evaluate_shown hout
    rw [apply_evaluate_of_success hblank hout]
    exact face_of_history (apply_evaluate_of_shown rfl rfl htrim hne hagain)
  | failure kind message =>
    rw [apply_evaluate_of_failure hblank hout]
    exact face_of_history (apply_evaluate_of_message rfl hblank hout)

/-- **A shown result evaluates to itself.** -/
theorem Genuine.apply_evaluate (h : Genuine pad)
    (hlast : pad.lastResult = some (resultLine pad.buffer)) :
    pad.message = none ∧ ∃ v, pad.apply evaluate stamp .evaluate =
      { pad with
        history := ⟨stamp.id, stamp.timestamp, pad.buffer, .success v pad.buffer⟩ ::
          pad.history } := by
  obtain ⟨expression, v, shown, hvalue, hline⟩ := h.lastResult _ hlast
  obtain rfl : pad.buffer = shown := (List.cons.inj (List.cons.inj hline).2).2
  obtain ⟨htrim, hne, w, hagain⟩ := evaluate_shown hvalue
  have hmessage : pad.message = none := by
    cases hm : pad.message with
    | none => rfl
    | some m =>
      obtain ⟨kind, hfailure⟩ := h.message m hm
      rw [htrim, hagain] at hfailure
      cases hfailure
  exact ⟨hmessage, w, apply_evaluate_of_shown hlast hmessage htrim hne hagain⟩

/-! ### Reached desks -/

theorem enter_nil_of_not_showsResult {stamp : Nat → Stamp} {desk : Desk}
    (h : ¬ desk.pad.showsResult) :
    (Dialogue.enter stamp desk []).desk =
      desk.dispatch (Dialogue.supply stamp) .evaluate := by
  have hkeys : Dialogue.typing [] = [.evaluate] := by
    unfold Dialogue.typing
    rw [keystrokes]
    rfl
  unfold Dialogue.enter
  rw [if_neg fun hboth => h hboth.2, hkeys]
  rfl

theorem enter_nil_of_showsResult {stamp : Nat → Stamp} {desk : Desk} (h : desk.pad.showsResult) :
    (Dialogue.enter stamp desk []).desk = desk := by
  unfold Dialogue.enter
  rw [if_pos ⟨rfl, h⟩]

/-- **Evaluating again.** On every desk that is reached, whatever the intents were: a message is that
of evaluating the buffer without its margins; where the buffer shows the latest result there is no
message, and an evaluation adds to the history one entry, the buffer with itself as its result, and
changes nothing else; a second evaluation changes nothing but the history; and an empty line leaves
all that an evaluation leaves, the history aside. -/
theorem evaluating_again (stamp : Nat → Stamp) (intents : List Intent) :
    (∀ m, (reached stamp intents).pad.message = some m →
      ∃ kind, evaluate (trim (reached stamp intents).pad.buffer) = .failure kind m) ∧
    ((reached stamp intents).pad.lastResult =
        some (resultLine (reached stamp intents).pad.buffer) →
      (reached stamp intents).pad.message = none ∧
      ∃ id timestamp v, (reached stamp (intents ++ [.evaluate])).pad =
        { (reached stamp intents).pad with
          history := ⟨id, timestamp, (reached stamp intents).pad.buffer,
            .success v (reached stamp intents).pad.buffer⟩ ::
              (reached stamp intents).pad.history }) ∧
    (reached stamp (intents ++ [.evaluate] ++ [.evaluate])).pad.face =
      (reached stamp (intents ++ [.evaluate])).pad.face ∧
    (Dialogue.enter stamp (reached stamp intents) []).desk.pad.face =
      (reached stamp (intents ++ [.evaluate])).pad.face := by
  have hgenuine : Genuine (reached stamp intents).pad := genuine_reached intents
  refine ⟨hgenuine.message, fun hshown => ?_, ?_, ?_⟩
  · obtain ⟨hmessage, v, hpad⟩ := hgenuine.apply_evaluate hshown
    rw [reached_append]
    exact ⟨hmessage, _, _, v, hpad⟩
  · rw [reached_append, reached_append]
    exact face_evaluate_evaluate _ _ _
  · by_cases hshows : (reached stamp intents).pad.showsResult
    · obtain ⟨-, v, hpad⟩ := hgenuine.apply_evaluate (eq_of_beq hshows)
      rw [enter_nil_of_showsResult hshows, reached_append]
      exact (face_of_history hpad).symm
    · rw [enter_nil_of_not_showsResult hshows, reached_append]

/-- The quotient 6/4 is shown as 1.5, which is evaluated again to 1.5; 1/0 stays in the buffer, with
the message that it has. -/
theorem evaluating_again_quotients :
    ((answered ['6', '/', '4']).pad.lastResult =
        some (resultLine (answered ['6', '/', '4']).pad.buffer) ∧
      ∃ id timestamp v,
        (reached countingStamp ([.append ['6', '/', '4']] ++ [.evaluate] ++ [.evaluate])).pad =
          { (answered ['6', '/', '4']).pad with
            history := ⟨id, timestamp, (answered ['6', '/', '4']).pad.buffer,
              .success v (answered ['6', '/', '4']).pad.buffer⟩ ::
                (answered ['6', '/', '4']).pad.history }) ∧
    ((answered ['1', '/', '0']).pad.message = some "Division by zero" ∧
      ∃ kind, evaluate (trim (answered ['1', '/', '0']).pad.buffer) =
        .failure kind "Division by zero") := by
  have hlast : (answered ['6', '/', '4']).pad.lastResult =
      some (resultLine (answered ['6', '/', '4']).pad.buffer) := by decide +kernel
  have hmessage : (answered ['1', '/', '0']).pad.message = some "Division by zero" := by
    decide +kernel
  obtain ⟨-, hshown, -⟩ :=
    evaluating_again countingStamp ([.append ['6', '/', '4']] ++ [.evaluate])
  obtain ⟨hfailed, -⟩ := evaluating_again countingStamp ([.append ['1', '/', '0']] ++ [.evaluate])
  exact ⟨⟨hlast, (hshown hlast).2⟩, hmessage, hfailed _ hmessage⟩

end DeskCalculator
