import DeskCalculator.Proofs.Console.Session

/-!
# The numbers of the history

The history is printed with a number before each entry, the newest entry being number one
(`written_command_history`). An entry is used again by its number: the number is turned into a place,
the place into an entry, the entry into its name, and the name is looked for. Where the names differ
the search comes back to the entry (`find?_id_of_mem`), so a printed number restores the entry it was
printed with.

Zero and the negative numbers above minus the length are printed nowhere, yet each of them has an
entry too: its place is counted from the oldest one (`numbered?_eq_some_iff`). So an argument that is
no printed number is refused exactly if it does not read as one of these
(`use_follows_numbering`).
-/

namespace DeskCalculator

namespace Dialogue

variable {stamp : Nat → Stamp} {desk : Desk} {line argument : Text} {entry : Entry}
  {history : List Entry}

/-! ### The printed history -/

theorem length_historyLines (history : List Entry) :
    (historyLines history).length = history.length := by
  unfold historyLines
  rw [List.length_map, List.length_zipIdx]

theorem getElem?_historyLines (history : List Entry) (place : Nat) :
    (historyLines history)[place]? =
      history[place]?.map fun entry => historyLine entry (place + 1) := by
  unfold historyLines
  rw [List.getElem?_map, List.getElem?_zipIdx, Option.map_map, Nat.add_comm 1 place]
  rfl

theorem written_historyLines (history : List Entry) :
    written (historyLines history) = historyLines history := by
  refine List.filter_eq_self.mpr fun line hline => ?_
  obtain ⟨numbered, -, rfl⟩ := List.mem_map.mp hline
  rfl

/-- **The history as it is printed**, and nothing else is. -/
theorem written_command_history (stamp : Nat → Stamp) (desk : Desk) :
    written (command stamp desk Command.history.name).lines = historyLines desk.pad.history := by
  show written (.note _ :: ((perform stamp desk [.switchTo Destination.history.name]).lines ++
    historyLines desk.pad.history)) = _
  rw [written_cons_note, written_append, written_perform, written_historyLines]
  rfl

/-! ### Numbers and places -/

/-- **The numbers of an entry**: its place counted from one, as it is printed, and the same less the
length of the history. -/
theorem numbered?_eq_some_iff {number : Int} : numbered? history number = some entry ↔
    ∃ place : Nat, history[place]? = some entry ∧
      (number = place + 1 ∨ number = place + 1 - history.length) := by
  unfold numbered?
  constructor
  · intro h
    split at h
    · next hpositive => exact ⟨(number - 1).toNat, h, .inl (by omega)⟩
    · split at h
      · next hlength => exact ⟨_, h, .inr (by omega)⟩
      · cases h
  · rintro ⟨place, hplace, hnumber⟩
    obtain ⟨hlt, -⟩ := List.getElem?_eq_some_iff.mp hplace
    rcases hnumber with rfl | rfl
    · rw [if_pos (by omega)]
      simpa using hplace
    · rw [if_neg (by omega), if_pos (by omega), ← hplace]
      congr 1
      omega

/-- A number is that of an entry from minus the length, excluded, to the length, included. -/
theorem numbered?_eq_none_iff {number : Int} : numbered? history number = none ↔
    ¬ (-history.length < number ∧ number ≤ history.length) := by
  rw [← not_iff_not, not_not, ← ne_eq, Option.ne_none_iff_exists']
  constructor
  · rintro ⟨entry, hentry⟩
    obtain ⟨place, hplace, hnumber⟩ := numbered?_eq_some_iff.mp hentry
    obtain ⟨hlt, -⟩ := List.getElem?_eq_some_iff.mp hplace
    omega
  · rintro ⟨hlow, hhigh⟩
    by_cases hpositive : 1 ≤ number
    · have hlt : (number - 1).toNat < history.length := by omega
      exact ⟨_, numbered?_eq_some_iff.mpr ⟨_, List.getElem?_eq_getElem hlt, .inl (by omega)⟩⟩
    · have hlt : (number + history.length - 1).toNat < history.length := by omega
      exact ⟨_, numbered?_eq_some_iff.mpr ⟨_, List.getElem?_eq_getElem hlt, .inr (by omega)⟩⟩

/-! ### The use of an entry -/

theorem splitCommand_use (argument : Text) :
    splitCommand (Command.use.name ++ ' ' :: argument) = (Command.use.name, argument) := by
  simp [splitCommand, Command.name]

/-- What is said of an argument that is the number of no entry. -/
def noSuchEntry (argument : Text) : Line :=
  .complaint ("No such history entry " ++ String.ofList (quoted argument))

/-- **A refusal**: the desk is left as it is, and the argument is complained of. -/
structure Refuses (desk : Desk) (argument : Text) (answer : Answer) : Prop where
  desk : answer.desk = desk
  lines : written answer.lines = [noSuchEntry argument]

/-- **An entry is used again**: the calculator shows its expression and what came of it, without a
failure, and the expression is printed. Nothing is evaluated, and the history stays. -/
structure Reuses (desk : Desk) (entry : Entry) (answer : Answer) : Prop where
  buffer : answer.desk.pad.buffer = entry.expression
  destination : answer.desk.pad.destination = .calculator
  message : answer.desk.pad.message = none
  result : ∀ value text, entry.outcome = .success value text →
    answer.desk.pad.lastResult = some (resultLine text)
  failure : ∀ kind message, entry.outcome = .failure kind message →
    answer.desk.pad.lastResult = none
  history : answer.desk.pad.history = desk.pad.history
  recorded : answer.desk.recorded = desk.recorded
  lines : written answer.lines =
    if entry.expression = [] then [] else [.output entry.expression]

theorem Reuses.not_refuses {answer : Answer} (h : Reuses desk entry answer) :
    ¬ Refuses desk argument answer := by
  intro hrefuses
  have hlines := h.lines
  rw [hrefuses.lines] at hlines
  split at hlines
  · exact List.cons_ne_nil _ _ hlines
  · exact Line.noConfusion (List.cons.inj hlines).1

theorem reuses_performAndShow (stamp : Nat → Stamp) (hids : (desk.pad.history.map Entry.id).Nodup)
    (hmem : entry ∈ desk.pad.history) :
    Reuses desk entry (performAndShow stamp desk [.use entry.id]) := by
  have hpad : (performAndShow stamp desk [.use entry.id]).desk.pad = desk.pad.restore entry :=
    apply_use_of_mem hids hmem evaluate (stamp desk.recorded)
  constructor
  · rw [hpad, Pad.restore]
  · rw [hpad, Pad.restore]
  · rw [hpad, Pad.restore]
  · intro value text houtcome
    rw [hpad, Pad.restore]
    simp only [houtcome]
  · intro kind message houtcome
    rw [hpad, Pad.restore]
    simp only [houtcome]
  · rw [hpad, Pad.restore]
  · rfl
  · rw [written_performAndShow, ← desk_perform]
    show shown (performAndShow stamp desk [.use entry.id]).desk.pad = _
    rw [hpad]
    rfl

/-- **What an argument leads to**: if it reads as a number of an entry, this is used again, and
otherwise the argument is refused. -/
theorem command_use (stamp : Nat → Stamp) (hids : (desk.pad.history.map Entry.id).Nodup)
    (hline : splitCommand line = (Command.use.name, argument)) :
    (∀ entry, (readInteger? argument).bind (numbered? desk.pad.history) = some entry →
      Reuses desk entry (command stamp desk line)) ∧
    (Refuses desk argument (command stamp desk line) ↔
      (readInteger? argument).bind (numbered? desk.pad.history) = none) := by
  have hname : Command.ofName? Command.use.name = some .use := by decide
  have hreuses : ∀ entry, (readInteger? argument).bind (numbered? desk.pad.history) = some entry →
      Reuses desk entry (command stamp desk line) := by
    intro entry hentry
    obtain ⟨number, -, hnumber⟩ := Option.bind_eq_some_iff.mp hentry
    obtain ⟨place, hplace, -⟩ := numbered?_eq_some_iff.mp hnumber
    have huse := reuses_performAndShow stamp hids (List.mem_of_getElem? hplace)
    simp only [command, hline, obey, hname, hentry]
    exact { huse with lines := (written_cons_note _ _).trans huse.lines }
  refine ⟨hreuses, fun hrefuses => ?_, fun hnone => ?_⟩
  · by_contra hsome
    obtain ⟨entry, hentry⟩ := Option.ne_none_iff_exists'.mp hsome
    exact (hreuses entry hentry).not_refuses hrefuses
  · simp only [command, hline, obey, hname, hnone]
    exact ⟨rfl, rfl⟩

/-- **The printed numbers and the numbers used.** The history is printed with one line for each
entry. If an argument reads as a number that is printed, the entry used is the one printed with it.
If it does not, it is refused exactly if it reads neither as zero nor as a negative number above
minus the length of the history: these are taken for places counted from the oldest entry. -/
theorem use_follows_numbering (stamp : Nat → Stamp)
    (hids : (desk.pad.history.map Entry.id).Nodup)
    (hline : splitCommand line = (Command.use.name, argument)) :
    let printed := written (command stamp desk Command.history.name).lines
    let length := desk.pad.history.length
    printed.length = length ∧
    (∀ number : Nat, 1 ≤ number → number ≤ length → readInteger? argument = some (number : Int) →
      ∃ entry, desk.pad.history[number - 1]? = some entry ∧
        printed[number - 1]? = some (historyLine entry number) ∧
        Reuses desk entry (command stamp desk line)) ∧
    ((¬ ∃ number : Nat, 1 ≤ number ∧ number ≤ length ∧
        readInteger? argument = some (number : Int)) →
      (Refuses desk argument (command stamp desk line) ↔
        ¬ ∃ back : Nat, back < length ∧ readInteger? argument = some (-(back : Int)))) := by
  intro printed length
  obtain ⟨hreuses, hrefuses⟩ := command_use stamp hids hline
  have hprinted : printed = historyLines desk.pad.history := written_command_history stamp desk
  refine ⟨hprinted ▸ length_historyLines _, fun number hone hlength hread => ?_, fun hother => ?_⟩
  · have hplace : number - 1 < desk.pad.history.length := by omega
    have hentry := List.getElem?_eq_getElem hplace
    refine ⟨_, hentry, ?_, hreuses _ ?_⟩
    · rw [hprinted, getElem?_historyLines, hentry, Nat.sub_add_cancel hone]
      rfl
    · rw [hread, Option.bind_some]
      exact numbered?_eq_some_iff.mpr ⟨_, hentry, .inl (by omega)⟩
  · rw [hrefuses, Option.bind_eq_none_iff]
    simp only [numbered?_eq_none_iff]
    constructor
    · rintro hnone ⟨back, hback, hread⟩
      exact hnone _ hread ⟨by omega, by omega⟩
    · intro hback number hread hrange
      by_cases hpositive : 1 ≤ number
      · exact hother ⟨number.toNat, by omega, by omega, by rw [hread]; congr 1; omega⟩
      · exact hback ⟨(-number).toNat, by omega, by rw [hread]; congr 1; omega⟩

/-- A calculator that has evaluated two sums. -/
def twoSums : Desk :=
  (session countingStamp {} [['1', '+', '1'], ['2', '+', '2']]).desk

/-- The second number is printed with the first sum, which is what it puts into the buffer; there is
no third number. -/
theorem use_follows_numbering_twoSums :
    (twoSums.pad.history.map Entry.id).Nodup ∧
    (splitCommand (Command.use.name ++ [' ', '2']) = (Command.use.name, ['2']) ∧
      readInteger? ['2'] = some (2 : Nat) ∧
      ∃ entry, twoSums.pad.history[1]? = some entry ∧
        (written (command countingStamp twoSums Command.history.name).lines)[1]? =
          some (historyLine entry 2) ∧
        Reuses twoSums entry (command countingStamp twoSums (Command.use.name ++ [' ', '2']))) ∧
    (splitCommand (Command.use.name ++ [' ', '3']) = (Command.use.name, ['3']) ∧
      Refuses twoSums ['3'] (command countingStamp twoSums (Command.use.name ++ [' ', '3']))) := by
  have hids : (twoSums.pad.history.map Entry.id).Nodup := by decide +kernel
  have hlength : twoSums.pad.history.length = 2 := by decide +kernel
  have hsecond := splitCommand_use ['2']
  have hthird := splitCommand_use ['3']
  have hreadTwo : readInteger? ['2'] = some (2 : Nat) := by decide +kernel
  have hreadThree : readInteger? ['3'] = some 3 := by decide +kernel
  refine ⟨hids, ⟨hsecond, hreadTwo, ?_⟩, hthird, ?_⟩
  · obtain ⟨-, hprinted, -⟩ := use_follows_numbering countingStamp hids hsecond
    exact hprinted 2 (by decide) (by omega) hreadTwo
  · obtain ⟨-, -, hrefused⟩ := use_follows_numbering countingStamp hids hthird
    refine (hrefused ?_).mpr ?_
    · rintro ⟨number, -, hle, hread⟩
      have hthree := Option.some.inj (hreadThree.symm.trans hread)
      omega
    · rintro ⟨back, -, hread⟩
      have hthree := Option.some.inj (hreadThree.symm.trans hread)
      omega

/-- Zero is printed with no entry, yet it is not refused: it restores the oldest sum. -/
theorem use_zero_of_twoSums :
    (twoSums.pad.history.map Entry.id).Nodup ∧
    splitCommand (Command.use.name ++ [' ', '0']) = (Command.use.name, ['0']) ∧
    readInteger? ['0'] = some 0 ∧
    (command countingStamp twoSums (Command.use.name ++ [' ', '0'])).desk ≠ twoSums ∧
    (command countingStamp twoSums (Command.use.name ++ [' ', '0'])).desk.pad.screen =
      (['1', '+', '1'], "= 2") ∧
    written (command countingStamp twoSums (Command.use.name ++ [' ', '0'])).lines =
      [.output ['1', '+', '1']] := by
  decide +kernel

end Dialogue

end DeskCalculator
