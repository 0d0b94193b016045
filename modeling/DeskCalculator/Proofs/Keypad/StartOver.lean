import DeskCalculator.Console.Dialogue
import DeskCalculator.Proofs.Keypad.Results
import DeskCalculator.Proofs.Keypad.Typing

/-!
# Starting over

After an evaluation and after clearing, a typed text starts a new expression. Whether a result is
shown is decided anew at each key, by comparing the buffer with the line of the latest result; so a
text that writes the latest result on its way starts over once more there (`Retyped`). Nothing else
goes wrong: unless that happens, the buffer is the one that the same keys leave on a new desk
(`typed_eq_iff`).

Once the two buffers differ they differ for good. The buffer that was started over stays behind the
other one (`Behind`): it is shorter, and still shorter if the next point is refused by the other
buffer only.
-/

namespace DeskCalculator

/-! ### Falling behind -/

/-- The relation of a buffer that was started over to one that was not. -/
structure Behind (behind ahead : Text) : Prop where
  ne_nil : behind ≠ []
  length_lt : behind.length + (if '.' ∈ segment ahead ∧ '.' ∉ segment behind then 1 else 0) <
    ahead.length
  point : '.' ∈ segment behind → '.' ∈ segment ahead
  product : impliesProduct behind = true → impliesProduct ahead = true

variable {behind ahead key : Text}

theorem Behind.lt (h : Behind behind ahead) : behind.length < ahead.length :=
  Nat.lt_of_le_of_lt (Nat.le_add_right _ _) h.length_lt

theorem Behind.ne (h : Behind behind ahead) : behind ≠ ahead := fun heq =>
  Nat.lt_irrefl _ (heq ▸ h.lt)

theorem Behind.two_le (h : Behind behind ahead) : 2 ≤ ahead.length := by
  have := List.length_pos_iff.mpr h.ne_nil
  have := h.lt
  omega

/-- Where no product is implied by the buffer behind that is not by the one ahead, neither is one
behind the next key. -/
theorem impliesProduct_placed_of_imp (key : Text)
    (h : impliesProduct behind = true → impliesProduct ahead = true) :
    impliesProduct (placed behind key) = true → impliesProduct (placed ahead key) = true := by
  rw [impliesProduct_placed, impliesProduct_placed]
  split
  · exact h
  · exact id

/-- Nor does the next key bring a point that only the buffer behind has. -/
theorem point_placed_of_imp (hkey : IsKey key)
    (h : '.' ∈ segment behind → '.' ∈ segment ahead) :
    '.' ∈ segment (placed behind key) → '.' ∈ segment (placed ahead key) := by
  intro hp
  rcases hkey.separator with ⟨c, rfl, hc⟩ | hplain
  · rw [segment_placed_separator _ hc] at hp
    exact absurd hp not_mem_segment_nil
  · rw [segment_placed _ hplain] at hp ⊢
    exact List.mem_append.mpr ((List.mem_append.mp hp).imp_left h)

theorem length_placed_le (key : Text)
    (h : impliesProduct behind = true → impliesProduct ahead = true) :
    (placed behind key).length + ahead.length ≤ (placed ahead key).length + behind.length := by
  rw [length_placed, length_placed]
  by_cases hp : key = ['('] ∧ impliesProduct behind = true
  · rw [if_pos hp, if_pos ⟨hp.1, h hp.2⟩]
    omega
  · rw [if_neg hp]
    omega

theorem Behind.place (h : Behind behind ahead) (hkey : IsKey key) :
    Behind (placed behind key) (placed ahead key) := by
  have hlen := length_placed_le key h.product
  have hlt := h.length_lt
  refine ⟨placed_ne_nil hkey.ne_nil, ?_, point_placed_of_imp hkey h.point,
    impliesProduct_placed_of_imp key h.product⟩
  rcases hkey.separator with ⟨c, rfl, hc⟩ | hplain
  · rw [segment_placed_separator _ hc, if_neg (fun hp => not_mem_segment_nil hp.1)]
    omega
  · rw [segment_placed _ hplain, segment_placed _ hplain]
    by_cases hmem : '.' ∈ key
    · rw [if_neg (fun hp => hp.2 (List.mem_append_right _ hmem))]
      omega
    · simp only [List.mem_append, hmem, or_false]
      omega

/-- A key that starts one buffer over and not the other one. -/
theorem behind_placed_nil (hne : ahead ≠ []) (hpoint : '.' ∈ segment ahead → 2 ≤ ahead.length)
    (hkey : IsKey key) : Behind (placed [] key) (placed ahead key) := by
  have hlen : (placed [] key).length + ahead.length ≤ (placed ahead key).length + 0 :=
    length_placed_le key fun hp => absurd hp (by decide)
  have hpos := List.length_pos_iff.mpr hne
  refine ⟨placed_ne_nil hkey.ne_nil, ?_,
    point_placed_of_imp hkey fun hp => absurd hp not_mem_segment_nil,
    impliesProduct_placed_of_imp key fun hp => absurd hp (by decide)⟩
  rcases hkey.separator with ⟨c, rfl, hc⟩ | hplain
  · rw [segment_placed_separator _ hc, if_neg (fun hp => not_mem_segment_nil hp.1)]
    omega
  · rw [segment_placed _ hplain, segment_placed _ hplain]
    split
    · next hp =>
      have hahead : '.' ∈ segment ahead :=
        (List.mem_append.mp hp.1).resolve_right fun hk => hp.2 (List.mem_append_right _ hk)
      have := hpoint hahead
      omega
    · omega

theorem Behind.place_point (h : Behind behind ahead) (hpoint : '.' ∈ segment ahead)
    (hpoint' : '.' ∉ segment behind) {base : Text} (hbase : base = behind ∨ base = []) :
    Behind (placed base ['.']) ahead := by
  have hlt := h.length_lt
  rw [if_pos ⟨hpoint, hpoint'⟩] at hlt
  have hseg : '.' ∈ segment (placed base ['.']) := by
    rw [segment_placed _ isSeparator_point]
    exact List.mem_append_right _ List.mem_cons_self
  refine ⟨placed_ne_nil (by decide), ?_, fun _ => hpoint, fun hp => ?_⟩
  · rw [if_neg (fun hp => hp.2 hseg), length_placed, if_neg (by simp)]
    rcases hbase with rfl | rfl
    · exact hlt
    · rw [List.length_nil, List.length_singleton]
      omega
  · rw [impliesProduct_placed, if_neg (by decide +kernel)] at hp
    exact absurd hp (by decide +kernel)

/-- **A buffer that is behind stays behind**, whatever the latest result is. -/
theorem Behind.strike (h : Behind behind ahead) (hkey : IsKey key) (lastResult : Option Text) :
    Behind (struck lastResult behind key) (struck none ahead key) := by
  have hkept : kept none ahead key = ahead := by
    rw [kept_none, if_neg]
    rintro ⟨rfl, -⟩
    exact absurd h.two_le (by decide)
  by_cases hahead : key = ['.'] ∧ '.' ∈ segment ahead
  · obtain ⟨rfl, hahead⟩ := hahead
    rw [struck_refused hahead]
    by_cases hbehind : '.' ∈ segment behind
    · rwa [struck_refused hbehind]
    · rw [struck_eq hkey.ne_nil fun _ => hbehind]
      exact h.place_point hahead hbehind (kept_eq_or _ _ _)
  · have hahead' : key = ['.'] → '.' ∉ segment ahead := fun hk hp => hahead ⟨hk, hp⟩
    rw [struck_eq hkey.ne_nil hahead', hkept,
      struck_eq hkey.ne_nil fun hk hp => hahead' hk (h.point hp)]
    rcases kept_eq_or lastResult behind key with hbase | hbase
    · rw [hbase]
      exact h.place hkey
    · rw [hbase]
      refine behind_placed_nil ?_ (fun _ => h.two_le) hkey
      rintro rfl
      exact absurd h.two_le (by decide)

theorem Behind.type (h : Behind behind ahead) {keys : List Text} (hkeys : ∀ key ∈ keys, IsKey key)
    (lastResult : Option Text) : Behind (typed lastResult behind keys) (typed none ahead keys) := by
  induction keys generalizing behind ahead with
  | nil => exact h
  | cons key keys ih =>
    exact ih (h.strike (hkeys key List.mem_cons_self) lastResult)
      fun k hk => hkeys k (List.mem_cons_of_mem _ hk)

/-! ### Starting over once more -/

/-- A key that starts the buffer over because it is the latest result, and would not start it over
otherwise. -/
structure StartsOver (lastResult : Option Text) (buffer key : Text) : Prop where
  shown : lastResult = some (resultLine buffer)
  not_continues : continuesResult key = false
  not_refused : key = ['.'] → '.' ∉ segment buffer
  not_zero : key ≠ ['.'] → buffer ≠ ['0']

variable {lastResult : Option Text} {buffer : Text}

theorem struck_of_not_startsOver (hkey : IsKey key) (h : ¬ StartsOver lastResult buffer key) :
    struck lastResult buffer key = struck none buffer key := by
  by_cases hrefused : key = ['.'] ∧ '.' ∈ segment buffer
  · rw [hrefused.1, struck_refused hrefused.2, struck_refused hrefused.2]
  have hrefused' : key = ['.'] → '.' ∉ segment buffer := fun hk hp => hrefused ⟨hk, hp⟩
  rw [struck_eq hkey.ne_nil hrefused', struck_eq hkey.ne_nil hrefused']
  congr 1
  by_cases hshown : lastResult = some (resultLine buffer)
  · cases hcont : continuesResult key with
    | true => exact kept_of_continues _ _ hcont
    | false =>
      have hzero : buffer = ['0'] ∧ key ≠ ['.'] := by
        by_contra hz
        exact h ⟨hshown, hcont, hrefused', fun hk hb => hz ⟨hb, hk⟩⟩
      rw [kept_shown hshown hcont, kept_none, if_pos hzero]
  · exact kept_of_ne hshown key

theorem StartsOver.falls_behind (h : StartsOver lastResult buffer key) (hkey : IsKey key)
    (hplain : IsPlain buffer) :
    Behind (struck lastResult buffer key) (struck none buffer key) := by
  obtain ⟨n, rfl⟩ := hplain
  rw [struck_eq hkey.ne_nil h.not_refused, struck_eq hkey.ne_nil h.not_refused,
    kept_shown h.shown h.not_continues, kept_none, if_neg fun hz => h.not_zero hz.2 hz.1]
  refine behind_placed_nil n.text_ne_nil (fun hp => ?_) hkey
  exact n.two_le_length_text (mem_of_mem_segment hp)

/-- A text that is typed onto a buffer starts it over on its way. -/
def Retypes (lastResult : Option Text) (buffer : Text) (keys : List Text) : Prop :=
  ∃ before key after, keys = before ++ key :: after ∧
    StartsOver lastResult (typed none buffer before) key

theorem retypes_cons {keys : List Text} (hkey : ¬ StartsOver lastResult buffer key) :
    Retypes lastResult buffer (key :: keys) ↔
      Retypes lastResult (struck none buffer key) keys := by
  constructor
  · rintro ⟨before, key', after, heq, h⟩
    cases before with
    | nil =>
      obtain ⟨rfl, -⟩ := List.cons.inj heq
      exact absurd h hkey
    | cons first before =>
      obtain ⟨rfl, htail⟩ := List.cons.inj heq
      exact ⟨before, key', after, htail, h⟩
  · rintro ⟨before, key', after, rfl, h⟩
    exact ⟨key :: before, key', after, rfl, h⟩

/-- **Two runs from one buffer** end in one buffer unless the latest result is written on the
way. -/
theorem typed_eq_iff_not_retypes {keys : List Text} (hkeys : ∀ key ∈ keys, IsKey key)
    (hplain : ∀ line, lastResult = some line → ∃ shown, IsPlain shown ∧ line = resultLine shown)
    (buffer : Text) :
    typed lastResult buffer keys = typed none buffer keys ↔ ¬ Retypes lastResult buffer keys := by
  induction keys generalizing buffer with
  | nil =>
    refine ⟨fun _ hr => ?_, fun _ => rfl⟩
    obtain ⟨before, key, after, heq, -⟩ := hr
    simp at heq
  | cons key keys ih =>
    have hkey := hkeys key List.mem_cons_self
    have hrest : ∀ k ∈ keys, IsKey k := fun k hk => hkeys k (List.mem_cons_of_mem _ hk)
    by_cases hover : StartsOver lastResult buffer key
    · obtain ⟨shown, hshown, hline⟩ := hplain _ hover.shown
      obtain rfl : buffer = shown := (List.cons.inj (List.cons.inj hline).2).2
      have hbehind := (hover.falls_behind hkey hshown).type hrest lastResult
      exact iff_of_false hbehind.ne (not_not_intro ⟨[], key, keys, rfl, hover⟩)
    · rw [retypes_cons hover]
      show typed lastResult (struck lastResult buffer key) keys = _ ↔ _
      rw [struck_of_not_startsOver hkey hover]
      exact ih hrest _

/-! ### Desks that are started over -/

section

variable (stamp : Nat → Stamp)

/-- A new desk after intents. -/
def reached (intents : List Intent) : Desk :=
  Desk.dispatchAll (Dialogue.supply stamp) {} intents

/-- **The desks on which a typed text starts over**: those right after the evaluation of a buffer
that is not blank, and those right after clearing. -/
inductive Starts : Desk → Prop
  | evaluated (before : List Intent) (h : trim (reached stamp before).pad.buffer ≠ []) :
      Starts (reached stamp (before ++ [.evaluate]))
  | cleared (before : List Intent) : Starts (reached stamp (before ++ [.clear]))

/-- A desk on which keys have been typed. -/
def keyed (desk : Desk) (keys : List Text) : Desk :=
  desk.dispatchAll (Dialogue.supply stamp) (keys.map .append)

variable {stamp}

theorem reached_append (before : List Intent) (last : Intent) :
    reached stamp (before ++ [last]) =
      (reached stamp before).dispatch (Dialogue.supply stamp) last :=
  List.foldl_concat ..

theorem pad_reached_append (before : List Intent) (last : Intent) :
    (reached stamp (before ++ [last])).pad =
      (reached stamp before).pad.apply evaluate (stamp (reached stamp before).recorded) last := by
  rw [reached_append]
  rfl

theorem genuine_reached (intents : List Intent) : Genuine (reached stamp intents).pad :=
  genuine_dispatchAll stamp {} intents genuine_init

theorem plainResults_reached (intents : List Intent) :
    PlainResults (reached stamp intents).pad :=
  (genuine_reached intents).plainResults

theorem buffer_keyed_init (keys : List Text) :
    (keyed stamp {} keys).pad.buffer = typed none [] keys := by
  unfold keyed
  rw [dispatchAll_append, foldl_append rfl]

theorem Starts.base {desk : Desk} (h : Starts stamp desk) {key : Text}
    (hkey : continuesResult key = false) : desk.pad.base key = [] := by
  cases h with
  | cleared before =>
    rw [reached_append]
    simp [Desk.dispatch, Pad.apply, Pad.clear, Pad.base]
  | evaluated before htrim =>
    rw [reached_append]
    simp only [Desk.dispatch, Pad.apply, Pad.due?, if_neg htrim, Pad.record]
    split
    · simp [Pad.base, Pad.showsResult, hkey]
    · simp [Pad.base]

theorem Starts.append {desk : Desk} (h : Starts stamp desk) {key : Text} (hne : key ≠ [])
    (hkey : continuesResult key = false) (hpoint : key = ['.'] → '.' ∉ segment desk.pad.buffer) :
    desk.pad.append key = { desk.pad with buffer := key, message := none } := by
  unfold Pad.append
  rw [if_neg]
  · simp only [h.base hkey, impliesProduct_nil, Bool.false_eq_true, and_false, if_false,
      List.nil_append]
  · rintro (hnil | ⟨rfl, hmem⟩)
    · exact hne hnil
    · exact hpoint rfl hmem

theorem Starts.plainResults {desk : Desk} (h : Starts stamp desk) : PlainResults desk.pad := by
  cases h with
  | evaluated before _ => exact plainResults_reached _
  | cleared before => exact plainResults_reached _

end

/-- **Typing starts over.** On a desk right after an evaluation or after clearing, a text that does
not begin with the sign of an operator leaves the buffer that it leaves on a new desk, unless its
keys write the latest result on their way and another key starts it over there. Then, and only
then, the buffers differ; otherwise the same expression is evaluated next. A point as the first key
counts only where the old buffer does not refuse it. -/
theorem typing_starts_over {stamp : Nat → Stamp} {desk : Desk} (h : Starts stamp desk)
    {line first : Text} {rest : List Text} (hkeys : keystrokes line = first :: rest)
    (hfirst : continuesResult first = false)
    (hpoint : first = ['.'] → '.' ∉ segment desk.pad.buffer) :
    ((keyed stamp desk (first :: rest)).pad.buffer = (keyed stamp {} (first :: rest)).pad.buffer ↔
      ¬ Retypes desk.pad.lastResult first rest) ∧
    (¬ Retypes desk.pad.lastResult first rest →
      (keyed stamp desk (first :: rest)).pad.due? .evaluate =
        (keyed stamp {} (first :: rest)).pad.due? .evaluate) := by
  have hall : ∀ key ∈ first :: rest, IsKey key := fun key hkey =>
    isKey_of_mem_keystrokes (hkeys ▸ hkey)
  have hne := (hall first List.mem_cons_self).ne_nil
  have hnew : typed none [] (first :: rest) = typed none first rest := by
    show typed none (struck none [] first) rest = _
    rw [struck_eq hne fun _ => not_mem_segment_nil, kept_none, if_neg (by simp), placed_nil]
  have hold : (keyed stamp desk (first :: rest)).pad.buffer =
      typed desk.pad.lastResult first rest := by
    unfold keyed
    rw [dispatchAll_append, List.foldl_cons, h.append hne hfirst hpoint, foldl_append rfl]
  have hiff := typed_eq_iff_not_retypes
    (fun key hkey => hall key (List.mem_cons_of_mem _ hkey)) h.plainResults.lastResult first
  rw [hold, buffer_keyed_init, hnew]
  refine ⟨hiff, fun hr => ?_⟩
  unfold Pad.due?
  rw [hold, buffer_keyed_init, hnew, hiff.mpr hr]

/-- Stamps that count. -/
def countingStamp (used : Nat) : Stamp :=
  ⟨toString used, used⟩

/-- A desk right after an expression of one key was evaluated. -/
def answered (key : Text) : Desk :=
  reached countingStamp ([.append key] ++ [.evaluate])

theorem starts_answered (key : Text)
    (h : trim (reached countingStamp [.append key]).pad.buffer ≠ []) :
    Starts countingStamp (answered key) :=
  .evaluated [.append key] h

theorem typing_thirtyFive_after_five : Starts countingStamp (answered ['5']) ∧
    (keyed countingStamp (answered ['5']) [['3'], ['5']]).pad.buffer = ['3', '5'] := by
  have hstarts : Starts countingStamp (answered ['5']) := starts_answered _ (by decide +kernel)
  have hkeys : keystrokes ['3', '5'] = [['3'], ['5']] := by decide +kernel
  have hnew : (keyed countingStamp {} [['3'], ['5']]).pad.buffer = ['3', '5'] := by decide +kernel
  have hlast : (answered ['5']).pad.lastResult = some (resultLine ['5']) := by decide +kernel
  have hretypes : ¬ Retypes (answered ['5']).pad.lastResult ['3'] [['5']] := by
    rintro ⟨before, key, after, heq, hover⟩
    have hshown := hover.shown
    rw [hlast] at hshown
    cases before with
    | nil => exact absurd hshown (by decide)
    | cons first before => simp at heq
  have hiff := (typing_starts_over hstarts hkeys (by decide) (by decide)).1
  exact ⟨hstarts, (hiff.mpr hretypes).trans hnew⟩

/-- After the result 5 the keys of 53 write 3, because 5 is the latest result again; after the
result 1.5 the point of .5 is refused. On a new desk nothing of this happens. -/
theorem typing_fiftyThree_after_five :
    (Starts countingStamp (answered ['5']) ∧ keystrokes ['5', '3'] = [['5'], ['3']] ∧
      continuesResult ['5'] = false ∧
      (keyed countingStamp (answered ['5']) [['5'], ['3']]).pad.buffer = ['3'] ∧
      (keyed countingStamp {} [['5'], ['3']]).pad.buffer = ['5', '3']) ∧
    (Starts countingStamp (answered ['1', '.', '5']) ∧ keystrokes ['.', '5'] = [['.'], ['5']] ∧
      continuesResult ['.'] = false ∧
      (keyed countingStamp (answered ['1', '.', '5']) [['.'], ['5']]).pad.buffer = ['5'] ∧
      (keyed countingStamp {} [['.'], ['5']]).pad.buffer = ['.', '5']) := by
  refine ⟨⟨starts_answered _ ?_, ?_, ?_, ?_, ?_⟩, ⟨starts_answered _ ?_, ?_, ?_, ?_, ?_⟩⟩
  all_goals decide +kernel

end DeskCalculator
