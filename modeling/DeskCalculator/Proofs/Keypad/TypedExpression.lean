import DeskCalculator.Proofs.Keypad.History
import DeskCalculator.Proofs.Keypad.Spelling
import DeskCalculator.Proofs.Keypad.StartOver

/-!
# Typed expressions are evaluated

The keys of an infix expression leave the text of the expression in the buffer, apart from leading
zeros (`typed_eq_dropZeros`): no sign of multiplication is put in, and no point is refused if any
two points are apart (`PointsApart`). Leading zeros go one by one as further digits are typed, which
changes no number; but a zero that an operator follows goes too, and then the operator lacks its
operand (`withoutLoneZero`). So what is evaluated in the end has the outcome of the typed text, or
of what is left of it (`typing_evaluates`).
-/

namespace DeskCalculator

/-! ### Texts that are typed as they are -/

/-- **Points that are apart**: between any two points of the text stands a sign of an operator or a
parenthesis. -/
def PointsApart (text : Text) : Prop :=
  ∀ before middle after, text = before ++ '.' :: middle ++ '.' :: after →
    ∃ c ∈ middle, isSeparator c = true

/-- A text whose keys are put into the buffer as they are, but for leading zeros. -/
structure Typable (text : Text) : Prop where
  margin : ∀ c ∈ text, isMargin c = false
  product : ∀ before after, text = before ++ '(' :: after → impliesProduct before = false
  points : PointsApart text

theorem PointsApart.not_mem_segment {before after : Text}
    (h : PointsApart (before ++ '.' :: after)) : '.' ∉ segment before := by
  intro hmem
  have hsplit : before = (before.reverse.dropWhile (!isSeparator ·)).reverse ++ segment before := by
    unfold segment
    rw [← List.reverse_append, List.takeWhile_append_dropWhile, List.reverse_reverse]
  have hplain : ∀ c ∈ segment before, isSeparator c = false := by
    intro c hc
    have hc' := List.all_eq_true.mp List.all_takeWhile c (List.mem_reverse.mp hc)
    simpa using hc'
  obtain ⟨first, last, hseg⟩ := List.append_of_mem hmem
  rw [hseg] at hsplit hplain
  rw [hsplit] at h
  obtain ⟨c, hc, hsep⟩ :=
    h ((before.reverse.dropWhile (!isSeparator ·)).reverse ++ first) last after (by simp)
  exact absurd hsep (by rw [hplain c (by simp [hc])]; decide)

theorem pointsApart_iff {text : Text} : PointsApart text ↔
    ∀ k < text.length, text[k]? = some '.' → '.' ∉ segment (text.take k) := by
  constructor
  · intro h k hk hpoint
    rw [List.getElem?_eq_getElem hk] at hpoint
    rw [← List.take_append_drop k text, List.drop_eq_getElem_cons hk, Option.some.inj hpoint] at h
    exact h.not_mem_segment
  · intro h before middle after htext
    by_contra hnone
    have hplain : ∀ c ∈ '.' :: middle, isSeparator c = false := by
      intro c hc
      rcases List.mem_cons.mp hc with rfl | hc
      · rfl
      · exact Bool.eq_false_iff.mpr fun hsep => hnone ⟨c, hc, hsep⟩
    have hk : (before ++ '.' :: middle).length < text.length := by
      rw [htext, List.length_append]
      simp
    have hrefused := h _ hk (by rw [htext]; simp)
    rw [htext, List.take_left, segment_append_of_forall hplain] at hrefused
    exact hrefused (List.mem_append_right _ List.mem_cons_self)

instance (text : Text) : Decidable (PointsApart text) :=
  decidable_of_iff _ pointsApart_iff.symm

theorem Typable.of_append {first second : Text} (h : Typable (first ++ second)) :
    Typable second := by
  refine ⟨fun c hc => h.margin c (List.mem_append_right _ hc), ?_, ?_⟩
  · rintro before after rfl
    have hproduct := h.product (first ++ before) after (List.append_assoc ..).symm
    cases before with
    | nil => rfl
    | cons c before =>
      have hmargin : trimRight (c :: before) = c :: before := by
        refine trimRight_eq_self fun x hx => h.margin x ?_
        exact List.mem_append_right _ (List.mem_append_left _ hx)
      rwa [impliesProduct_append, hmargin, if_neg (List.cons_ne_nil _ _)] at hproduct
  · rintro before middle after rfl
    exact h.points (first ++ before) middle after (by simp)

/-- Whether a text begins with a zero that its next character replaces. -/
def beginsWithZero : Text → Bool
  | '0' :: c :: _ => c != '.'
  | _ => false

theorem typed_append (lastResult : Option Text) (buffer : Text) (key : Text) (keys : List Text) :
    typed lastResult buffer (key :: keys) = typed lastResult (struck lastResult buffer key) keys :=
  rfl

theorem struck_of_typable {buffer key rest : Text} (hkey : IsKey key)
    (h : Typable (buffer ++ key ++ rest))
    (hzero : buffer = ['0'] → beginsWithZero (buffer ++ key ++ rest) = false) :
    struck none buffer key = buffer ++ key := by
  have hkept : kept none buffer key = buffer := by
    rw [kept_none, if_neg]
    rintro ⟨rfl, hne⟩
    cases key with
    | nil => exact hkey.ne_nil rfl
    | cons c key =>
      have hc : c = '.' := by simpa [beginsWithZero] using hzero rfl
      exact hne (hkey.eq_point (by rw [hc]; exact List.mem_cons_self))
  have hrefused : key = ['.'] → '.' ∉ segment buffer := by
    rintro rfl
    have hpoints : PointsApart (buffer ++ '.' :: rest) := by simpa using h.points
    exact hpoints.not_mem_segment
  rw [struck_eq hkey.ne_nil hrefused, hkept, placed, if_neg]
  rintro ⟨rfl, hproduct⟩
  rw [h.product buffer rest (by simp)] at hproduct
  exact Bool.noConfusion hproduct

theorem eq_nil_of_append_key {buffer key : Text} (hkey : IsKey key)
    (h : buffer ++ key = [] ∨ buffer ++ key = ['0']) : buffer = [] := by
  rcases h with h | h
  · exact (List.append_eq_nil_iff.mp h).1
  · rcases List.append_eq_singleton_iff.mp h with ⟨hbuffer, -⟩ | ⟨-, hnil⟩
    · exact hbuffer
    · exact absurd hnil hkey.ne_nil

/-- **The keys of a typable text are put into the buffer as they are**, if no zero is replaced. -/
theorem typed_of_typable (buffer text : Text) (h : Typable (buffer ++ text))
    (hzero : buffer = [] ∨ buffer = ['0'] → beginsWithZero (buffer ++ text) = false) :
    typed none buffer (keystrokes text) = buffer ++ text := by
  induction text using keystrokes.induct generalizing buffer with
  | case1 =>
    rw [keystrokes, List.append_nil]
    rfl
  | case2 c rest hletter ih =>
    have hmem : c :: rest.takeWhile isLetter ∈ keystrokes (c :: rest) := by
      rw [keystrokes, if_pos hletter]
      exact List.mem_cons_self
    have hkey := isKey_of_mem_keystrokes hmem
    have hsplit : buffer ++ c :: rest =
        buffer ++ c :: rest.takeWhile isLetter ++ rest.dropWhile isLetter := by
      rw [List.append_assoc, List.cons_append, List.takeWhile_append_dropWhile]
    rw [hsplit] at h hzero ⊢
    rw [keystrokes, if_pos hletter, typed_append,
      struck_of_typable hkey h fun hb => hzero (.inr hb)]
    exact ih _ h fun hb => hzero (.inl (eq_nil_of_append_key hkey hb))
  | case3 c rest hletter hblank ih =>
    have hmargin := h.margin c (List.mem_append_right _ List.mem_cons_self)
    rw [isMargin_of_isBlank hblank] at hmargin
    exact Bool.noConfusion hmargin
  | case4 c rest hletter hblank ih =>
    have hkey : IsKey [c] := ⟨List.cons_ne_nil _ _, .inl ⟨c, rfl⟩⟩
    have hsplit : buffer ++ c :: rest = buffer ++ [c] ++ rest := List.append_cons ..
    rw [hsplit] at h hzero ⊢
    rw [keystrokes, if_neg hletter, if_neg hblank, typed_append,
      struck_of_typable hkey h fun hb => hzero (.inr hb)]
    exact ih _ h fun hb => hzero (.inl (eq_nil_of_append_key hkey hb))

/-! ### Leading zeros -/

/-- Without the zeros that the next character replaces. -/
def dropZeros : Text → Text
  | [] => []
  | c :: rest => if beginsWithZero (c :: rest) then dropZeros rest else c :: rest

theorem beginsWithZero_iff {text : Text} : beginsWithZero text = true ↔
    ∃ c rest, text = '0' :: c :: rest ∧ c ≠ '.' := by
  unfold beginsWithZero
  split
  · next c rest =>
    rw [bne_iff_ne]
    refine ⟨fun h => ⟨c, rest, rfl, h⟩, ?_⟩
    rintro ⟨d, rest', heq, hd⟩
    obtain ⟨rfl, -⟩ := List.cons.inj (List.cons.inj heq).2
    exact hd
  · next hne =>
    refine ⟨nofun, ?_⟩
    rintro ⟨c, rest, rfl, -⟩
    exact absurd rfl (hne c rest)

theorem exists_keystrokes_cons {c : Char} (rest : Text) (h : isMargin c = false) :
    ∃ key keys, keystrokes (c :: rest) = (c :: key) :: keys := by
  rw [keystrokes, isBlank_eq_false h]
  split
  · exact ⟨_, _, rfl⟩
  · exact ⟨[], _, rfl⟩

/-- A lone zero is no different from an empty buffer for anything but a point. -/
theorem struck_zero {key : Text} (hne : key ≠ []) (hpoint : key ≠ ['.']) :
    struck none ['0'] key = struck none [] key := by
  rw [struck_eq hne fun h => absurd h hpoint, struck_eq hne fun h => absurd h hpoint, kept_none,
    kept_none, if_pos ⟨rfl, hpoint⟩, if_neg (by simp)]

/-- **The buffer of a typable text** is the text without its leading zeros. -/
theorem typed_eq_dropZeros {text : Text} (h : Typable text) :
    typed none [] (keystrokes text) = dropZeros text := by
  induction text with
  | nil =>
    rw [keystrokes]
    rfl
  | cons c rest ih =>
    rw [dropZeros]
    split
    · next hzero =>
      obtain ⟨d, rest', heq, hd⟩ := beginsWithZero_iff.mp hzero
      obtain ⟨rfl, rfl⟩ := List.cons.inj heq
      obtain ⟨key, keys, hkeys⟩ := exists_keystrokes_cons rest'
        (h.margin d (List.mem_cons_of_mem _ List.mem_cons_self))
      have hfirst : keystrokes ('0' :: d :: rest') = ['0'] :: keystrokes (d :: rest') := by
        rw [keystrokes, if_neg (by decide +kernel), if_neg (by decide +kernel)]
      have hrest : Typable (['0'] ++ d :: rest') := h
      rw [← ih hrest.of_append, hfirst, typed_append, hkeys, typed_append,
        typed_append, show struck none [] ['0'] = ['0'] by decide +kernel, struck_zero]
      · exact List.cons_ne_nil _ _
      · intro hp
        exact hd (List.cons.inj hp).1
    · next hzero =>
      exact typed_of_typable [] (c :: rest) h fun _ => Bool.eq_false_iff.mpr hzero

theorem dropZeros_sublist (text : Text) : (dropZeros text).Sublist text := by
  induction text with
  | nil => exact List.Sublist.slnil
  | cons c rest ih =>
    rw [dropZeros]
    split
    · exact ih.cons c
    · exact List.Sublist.refl _

theorem dropZeros_ne_nil {text : Text} (h : text ≠ []) : dropZeros text ≠ [] := by
  induction text with
  | nil => exact absurd rfl h
  | cons c rest ih =>
    rw [dropZeros]
    split
    · next hzero =>
      obtain ⟨d, rest', heq, -⟩ := beginsWithZero_iff.mp hzero
      exact ih (by rw [(List.cons.inj heq).2]; exact List.cons_ne_nil _ _)
    · exact h

/-! ### Leading zeros of a numeral -/

theorem digitsValue_zero_cons (digits : Text) :
    digitsValue ('0' :: digits) = digitsValue digits := by
  have hzero : digitsValue ['0'] = 0 := rfl
  rw [← List.singleton_append, digitsValue_append, hzero, Nat.zero_mul, Nat.zero_add]

theorem value_zero_cons (whole decimals : Text) :
    Numeral.value ('0' :: whole) decimals = Numeral.value whole decimals := by
  unfold Numeral.value
  rw [List.cons_append, digitsValue_zero_cons]

theorem read?_of_zero_cons {c : Char} {numeral : Text} {v : Float} (hc : c ≠ '.')
    (h : Numeral.read? ('0' :: c :: numeral) = some v) :
    Numeral.read? (c :: numeral) = some v := by
  obtain ⟨whole, decimals, hwhole, hdecimals, -, rfl, hrun⟩ := Numeral.exists_of_read? h
  rcases hrun with ⟨rfl, rfl⟩ | hrun
  · rw [value_zero_cons]
    exact Numeral.read?_digits (fun x hx => hwhole x (List.mem_cons_of_mem _ hx))
      (List.cons_ne_nil _ _)
  · cases whole with
    | nil => exact absurd (List.cons.inj hrun).1 (by decide)
    | cons zero whole =>
      obtain ⟨rfl, hrest⟩ := List.cons.inj hrun
      cases whole with
      | nil => exact absurd (List.cons.inj hrest).1 hc
      | cons d whole =>
        rw [hrest, value_zero_cons]
        exact Numeral.read?_point (fun x hx => hwhole x (List.mem_cons_of_mem _ hx)) hdecimals
          (by simp)

theorem isSign_of_isOperatorSign {c : Char} (h : isOperatorSign c = true) :
    isNumeric c = false ∧ c ≠ '0' ∧ c ≠ '.' := by
  simp only [isOperatorSign, Bool.or_eq_true, beq_iff_eq] at h
  rcases h with (((rfl | rfl) | rfl) | rfl) | rfl <;> decide +kernel

theorem evaluate_numeral_append {numeral numeral' rest : Text} {v : Float}
    (hread : Numeral.read? numeral = some v) (hread' : Numeral.read? numeral' = some v)
    (hrest : ∀ c ∈ rest.head?, isOperatorSign c = true) (hmargin : ∀ c ∈ rest, isMargin c = false) :
    evaluate (numeral ++ rest) = evaluate (numeral' ++ rest) := by
  have htrim {n : Text} (hn : Numeral.read? n = some v) : trim (n ++ rest) ≠ [] := by
    rw [trim_eq_self]
    · exact List.append_ne_nil_of_left_ne_nil (Numeral.ne_nil_of_read? hn) _
    · intro c hc
      rcases List.mem_append.mp hc with hc | hc
      · exact isMargin_of_isNumeric (Numeral.isNumeric_of_read? hn c hc)
      · exact hmargin c hc
  refine evaluate_congr (htrim hread) (htrim hread') (Token.tokenize_congr ?_)
  have hnext : ∀ c ∈ rest.head?, isNumeric c = false := fun c hc =>
    (isSign_of_isOperatorSign (hrest c hc)).1
  unfold Token.lex
  rw [Token.lexAfter_numeral hread hnext, Token.lexAfter_numeral hread' hnext]

/-- The text that is evaluated where a text is typed: a number of nothing but zeros at the beginning
is lost where the sign of an operator stands behind it. -/
def withoutLoneZero (text : Text) : Text :=
  if (text.dropWhile (· == '0')).head?.any isOperatorSign then text.dropWhile (· == '0') else text

theorem withoutLoneZero_of_head? {text : Text} (h : text.head? ≠ some '0') :
    withoutLoneZero text = text ∧ dropZeros text = text := by
  cases text with
  | nil => exact ⟨rfl, rfl⟩
  | cons c rest =>
    have hc : c ≠ '0' := fun hc => h (by rw [hc]; rfl)
    have hdrop : (c :: rest).dropWhile (· == '0') = c :: rest := by simp [hc]
    have hbegins : ¬ beginsWithZero (c :: rest) = true := by
      intro hb
      obtain ⟨d, rest', heq, -⟩ := beginsWithZero_iff.mp hb
      exact hc (List.cons.inj heq).1
    rw [withoutLoneZero, hdrop, ite_self, dropZeros, if_neg hbegins]
    exact ⟨rfl, rfl⟩

theorem dropWhile_zero (rest : Text) :
    ('0' :: rest).dropWhile (· == '0') = rest.dropWhile (· == '0') := rfl

theorem dropZeros_zero_cons {c : Char} (hc : c ≠ '.') (rest : Text) :
    dropZeros ('0' :: c :: rest) = dropZeros (c :: rest) := by
  have hbegins : beginsWithZero ('0' :: c :: rest) = true :=
    beginsWithZero_iff.mpr ⟨c, rest, rfl, hc⟩
  rw [dropZeros, if_pos hbegins]

/-- A zero before the sign of an operator is lost. -/
theorem zero_sign_lost {c : Char} (hc : isOperatorSign c = true) (rest : Text) :
    dropZeros ('0' :: c :: rest) = c :: rest ∧ withoutLoneZero ('0' :: c :: rest) = c :: rest := by
  obtain ⟨-, hzero, hpoint⟩ := isSign_of_isOperatorSign hc
  have hhead : (c :: rest).head? ≠ some '0' := fun h => hzero (Option.some.inj h)
  have hdrop : (c :: rest).dropWhile (· == '0') = c :: rest := by
    simp [hzero]
  have hsign : (c :: rest).head?.any isOperatorSign = true := hc
  rw [dropZeros_zero_cons hpoint, withoutLoneZero, dropWhile_zero, hdrop, if_pos hsign]
  exact ⟨(withoutLoneZero_of_head? hhead).2, rfl⟩

/-- **Leading zeros change no outcome**, but for the zero that is lost. -/
theorem evaluate_dropZeros {numeral rest : Text} {v : Float}
    (hread : Numeral.read? numeral = some v)
    (hrest : ∀ c ∈ rest.head?, isOperatorSign c = true) (hmargin : ∀ c ∈ rest, isMargin c = false) :
    evaluate (dropZeros (numeral ++ rest)) = evaluate (withoutLoneZero (numeral ++ rest)) := by
  induction numeral with
  | nil => exact absurd rfl (Numeral.ne_nil_of_read? hread)
  | cons c numeral ih =>
    by_cases hc : c = '0'
    swap
    · have hhead : (c :: numeral ++ rest).head? ≠ some '0' := fun h => hc (Option.some.inj h)
      obtain ⟨h1, h2⟩ := withoutLoneZero_of_head? hhead
      rw [h1, h2]
    subst hc
    cases numeral with
    | nil =>
      cases rest with
      | nil => rfl
      | cons d rest =>
        obtain ⟨h1, h2⟩ := zero_sign_lost (hrest d rfl) rest
        show evaluate (dropZeros ('0' :: d :: rest)) = evaluate (withoutLoneZero ('0' :: d :: rest))
        rw [h1, h2]
    | cons d numeral =>
      by_cases hd : d = '.'
      · subst hd
        rfl
      · have hread' := read?_of_zero_cons hd hread
        have hdrop : dropZeros ('0' :: d :: numeral ++ rest) = dropZeros (d :: numeral ++ rest) :=
          dropZeros_zero_cons hd _
        have hskip : ('0' :: d :: numeral ++ rest).dropWhile (· == '0') =
            (d :: numeral ++ rest).dropWhile (· == '0') := rfl
        rw [hdrop, ih hread', withoutLoneZero, withoutLoneZero, hskip]
        split
        · rfl
        · exact evaluate_numeral_append hread' hread hrest hmargin

/-! ### Typed expressions -/

theorem typable_of_writes {level : Nat} {e : Expression} {tokens : List Token} {text : Text}
    (h : Expression.Writes level e tokens) (hspell : Spelled tokens text)
    (hpoints : PointsApart text) : Typable text where
  margin := isMargin_of_spelled hspell
  product := fun before after heq =>
    clean_of_writes h [] text hspell impliesProduct_nil before after heq
  points := hpoints

theorem evaluate_dropZeros_of_writes {level : Nat} {e : Expression} {tokens : List Token}
    {text : Text} (h : Expression.Writes level e tokens) (hspell : Spelled tokens text) :
    evaluate (dropZeros text) = evaluate (withoutLoneZero text) := by
  by_cases hzero : text.head? = some '0'
  · obtain ⟨numeral, rest, v, rfl, hread, hrest⟩ := exists_numeral_of_writes h hspell hzero
    exact evaluate_dropZeros hread hrest fun c hc =>
      isMargin_of_spelled hspell c (List.mem_append_right _ hc)
  · obtain ⟨h1, h2⟩ := withoutLoneZero_of_head? hzero
    rw [h1, h2]

/-- The history after keys and an evaluation, where no failure is shown. -/
theorem exists_entry_of_keyed (stamp : Nat → Stamp) {desk : Desk}
    (hmessage : desk.pad.message = none) {keys : List Text} {buffer : Text}
    (htyped : typed desk.pad.lastResult desk.pad.buffer keys = buffer)
    (htrim : trim buffer = buffer) (hne : buffer ≠ []) :
    ∃ entry, ((keyed stamp desk keys).dispatch (Dialogue.supply stamp) .evaluate).pad.history =
        entry :: desk.pad.history ∧
      entry.expression = buffer ∧ entry.outcome = evaluate buffer := by
  have hpad : (keyed stamp desk keys).pad = { desk.pad with buffer := buffer } := by
    unfold keyed
    rw [dispatchAll_append, foldl_append hmessage, htyped]
  have hdue : (keyed stamp desk keys).pad.due? .evaluate = some buffer := by
    rw [hpad]
    exact due?_eq_some_iff.mpr ⟨rfl, by rwa [htrim], htrim.symm⟩
  unfold Desk.dispatch
  simp only
  rw [history_apply_of_due hdue, hpad]
  exact ⟨_, rfl, rfl, rfl⟩

theorem exists_entry_of_typed (stamp : Nat → Stamp) {keys : List Text} {buffer : Text}
    (htyped : typed none [] keys = buffer) (htrim : trim buffer = buffer) (hne : buffer ≠ []) :
    ∃ entry, (reached stamp (keys.map .append ++ [.evaluate])).pad.history = [entry] ∧
      entry.expression = buffer ∧ entry.outcome = evaluate buffer := by
  rw [reached_append]
  have hmessage : ({} : Desk).pad.message = none := rfl
  exact exists_entry_of_keyed stamp hmessage htyped htrim hne

/-- **The keypad evaluates what was typed.** The keys of a spelled infix expression whose points are
apart, and an evaluation, add to the history of a new desk one entry, with the outcome of the text;
or of what stands behind its zeros, where a number of nothing but zeros begins the text and an
operator follows it. -/
theorem typing_evaluates (stamp : Nat → Stamp) {e : Expression} {tokens : List Token} {text : Text}
    (h : Expression.Writes 0 e tokens) (hspell : Spelled tokens text)
    (hpoints : PointsApart text) :
    ∃ entry, (reached stamp ((keystrokes text).map .append ++ [.evaluate])).pad.history = [entry] ∧
      entry.outcome = evaluate (withoutLoneZero text) := by
  have htypable := typable_of_writes h hspell hpoints
  have hne : text ≠ [] := ne_nil_of_spelled hspell (ne_nil_of_writes h)
  have htrim : trim (dropZeros text) = dropZeros text :=
    trim_eq_self fun c hc => htypable.margin c ((dropZeros_sublist text).subset hc)
  obtain ⟨entry, hhistory, -, houtcome⟩ := exists_entry_of_typed stamp
    (typed_eq_dropZeros htypable) htrim (dropZeros_ne_nil hne)
  exact ⟨entry, hhistory, houtcome.trans (evaluate_dropZeros_of_writes h hspell)⟩

theorem writes_sum (v w : Float) : Expression.Writes 0
    (.binary .add (.number v) (.number w)) [.number v, .operator .add, .number w] :=
  .binary (Nat.zero_le _) (.number v) (.number w)

theorem typing_evaluates_seven_add_half :
    (Expression.Writes 0 (.binary .add (.number 7) (.number 0.5))
        [.number 7, .operator .add, .number 0.5] ∧
      Spelled [.number 7, .operator .add, .number 0.5] ['0', '7', '+', '.', '5'] ∧
      PointsApart ['0', '7', '+', '.', '5']) ∧
    ∃ entry, (reached countingStamp
        ((keystrokes ['0', '7', '+', '.', '5']).map .append ++ [.evaluate])).pad.history = [entry] ∧
      entry.outcome = .success 7.5 ['7', '.', '5'] := by
  have hseven : Spells (.number 7) ['0', '7'] := .number (by decide +kernel)
  have hhalf : Spells (.number 0.5) ['.', '5'] := .number (by decide +kernel)
  have hspell : Spelled [.number 7, .operator .add, .number 0.5] ['0', '7', '+', '.', '5'] :=
    .cons hseven (.cons (.operator .add) (.cons hhalf .nil))
  have hpoints : PointsApart ['0', '7', '+', '.', '5'] := by decide +kernel
  have hvalue : evaluate (withoutLoneZero ['0', '7', '+', '.', '5']) =
      .success 7.5 ['7', '.', '5'] := by decide +kernel
  refine ⟨⟨writes_sum 7 0.5, hspell, hpoints⟩, ?_⟩
  rw [← hvalue]
  exact typing_evaluates countingStamp (writes_sum 7 0.5) hspell hpoints

/-- The zero of 0+1 is lost, so that the sum lacks an operand; and the second point of
pow(1.5,2.5) is refused, because a comma does not end a number. -/
theorem typing_zero_add_one :
    (Expression.Writes 0 (.binary .add (.number 0) (.number 1))
        [.number 0, .operator .add, .number 1] ∧
      Spelled [.number 0, .operator .add, .number 1] ['0', '+', '1'] ∧
      (reached countingStamp
        ((keystrokes ['0', '+', '1']).map .append ++ [.evaluate])).pad.history.map (·.outcome) =
          [.failure .stackUnderflow "Less than 2 operand(s) on stack"] ∧
      evaluate ['0', '+', '1'] = .success 1 ['1']) ∧
    (Expression.Writes 0 (.power (.number 1.5) (.number 2.5))
        [.function Builtin.pow.name, .leftParen, .number 1.5, .comma, .number 2.5, .rightParen] ∧
      Spelled
        [.function Builtin.pow.name, .leftParen, .number 1.5, .comma, .number 2.5, .rightParen]
        ['p', 'o', 'w', '(', '1', '.', '5', ',', '2', '.', '5', ')'] ∧
      ∃ entry, (reached countingStamp ((keystrokes
        ['p', 'o', 'w', '(', '1', '.', '5', ',', '2', '.', '5', ')']).map .append ++
          [.evaluate])).pad.history = [entry] ∧
        entry.expression = ['p', 'o', 'w', '(', '1', '.', '5', ',', '2', '5', ')']) := by
  have hzero : Spells (.number 0) ['0'] := .number (by decide +kernel)
  have hone : Spells (.number 1) ['1'] := .number (by decide +kernel)
  have hbase : Spells (.number 1.5) ['1', '.', '5'] := .number (by decide +kernel)
  have hexponent : Spells (.number 2.5) ['2', '.', '5'] := .number (by decide +kernel)
  have htyped : typed none [] (keystrokes
      ['p', 'o', 'w', '(', '1', '.', '5', ',', '2', '.', '5', ')']) =
        ['p', 'o', 'w', '(', '1', '.', '5', ',', '2', '5', ')'] := by decide +kernel
  refine ⟨⟨writes_sum 0 1, ?_, ?_, ?_⟩, ⟨?_, ?_, ?_⟩⟩
  · exact .cons hzero (.cons (.operator .add) (.cons hone .nil))
  · decide +kernel
  · decide +kernel
  · exact .power (.number 1.5) (.number 2.5)
  · exact .cons (.function .pow) (.cons .leftParen (.cons hbase (.cons .comma (.cons hexponent
      (.cons .rightParen .nil)))))
  · obtain ⟨entry, hhistory, hexpression, -⟩ := exists_entry_of_typed countingStamp htyped
      (by decide +kernel) (List.cons_ne_nil _ _)
    exact ⟨entry, hhistory, hexpression⟩

end DeskCalculator
