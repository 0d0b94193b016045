import DeskCalculator.Proofs.Keypad.Typing
import DeskCalculator.Proofs.Token.Lexemes

/-!
# The keys of a line

A line is cut into its maximal runs. A run of letters is one key, a blank run is none, and each
character of any other run is a key (`keystrokes_eq_flatMap`). So the keys lose nothing but the
blanks, and between two words there is a gap of blanks (`exists_gap_between_words`). Where the line
has tokens, the words among the keys are the names of these tokens, and the other keys are the
characters of the other lexemes (`keys_of_line`).
-/

namespace DeskCalculator

open Token

variable {line key gap rest run : Text} {before keys : List Text}

/-- A key of letters. -/
def isWordKey (key : Text) : Bool :=
  key.all isLetter

/-- **The keys of a run**: one for letters, none for blanks, and one for each other character. -/
def keysOf (run : Text) : List Text :=
  if isWordKey run then [run]
  else if run.all isBlank then []
  else run.map fun c => [c]

/-- A key that is no word: one character. -/
def IsSymbolKey (key : Text) : Prop :=
  ∃ c, key = [c] ∧ isLetter c = false ∧ isBlank c = false

theorem isLetter_of_isBlank {c : Char} (h : isBlank c = true) : isLetter c = false :=
  Bool.eq_false_iff.mpr fun hl =>
    Bool.eq_false_iff.mp (isMargin_of_isLetter hl) (isMargin_of_isBlank h)

/-! ### A key and the rest of the line -/

theorem keystrokes_word (hword : isWordKey key = true) (hne : key ≠ [])
    (hrest : ∀ c ∈ rest.head?, isLetter c = false) :
    keystrokes (key ++ rest) = key :: keystrokes rest := by
  cases key with
  | nil => exact absurd rfl hne
  | cons c key =>
    obtain ⟨hc, hkey⟩ := List.forall_mem_cons.mp (List.all_eq_true.mp hword)
    obtain ⟨htake, hdrop⟩ := takeWhile_append_of_head? hkey hrest
    rw [List.cons_append, keystrokes, if_pos hc, htake, hdrop]

theorem keystrokes_symbol (h : IsSymbolKey key) :
    keystrokes (key ++ rest) = key :: keystrokes rest := by
  obtain ⟨c, rfl, hletter, hblank⟩ := h
  rw [List.singleton_append, keystrokes, hletter, hblank, if_neg Bool.false_ne_true,
    if_neg Bool.false_ne_true]

theorem keystrokes_blanks (h : ∀ c ∈ gap, isBlank c = true) :
    keystrokes (gap ++ rest) = keystrokes rest := by
  induction gap with
  | nil => rfl
  | cons c gap ih =>
    obtain ⟨hc, hgap⟩ := List.forall_mem_cons.mp h
    rw [List.cons_append, keystrokes, isLetter_of_isBlank hc, if_neg Bool.false_ne_true, if_pos hc]
    exact ih hgap

theorem keystrokes_of_blanks (h : ∀ c ∈ gap, isBlank c = true) : keystrokes gap = [] := by
  have hkeys : keystrokes (gap ++ []) = keystrokes [] := keystrokes_blanks h
  rwa [List.append_nil, keystrokes] at hkeys

theorem keystrokes_symbols (h : ∀ c ∈ run, isLetter c = false ∧ isBlank c = false) :
    keystrokes (run ++ rest) = (run.map fun c => [c]) ++ keystrokes rest := by
  induction run with
  | nil => rfl
  | cons c run ih =>
    obtain ⟨hc, hrun⟩ := List.forall_mem_cons.mp h
    rw [List.map_cons, List.cons_append, List.cons_append, ← ih hrun]
    exact keystrokes_symbol ⟨c, rfl, hc⟩

/-! ### The keys of the runs -/

theorem keysOf_of_symbols (hne : run ≠ [])
    (h : ∀ c ∈ run, isLetter c = false ∧ isBlank c = false) : keysOf run = run.map fun c => [c] := by
  obtain ⟨c, tail, rfl⟩ := List.exists_cons_of_ne_nil hne
  obtain ⟨hletter, hblank⟩ := h c List.mem_cons_self
  simp [keysOf, isWordKey, hletter, hblank]

theorem keysOf_of_blank (hne : run ≠ []) (h : run.all isBlank = true) : keysOf run = [] := by
  obtain ⟨c, tail, rfl⟩ := List.exists_cons_of_ne_nil hne
  have hletter := isLetter_of_isBlank (List.all_eq_true.mp h c List.mem_cons_self)
  rw [keysOf, if_neg (by simp [isWordKey, hletter]), if_pos h]

theorem isWordKey_or_blank_or_symbols (hne : run ≠ [])
    (hchain : run.IsChain fun c d => joins c d = true) :
    isWordKey run = true ∨ run.all isBlank = true ∨
      ∀ c ∈ run, isLetter c = false ∧ isBlank c = false := by
  obtain ⟨c, tail, rfl⟩ := List.exists_cons_of_ne_nil hne
  obtain ⟨hclass, -⟩ := of_eq_of_isChain hchain
  by_cases hletter : CharClass.of c = .letter
  · exact .inl (List.all_eq_true.mpr fun d hd => of_eq_letter_iff.mp ((hclass d hd).trans hletter))
  by_cases hblank : CharClass.of c = .blank
  · exact .inr (.inl (List.all_eq_true.mpr fun d hd =>
      of_eq_blank_iff.mp ((hclass d hd).trans hblank)))
  refine .inr (.inr fun d hd => ⟨?_, ?_⟩)
  · exact Bool.eq_false_iff.mpr fun hl =>
      hletter ((hclass d hd).symm.trans (of_eq_letter_iff.mpr hl))
  · exact Bool.eq_false_iff.mpr fun hb =>
      hblank ((hclass d hd).symm.trans (of_eq_blank_iff.mpr hb))

/-- The keys of a run come before those of what stands apart from it. -/
theorem keystrokes_run (hne : run ≠ []) (hchain : run.IsChain fun c d => joins c d = true)
    (happart : Apart run rest) : keystrokes (run ++ rest) = keysOf run ++ keystrokes rest := by
  rcases isWordKey_or_blank_or_symbols hne hchain with hword | hblank | hsymbols
  · have hletters : ∀ c ∈ run, CharClass.of c = .letter := fun c hc =>
      of_eq_letter_iff.mpr (List.all_eq_true.mp hword c hc)
    rw [keysOf, if_pos hword]
    refine keystrokes_word hword hne fun d hd => Bool.eq_false_iff.mpr fun hl => ?_
    exact happart.of_ne hne hletters (by decide) d hd (of_eq_letter_iff.mpr hl)
  · rw [keysOf_of_blank hne hblank]
    exact keystrokes_blanks (List.all_eq_true.mp hblank)
  · rw [keysOf_of_symbols hne hsymbols]
    exact keystrokes_symbols hsymbols

theorem keystrokes_flatten {pieces : List Text} (hcut : Cut pieces) :
    keystrokes pieces.flatten = pieces.flatMap keysOf := by
  induction pieces with
  | nil => rw [List.flatten_nil, keystrokes, List.flatMap_nil]
  | cons run pieces ih =>
    rw [List.flatten_cons, List.flatMap_cons, ← ih hcut.tail]
    exact keystrokes_run hcut.head_ne_nil (hcut.chain run List.mem_cons_self) hcut.apart_head

/-- **The keys of a line are those of its runs.** -/
theorem keystrokes_eq_flatMap (line : Text) : keystrokes line = (runs line).flatMap keysOf := by
  rw [← keystrokes_flatten (cut_runs line), flatten_runs]

/-- The lexemes have all keys, since blanks have none. -/
theorem keystrokes_eq_flatMap_lexemes (line : Text) :
    keystrokes line = (lexemes line).flatMap keysOf := by
  have hne : ∀ run ∈ runs line, run ≠ [] := fun run hrun => ne_of_mem_of_not_mem hrun
    (cut_runs line).ne_nil
  rw [keystrokes_eq_flatMap, lexemes]
  generalize runs line = pieces at hne ⊢
  induction pieces with
  | nil => rfl
  | cons run pieces ih =>
    obtain ⟨hrun, hpieces⟩ := List.forall_mem_cons.mp hne
    rw [List.flatMap_cons, ih hpieces]
    cases hblank : run.all isBlank with
    | true =>
      rw [List.filter_cons_of_neg (by simp [hblank]), keysOf_of_blank hrun hblank, List.nil_append]
    | false => rw [List.filter_cons_of_pos (by simp [hblank]), List.flatMap_cons]

/-! ### Where a key stands -/

theorem isWordKey_or_isSymbolKey (h : key ∈ keystrokes line) :
    isWordKey key = true ∨ IsSymbolKey key := by
  rcases (isKey_of_mem_keystrokes h).single_or_word with ⟨c, rfl⟩ | hword
  · have hmem : c ∈ (keystrokes line).flatten :=
      List.mem_flatten.mpr ⟨[c], h, List.mem_singleton_self c⟩
    rw [flatten_keystrokes, List.mem_filter, Bool.not_eq_true'] at hmem
    cases hletter : isLetter c with
    | true => exact .inl (by simp [isWordKey, hletter])
    | false => exact .inr ⟨c, rfl, hletter, hmem.2⟩
  · exact .inl (List.all_eq_true.mpr hword)

/-- Only blanks stand before the first key, and no letter behind it where it is a word. -/
theorem exists_first_key (h : keystrokes line = key :: keys) :
    ∃ gap rest, line = gap ++ (key ++ rest) ∧ (∀ c ∈ gap, isBlank c = true) ∧
      (isWordKey key = true → ∀ c ∈ rest.head?, isLetter c = false) ∧ keystrokes rest = keys := by
  induction line using keystrokes.induct with
  | case1 =>
    rw [keystrokes] at h
    cases h
  | case2 c rest hletter ih =>
    rw [keystrokes, if_pos hletter] at h
    obtain ⟨rfl, hkeys⟩ := List.cons.inj h
    refine ⟨[], rest.dropWhile isLetter, ?_, by simp, fun _ d hd => ?_, hkeys⟩
    · rw [List.nil_append, List.cons_append, List.takeWhile_append_dropWhile]
    · have hnot := List.head?_dropWhile_not isLetter rest
      rwa [Option.mem_def.mp hd] at hnot
  | case3 c rest hletter hblank ih =>
    rw [keystrokes, if_neg hletter, if_pos hblank] at h
    obtain ⟨gap, later, rfl, hgap, hletters, hkeys⟩ := ih h
    exact ⟨c :: gap, later, rfl, List.forall_mem_cons.mpr ⟨hblank, hgap⟩, hletters, hkeys⟩
  | case4 c rest hletter hblank ih =>
    rw [keystrokes, if_neg hletter, if_neg hblank] at h
    obtain ⟨rfl, hkeys⟩ := List.cons.inj h
    refine ⟨[], rest, rfl, by simp, fun hword => absurd hword ?_, hkeys⟩
    simp [isWordKey, hletter]

/-- **Each key stands in the line**, with its earlier keys before it and its later ones behind. -/
theorem exists_key (h : keystrokes line = before ++ key :: keys) :
    ∃ first rest, line = first ++ (key ++ rest) ∧ keystrokes first = before ∧
      (isWordKey key = true → ∀ c ∈ rest.head?, isLetter c = false) ∧ keystrokes rest = keys := by
  induction before generalizing line with
  | nil =>
    obtain ⟨gap, rest, hline, hgap, hletters, hkeys⟩ := exists_first_key h
    exact ⟨gap, rest, hline, keystrokes_of_blanks hgap, hletters, hkeys⟩
  | cons earlier before ih =>
    obtain ⟨gap, later, rfl, hgap, hearlier, hlater⟩ := exists_first_key h
    obtain ⟨first, rest, rfl, hfirst, hletters, hkeys⟩ := ih hlater
    refine ⟨gap ++ (earlier ++ first), rest, by simp, ?_, hletters, hkeys⟩
    have hmem : earlier ∈ keystrokes (gap ++ (earlier ++ (first ++ (key ++ rest)))) := by
      rw [h]
      exact List.mem_cons_self
    rw [keystrokes_blanks hgap, ← hfirst]
    rcases isWordKey_or_isSymbolKey hmem with hword | hsymbol
    · refine keystrokes_word hword (isKey_of_mem_keystrokes hmem).ne_nil fun c hc => ?_
      refine hearlier hword c ?_
      rw [List.head?_append, Option.mem_def.mp hc]
      rfl
    · exact keystrokes_symbol hsymbol

theorem exists_gap_between_words {next : Text} (h : keystrokes line = before ++ key :: next :: keys)
    (hkey : isWordKey key = true) (hnext : isWordKey next = true) :
    ∃ first gap rest, line = first ++ key ++ gap ++ next ++ rest ∧ keystrokes first = before ∧
      gap ≠ [] ∧ (∀ c ∈ gap, isBlank c = true) ∧ keystrokes rest = keys := by
  obtain ⟨first, later, rfl, hfirst, hletters, hlater⟩ := exists_key h
  obtain ⟨gap, rest, rfl, hgap, -, hkeys⟩ := exists_first_key hlater
  refine ⟨first, gap, rest, by simp, hfirst, ?_, hgap, hkeys⟩
  -- With no gap the second word would go on with the first one.
  rintro rfl
  obtain ⟨c, tail, rfl⟩ := List.exists_cons_of_ne_nil
    (isKey_of_mem_keystrokes (hlater ▸ List.mem_cons_self)).ne_nil
  have hc : isLetter c = true := List.all_eq_true.mp hnext c List.mem_cons_self
  rw [hletters hkey c rfl] at hc
  cases hc

/-! ### Keys and tokens -/

variable {token : Token} {tokens : List Token} {word : Text} {words : List Text}

theorem text_of_spells_name (h : Spells token word) (hname : token.isName = true) :
    token.text = word := by
  cases h with
  | function | constant => rfl
  | number | operator | leftParen | rightParen | comma => cases hname

theorem isWordKey_of_spells_name (h : Spells token word) (hname : token.isName = true) :
    isWordKey word = true :=
  List.all_eq_true.mpr
    (isLetter_of_mem_vocabulary (mem_vocabulary_iff.mpr ⟨token, named?_of_spells h hname⟩))

theorem symbols_of_spells (h : Spells token word) (hname : token.isName = false) :
    ∀ c ∈ word, isLetter c = false ∧ isBlank c = false := fun c hc =>
  ⟨isLetter_of_spells h hname c hc, isBlank_eq_false (isMargin_of_spells h c hc)⟩

theorem keysOf_of_spells (h : Spells token word) :
    keysOf word = if token.isName then [token.text] else word.map fun c => [c] := by
  split
  · next hname =>
    rw [keysOf, if_pos (isWordKey_of_spells_name h hname), text_of_spells_name h hname]
  · next hname =>
    exact keysOf_of_symbols (ne_nil_of_spells h) (symbols_of_spells h (Bool.eq_false_iff.mpr hname))

theorem filter_singletons (h : ∀ c ∈ run, isLetter c = false) :
    (run.map fun c => [c]).filter isWordKey = [] ∧
      (run.map fun c => [c]).filter (fun key => !isWordKey key) = run.map fun c => [c] := by
  have hkeys : ∀ key ∈ run.map fun c => [c], isWordKey key = false := by
    intro key hkey
    obtain ⟨c, hc, rfl⟩ := List.mem_map.mp hkey
    simp [isWordKey, h c hc]
  constructor
  · exact List.filter_eq_nil_iff.mpr fun key hkey => by simp [hkeys key hkey]
  · exact List.filter_eq_self.mpr fun key hkey => by simp [hkeys key hkey]

/-- The words among the keys are the names, and the other keys are what the other tokens are
spelled with. -/
theorem filter_keys_of_spells (h : List.Forall₂ Spells tokens words) :
    (words.flatMap keysOf).filter isWordKey = (tokens.filter Token.isName).map Token.text ∧
      (words.flatMap keysOf).filter (fun key => !isWordKey key) =
        ((tokens.zip words).filter fun read => !read.1.isName).flatMap
          fun read => read.2.map fun c => [c] := by
  induction h with
  | nil => exact ⟨rfl, rfl⟩
  | @cons token word tokens words hword hwords ih =>
    rw [List.flatMap_cons, List.filter_append, List.filter_append, ih.1, ih.2, List.zip_cons_cons,
      keysOf_of_spells hword]
    cases hname : token.isName with
    | true =>
      have hkey : isWordKey token.text = true := by
        rw [text_of_spells_name hword hname]
        exact isWordKey_of_spells_name hword hname
      simp [hname, hkey]
    | false =>
      obtain ⟨hnone, hall⟩ := filter_singletons fun c hc => (symbols_of_spells hword hname c hc).1
      simp only [Bool.false_eq_true, if_false, hnone, hall, List.nil_append]
      simp [hname]

/-! ### The keys of a line -/

/-- **Splitting a line into keys loses only the blanks, and agrees with the tokens.** Each key is a
word or one character, and a word behind a word stands behind a gap. Where the line has tokens, its
lexemes spell them; the words are the names of the tokens, and the other keys are the characters of
the lexemes that are no names. -/
theorem keys_of_line (line : Text) :
    ((keystrokes line).flatten = line.filter fun c => !isBlank c) ∧
      (∀ key ∈ keystrokes line, key ≠ [] ∧ (isWordKey key = true ∨ IsSymbolKey key)) ∧
      (∀ before key next keys, keystrokes line = before ++ key :: next :: keys →
        isWordKey key = true → isWordKey next = true →
          ∃ first gap rest, line = first ++ key ++ gap ++ next ++ rest ∧
            keystrokes first = before ∧ gap ≠ [] ∧ (∀ c ∈ gap, isBlank c = true) ∧
              keystrokes rest = keys) ∧
      ∀ tokens, tokenize line = .ok tokens →
        List.Forall₂ Spells tokens (lexemes line) ∧
          (keystrokes line).filter isWordKey = (tokens.filter Token.isName).map Token.text ∧
          (keystrokes line).filter (fun key => !isWordKey key) =
            ((tokens.zip (lexemes line)).filter fun read => !read.1.isName).flatMap
              fun read => read.2.map fun c => [c] := by
  refine ⟨flatten_keystrokes line, ?_, ?_, ?_⟩
  · exact fun key h => ⟨(isKey_of_mem_keystrokes h).ne_nil, isWordKey_or_isSymbolKey h⟩
  · exact fun before key next keys h hkey hnext => exists_gap_between_words h hkey hnext
  · intro tokens h
    have hspells := forall₂_spells_of_tokenize h
    refine ⟨hspells, ?_⟩
    rw [keystrokes_eq_flatMap_lexemes]
    exact filter_keys_of_spells hspells

/-- Two words with a gap, and a number that three keys are typed for. -/
theorem keys_of_line_function_constant :
    tokenize "sin pi*10.".toList = .ok [.function "sin".toList, .constant "pi".toList,
        .operator .multiply, .number 10] ∧
      (keystrokes "sin pi*10.".toList).filter isWordKey = ["sin".toList, "pi".toList] ∧
      (keystrokes "sin pi*10.".toList).filter (fun key => !isWordKey key) =
        [['*'], ['1'], ['0'], ['.']] ∧
      ∃ first gap rest,
        "sin pi*10.".toList = first ++ "sin".toList ++ gap ++ "pi".toList ++ rest ∧
          keystrokes first = [] ∧ gap ≠ [] ∧ (∀ c ∈ gap, isBlank c = true) ∧
            keystrokes rest = [['*'], ['1'], ['0'], ['.']] := by
  have htokens : tokenize "sin pi*10.".toList = .ok [.function "sin".toList,
      .constant "pi".toList, .operator .multiply, .number 10] := by decide +kernel
  obtain ⟨-, -, hgap, hread⟩ := keys_of_line "sin pi*10.".toList
  obtain ⟨-, hwords, hothers⟩ := hread _ htokens
  refine ⟨htokens, hwords.trans (by decide +kernel), hothers.trans (by decide +kernel), ?_⟩
  exact hgap [] _ _ _ (by decide +kernel) (by decide +kernel) (by decide +kernel)

end DeskCalculator
