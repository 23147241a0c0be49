import SliverOS.Apps.MacroText

/-!
# Macro lines

Where a macro text can be cut so that its two parts are read as if each was a file of
its own: where it is a sequence of whole commands before the cut (`Whole`).

* `Whole.append`: the events of such a text and of another one after it are those of
  the one and then those of the other;
* `line_by_line_iff`: for a text that ends with a newline, this is exact. What is left is a
  text that ends in the middle of a command (`Dangling`): a `STRING` directly followed by its
  last newline, which reads the next line as its string, or a `DELAY` without a number, which
  takes its number from the next line.
-/

namespace SliverOS

open Bytes

/-! ## Whole commands -/

/-- A command token, with the character after it: there is at most 15 characters of it. -/
structure Token (w : List UInt8) (t : UInt8) : Prop where
  ne_nil : w ≠ []
  notSpace : ∀ c ∈ w, isspace c = false
  length_le : w.length ≤ 15
  ends : isspace t = true ∨ w.length = 15

/-- A sequence of whole commands, each with the characters it reads, and white space. -/
inductive Whole : List UInt8 → Prop
  | nil : Whole []
  | blank {c : UInt8} {text : List UInt8} : isspace c = true → Whole text → Whole (c :: text)
  | word {w text : List UInt8} {t : UInt8} : Token w t → cString w ≠ ascii "STRING" →
      cString w ≠ ascii "DELAY" → Whole text → Whole (w ++ t :: text)
  | string {w line text : List UInt8} {t e : UInt8} : Token w t → cString w = ascii "STRING" →
      (∀ c ∈ line, isEol c = false) → isEol e = true → Whole text →
      Whole (w ++ t :: (line ++ e :: text))
  | delay {w blanks digits text : List UInt8} {t c u : UInt8} : Token w t →
      cString w = ascii "DELAY" → (∀ b ∈ blanks, isspace b = true) → isspace c = false →
      (∀ b ∈ digits, isdigit b = true) → digits.length ≤ 8 →
      (isdigit u = false ∨ digits.length = 8) → Whole text →
      Whole (w ++ t :: (blanks ++ c :: (digits ++ u :: text)))

variable {w text rest f : List UInt8} {t : UInt8}

theorem macroEvents_nil : macroEvents [] = [] := macroEvents_of_nil rfl

/-- White space before a command is skipped. -/
theorem macroEvents_blank {c : UInt8} (h : isspace c = true) (text : List UInt8) :
    macroEvents (c :: text) = macroEvents text := by
  have hdrop : (c :: text).dropWhile isspace = text.dropWhile isspace :=
    List.dropWhile_cons_of_pos h
  cases htext : text.dropWhile isspace with
  | nil => rw [macroEvents_of_nil htext, macroEvents_of_nil (hdrop.trans htext)]
  | cons first rest => rw [macroEvents_of_cons htext, macroEvents_of_cons (hdrop.trans htext)]

/-- Reading a token takes it and the character after it. -/
theorem macroEvents_token (h : Token w t) (text : List UInt8) :
    macroEvents (w ++ t :: text) =
      (wordCommand w text).1 ++ macroEvents (wordCommand w text).2 := by
  obtain ⟨hne, hspace, hlen, hends⟩ := h
  obtain ⟨first, w, rfl⟩ := List.exists_cons_of_ne_nil hne
  rw [List.forall_mem_cons] at hspace
  rw [List.length_cons] at hlen hends
  have hword : macroWord first (w ++ t :: text) = first :: w := by
    rw [macroWord, List.takeWhile_append_of_pos fun c hc => by simp [hspace.2 c hc]]
    congr 1
    rcases hends with ht | hfull
    · rw [List.takeWhile_cons_of_neg (by simp [ht]), List.append_nil, List.take_of_length_le]
      omega
    · exact List.take_left' (by omega)
  rw [List.cons_append, macroEvents_of_cons (List.dropWhile_cons_of_neg (by simp [hspace.1])),
    command, hword, List.length_cons, ← List.drop_drop, List.drop_left' rfl]
  rfl

/-- A `STRING` reads its line. -/
theorem stringCommand_append {line : List UInt8} {e : UInt8} (hline : ∀ c ∈ line, isEol c = false)
    (he : isEol e = true) (text : List UInt8) : stringCommand (line ++ e :: text) =
      (((line.dropWhile isBlank).take 31).map .stringChar, text) := by
  have hblank : isBlank e = false := by
    simp only [isEol, Bool.or_eq_true, decide_eq_true_eq] at he
    rcases he with rfl | rfl
    · rfl
    · rfl
  have hdrop : (line ++ e :: text).dropWhile isBlank = line.dropWhile isBlank ++ e :: text := by
    rw [List.dropWhile_append]
    split
    · next hnil =>
      rw [List.isEmpty_iff.1 hnil, List.dropWhile_cons_of_neg (by simp [hblank]), List.nil_append]
    · rfl
  have hline' : ∀ c ∈ line.dropWhile isBlank, (!isEol c) = true := fun c hc => by
    simp [hline c ((List.dropWhile_suffix isBlank).subset hc)]
  rw [stringCommand, hdrop, List.takeWhile_append_of_pos hline',
    List.dropWhile_append_of_pos hline', List.takeWhile_cons_of_neg (by simp [he]),
    List.dropWhile_cons_of_neg (by simp [he]), List.append_nil, List.tail_cons]

/-- A `DELAY` reads its number and the character after it. -/
theorem delayCommand_append {blanks digits : List UInt8} {c u : UInt8}
    (hblanks : ∀ b ∈ blanks, isspace b = true) (hc : isspace c = false)
    (hdigits : ∀ b ∈ digits, isdigit b = true) (hlen : digits.length ≤ 8)
    (hu : isdigit u = false ∨ digits.length = 8) (text : List UInt8) :
    delayCommand (blanks ++ c :: (digits ++ u :: text)) = ([.delay (c :: digits)], text) := by
  have hnumber : macroNumber c (digits ++ u :: text) = c :: digits := by
    rw [macroNumber, List.takeWhile_append_of_pos hdigits]
    congr 1
    rcases hu with hu | hfull
    · rw [List.takeWhile_cons_of_neg (by simp [hu]), List.append_nil, List.take_of_length_le hlen]
    · exact List.take_left' hfull
  rw [delayCommand, List.dropWhile_append_of_pos hblanks,
    List.dropWhile_cons_of_neg (by simp [hc])]
  simp only
  rw [hnumber, List.length_cons, ← List.drop_drop, List.drop_left' rfl]
  rfl

/-- There is no number after a `DELAY` at the end. -/
theorem delayCommand_blanks {blanks : List UInt8} (h : ∀ b ∈ blanks, isspace b = true) :
    delayCommand blanks = ([.delay []], []) := by
  rw [delayCommand, List.dropWhile_eq_nil_iff.2 h]

/-- A text after a sequence of whole commands is read on its own. -/
theorem Whole.append (h : Whole f) (rest : List UInt8) :
    macroEvents (f ++ rest) = macroEvents f ++ macroEvents rest := by
  induction h with
  | nil => rw [List.nil_append, macroEvents_nil, List.nil_append]
  | blank hc _ ih => rw [List.cons_append, macroEvents_blank hc, macroEvents_blank hc, ih]
  | word hw hstring hdelay _ ih =>
    simp only [List.append_assoc, List.cons_append]
    rw [macroEvents_token hw, macroEvents_token hw, wordCommand, wordCommand, if_neg hstring,
      if_neg hstring, if_neg hdelay, if_neg hdelay]
    split_ifs <;> simp [ih]
  | string hw hstring hline he _ ih =>
    simp only [List.append_assoc, List.cons_append]
    rw [macroEvents_token hw, macroEvents_token hw, wordCommand, wordCommand, if_pos hstring,
      if_pos hstring, stringCommand_append hline he, stringCommand_append hline he, ih,
      List.append_assoc]
  | delay hw hdelay hblanks hc hdigits hlen hu _ ih =>
    have hstring : ascii "DELAY" ≠ ascii "STRING" := by decide
    simp only [List.append_assoc, List.cons_append]
    rw [macroEvents_token hw, macroEvents_token hw, wordCommand, wordCommand, hdelay,
      if_neg hstring, if_neg hstring, if_pos rfl, if_pos rfl,
      delayCommand_append hblanks hc hdigits hlen hu,
      delayCommand_append hblanks hc hdigits hlen hu, ih, List.append_assoc]

/-! ## Texts that end with a newline -/

/-- A text that ends in the middle of a command: a `STRING` of which the line is still to come,
    or a `DELAY` of which the number is. -/
inductive Dangling : List UInt8 → Prop
  | string {f w : List UInt8} {t : UInt8} : Whole f → Token w t → cString w = ascii "STRING" →
      Dangling (f ++ (w ++ [t]))
  | delay {f w blanks : List UInt8} {t : UInt8} : Whole f → Token w t →
      cString w = ascii "DELAY" → (∀ b ∈ blanks, isspace b = true) →
      Dangling (f ++ (w ++ t :: blanks))

/-- A text of whole commands before one that ends in the middle of a command. -/
theorem Dangling.append (h : Dangling rest) {piece : List UInt8}
    (hpiece : ∀ {text : List UInt8}, Whole text → Whole (piece ++ text)) :
    Dangling (piece ++ rest) := by
  cases h with
  | string hf hw hstring =>
    rw [← List.append_assoc]
    exact .string (hpiece hf) hw hstring
  | delay hf hw hdelay hblanks =>
    rw [← List.append_assoc]
    exact .delay (hpiece hf) hw hdelay hblanks

/-- Either there are at most `n` characters, all of a kind, or there is one after at most `n`
    of them. -/
theorem exists_prefix_or (q : UInt8 → Bool) (n : ℕ) (l : List UInt8) :
    ((∀ b ∈ l, q b = true) ∧ l.length ≤ n) ∨
      ∃ taken c after, l = taken ++ c :: after ∧ (∀ b ∈ taken, q b = true) ∧ taken.length ≤ n ∧
        (q c = false ∨ taken.length = n) := by
  induction l generalizing n with
  | nil => exact .inl ⟨by simp, Nat.zero_le _⟩
  | cons b l ih =>
    by_cases hb : q b = false
    · exact .inr ⟨[], b, l, rfl, by simp, Nat.zero_le _, .inl hb⟩
    cases n with
    | zero => exact .inr ⟨[], b, l, rfl, by simp, Nat.le_refl _, .inr rfl⟩
    | succ n =>
      have hb := eq_true_of_ne_false hb
      rcases ih n with ⟨hall, hlen⟩ | ⟨taken, c, after, rfl, htaken, hlen, hends⟩
      · exact .inl ⟨List.forall_mem_cons.2 ⟨hb, hall⟩, Nat.succ_le_succ hlen⟩
      · refine .inr ⟨b :: taken, c, after, rfl, ?_, Nat.succ_le_succ hlen, ?_⟩
        · exact List.forall_mem_cons.2 ⟨hb, htaken⟩
        · exact hends.imp_right fun h => by rw [List.length_cons, h]

/-- At most `n` characters of a kind, up to one that is not. -/
theorem exists_prefix (q : UInt8 → Bool) (n : ℕ) {l : List UInt8} (h : ∃ c ∈ l, q c = false) :
    ∃ taken c after, l = taken ++ c :: after ∧ (∀ b ∈ taken, q b = true) ∧ taken.length ≤ n ∧
      (q c = false ∨ taken.length = n) := by
  refine (exists_prefix_or q n l).resolve_left fun hall => ?_
  obtain ⟨c, hmem, hc⟩ := h
  rw [hall.1 c hmem] at hc
  cases hc

/-- A token is read up to white space, or to its length. -/
theorem Token.cons {c t : UInt8} {w : List UInt8} (hc : isspace c = false)
    (hw : ∀ b ∈ w, (!isspace b) = true) (hlen : w.length ≤ 14)
    (hends : (!isspace t) = false ∨ w.length = 14) : Token (c :: w) t := by
  refine ⟨List.cons_ne_nil _ _, ?_, Nat.succ_le_succ hlen, ?_⟩
  · exact List.forall_mem_cons.2 ⟨hc, fun b hb => by simpa using hw b hb⟩
  · exact hends.imp (fun ht => by simpa using ht) fun h => by rw [List.length_cons, h]

/-- The characters before the first one of a kind. -/
theorem exists_first (q : UInt8 → Bool) {l : List UInt8} (h : ∃ c ∈ l, q c = true) :
    ∃ before c after, l = before ++ c :: after ∧ (∀ b ∈ before, q b = false) ∧ q c = true := by
  obtain ⟨c, hc⟩ := Option.isSome_iff_exists.1 (List.find?_isSome.2 h)
  obtain ⟨hq, before, after, rfl, hbefore⟩ := List.find?_eq_some_iff_append.1 hc
  exact ⟨before, c, after, rfl, fun b hb => by simpa using hbefore b hb, hq⟩

/-- A text of lines. -/
def EndsLine (f : List UInt8) : Prop := f = [] ∨ f.getLast? = some newline

theorem EndsLine.of_append (h : EndsLine (f ++ rest)) : EndsLine rest := by
  rcases List.eq_nil_or_concat rest with rfl | ⟨rest, b, rfl⟩
  · exact .inl rfl
  · right
    simpa [EndsLine] using h

/-- A text of lines that starts with a character that is not white space goes on. -/
theorem EndsLine.newline_mem {c : UInt8} (h : EndsLine (c :: f)) (hc : isspace c = false) :
    newline ∈ f := by
  rcases List.mem_cons.1 (List.mem_of_getLast? (h.resolve_left (List.cons_ne_nil _ _))) with
    rfl | hmem
  · cases hc
  · exact hmem

/-- A text of lines ends with a command, or in the middle of one. -/
theorem whole_or_dangling (h : EndsLine f) : Whole f ∨ Dangling f := by
  -- By induction on the length of the text, of which a command takes a part.
  induction hn : f.length using Nat.strongRecOn generalizing f with
  | ind n ih =>
    subst hn
    -- A piece of the text is read, and then what comes after it.
    have hrest : ∀ piece text : List UInt8, f = piece ++ text → piece ≠ [] →
        (∀ {text : List UInt8}, Whole text → Whole (piece ++ text)) → Whole f ∨ Dangling f := by
      rintro piece text rfl hne hpiece
      rcases ih text.length (by simp [List.length_pos_iff.2 hne]) h.of_append rfl with
        hwhole | hdangling
      · exact .inl (hpiece hwhole)
      · exact .inr (hdangling.append hpiece)
    cases f with
    | nil => exact .inl .nil
    | cons c f =>
      by_cases hc : isspace c = true
      · exact hrest [c] f rfl (List.cons_ne_nil _ _) (.blank hc)
      have hc := eq_false_of_ne_true hc
      obtain ⟨w, t, text, rfl, hw, hlen, hends⟩ :=
        exists_prefix (fun c => !isspace c) 14 ⟨newline, h.newline_mem hc, rfl⟩
      have htoken := Token.cons hc hw hlen hends
      have htext : EndsLine text :=
        EndsLine.of_append (f := c :: w ++ [t]) (by rwa [List.append_assoc])
      by_cases hstring : cString (c :: w) = ascii "STRING"
      · -- The line of the string ends, unless nothing is left.
        rcases htext with rfl | hlast
        · exact .inr (.string .nil htoken hstring)
        obtain ⟨line, e, text, rfl, hline, he⟩ :=
          exists_first isEol ⟨newline, List.mem_of_getLast? hlast, rfl⟩
        refine hrest (c :: w ++ t :: (line ++ [e])) text (by simp) (by simp) fun hwhole => ?_
        simpa using Whole.string htoken hstring hline he hwhole
      by_cases hdelay : cString (c :: w) = ascii "DELAY"
      · -- There is a number, unless only white space is left.
        by_cases hblanks : ∀ b ∈ text, isspace b = true
        · exact .inr (.delay .nil htoken hdelay hblanks)
        push Not at hblanks
        obtain ⟨blanks, d, text, rfl, hspace, hd⟩ :=
          exists_first (fun c => !isspace c) (by simpa using hblanks)
        have hd : isspace d = false := by simpa using hd
        -- The number is followed by something, as the text does not end with it.
        obtain ⟨digits, u, text, rfl, hdigits, hdlen, hu⟩ :=
          exists_prefix isdigit 8 ⟨newline, htext.of_append.newline_mem hd, rfl⟩
        refine hrest (c :: w ++ t :: (blanks ++ d :: (digits ++ [u]))) text (by simp) (by simp)
          fun hwhole => ?_
        simpa using Whole.delay htoken hdelay (fun b hb => by simpa using hspace b hb) hd hdigits
          hdlen hu hwhole
      · refine hrest (c :: w ++ [t]) text (by simp) (by simp) fun hwhole => ?_
        simpa using Whole.word htoken hstring hdelay hwhole

/-! ## Lines read one by one -/

/-- An `ENTER` on a line of its own. -/
def enterLine : List UInt8 := ascii "ENTER\n"

theorem token_enter : Token (ascii "ENTER") newline :=
  ⟨List.cons_ne_nil _ _, by simp [ascii, isspace], by simp [ascii], .inl rfl⟩

theorem macroEvents_enterLine : macroEvents enterLine = [.enter] := by
  have heq : enterLine = ascii "ENTER" ++ newline :: [] := by decide
  have hcommand : wordCommand (ascii "ENTER") [] = ([.enter], []) := by decide
  rw [heq, macroEvents_token token_enter, hcommand, macroEvents_nil]
  rfl

/-- A line after a text that ends in the middle of a command is not read on its own. -/
theorem Dangling.append_ne (h : Dangling f) :
    macroEvents (f ++ enterLine) ≠ macroEvents f ++ macroEvents enterLine := by
  rw [macroEvents_enterLine]
  cases h with
  | string hf hw hstring =>
    have hnil : stringCommand [] = ([], []) := rfl
    have hline : stringCommand enterLine = ((ascii "ENTER").map .stringChar, []) := by decide
    rw [List.append_assoc, hf.append, hf.append, List.append_assoc, List.append_assoc, ne_eq,
      List.append_right_inj, List.singleton_append, macroEvents_token hw, macroEvents_token hw,
      wordCommand, wordCommand, if_pos hstring, if_pos hstring, hnil, hline, macroEvents_nil]
    -- The line is typed.
    exact fun h => absurd (congrArg List.length h) (by decide)
  | delay hf hw hdelay hblanks =>
    have hstring : ascii "DELAY" ≠ ascii "STRING" := by decide
    have hnone := delayCommand_blanks hblanks
    have hline : delayCommand (_ ++ enterLine) = ([.delay [0x45]], ascii "TER" ++ [newline]) :=
      delayCommand_append (c := 0x45) (u := 0x4E) hblanks rfl (List.forall_mem_nil _)
        (Nat.zero_le _) (.inl rfl) (ascii "TER\n")
    have hword : wordCommand (ascii "TER") [] = ([], []) := by decide
    have htoken : Token (ascii "TER") newline :=
      ⟨List.cons_ne_nil _ _, by simp [ascii, isspace], by simp [ascii], .inl rfl⟩
    rw [List.append_assoc, hf.append, hf.append, List.append_assoc, List.append_assoc, ne_eq,
      List.append_right_inj, List.cons_append, macroEvents_token hw, macroEvents_token hw,
      wordCommand, wordCommand, hdelay, if_neg hstring, if_neg hstring, if_pos rfl, if_pos rfl,
      hnone, hline, macroEvents_token htoken, hword, macroEvents_nil]
    -- The line is taken for the number.
    exact fun h => absurd (congrArg List.length h) (by decide)

/-- For a text of lines, any text after it is read on its own exactly if it is a sequence of
    whole commands. -/
theorem line_by_line_iff (f : List UInt8) (h : f.getLast? = some newline) :
    (∀ f' : List UInt8, emitted (f ++ f') = emitted f ++ emitted f') ↔ Whole f := by
  constructor
  · intro hread
    refine (whole_or_dangling (.inr h)).resolve_right fun hdangling => hdangling.append_ne ?_
    have hline := hread enterLine
    rwa [emitted_eq, emitted_eq, emitted_eq] at hline
  · intro hwhole f'
    rw [emitted_eq, emitted_eq, emitted_eq]
    exact hwhole.append f'

theorem token_string {t : UInt8} (ht : isspace t = true) : Token (ascii "STRING") t :=
  ⟨List.cons_ne_nil _ _, by simp [ascii, isspace], by simp [ascii], .inl ht⟩

/-- After a line that types a string, the next line is read on its own. -/
theorem line_by_line_string : emitted (ascii "STRING Hi\n" ++ ascii "ENTER\n") =
    emitted (ascii "STRING Hi\n") ++ emitted (ascii "ENTER\n") := by
  have hstring : cString (ascii "STRING") = ascii "STRING" := by decide
  have hwhole : Whole (ascii "STRING" ++ 0x20 :: (ascii "Hi" ++ newline :: [])) :=
    .string (token_string rfl) hstring (by simp [ascii, isEol, newline, carriageReturn]) rfl .nil
  exact (line_by_line_iff (ascii "STRING Hi\n") (by decide)).2 hwhole (ascii "ENTER\n")

/-- After a `STRING` without a string, the next line is typed. -/
theorem string_types_next_line :
    emitted (ascii "STRING\n" ++ ascii "ENTER\n") = (ascii "ENTER").map .stringChar ∧
      emitted (ascii "STRING\n") ++ emitted (ascii "ENTER\n") = [.enter] ∧
      emitted (ascii "STRING\n" ++ ascii "ENTER\n") ≠
        emitted (ascii "STRING\n") ++ emitted (ascii "ENTER\n") := by
  have hnone : wordCommand (ascii "STRING") [] = ([], []) := by decide
  have hline : wordCommand (ascii "STRING") enterLine = ((ascii "ENTER").map .stringChar, []) := by
    decide
  have hboth : emitted (ascii "STRING\n" ++ ascii "ENTER\n") =
      (ascii "ENTER").map .stringChar := by
    rw [emitted_eq]
    change macroEvents (ascii "STRING" ++ newline :: enterLine) = _
    rw [macroEvents_token (token_string rfl), hline, macroEvents_nil, List.append_nil]
  have hone : emitted (ascii "STRING\n") ++ emitted (ascii "ENTER\n") = [.enter] := by
    rw [emitted_eq, emitted_eq]
    change macroEvents (ascii "STRING" ++ newline :: []) ++ macroEvents enterLine = _
    rw [macroEvents_token (token_string rfl), hnone, macroEvents_nil, macroEvents_enterLine]
    rfl
  rw [hboth, hone]
  exact ⟨rfl, rfl, fun h => absurd (congrArg List.length h) (by decide)⟩

/-- Lines, each of them a sequence of whole commands, are read one by one. -/
theorem emitted_lines (lines : List (List UInt8)) (h : ∀ line ∈ lines, Whole line) :
    emitted lines.flatten = (lines.map emitted).flatten := by
  induction lines with
  | nil => rw [List.flatten_nil, emitted_eq]; exact macroEvents_nil
  | cons line lines ih =>
    rw [List.forall_mem_cons] at h
    rw [List.flatten_cons, List.map_cons, List.flatten_cons, ← ih h.2]
    simp only [emitted_eq]
    exact h.1.append _

end SliverOS
