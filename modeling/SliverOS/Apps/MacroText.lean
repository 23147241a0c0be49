import SliverOS.Apps.MacroParser

/-!
# Macro texts

The events of a macro text: those of its commands, one after the other. A command is a
token, and for `STRING` and `DELAY` what follows it (`command`); an event of a command
that does nothing is left out, as is that of the end of the file.

The events that `macro_parser_next_event` returns for a file, called until its end, are
those of the text in it (`emitted_eq`), whatever the chunks in which it is read.
-/

namespace SliverOS

open Bytes

/-! ## Commands -/

/-- A character that ends a line. -/
def isEol (c : UInt8) : Bool := c = newline || c = carriageReturn

/-- A character that is skipped before the text of a `STRING`. -/
def isBlank (c : UInt8) : Bool := c = 0x20 || c = 0x09

/-- The token that starts with a character: at most 15 characters. -/
def macroWord (first : UInt8) (text : List UInt8) : List UInt8 :=
  first :: (text.takeWhile fun c => !isspace c).take 14

/-- The argument of a `DELAY` that starts with a character: at most 9 characters. -/
def macroNumber (first : UInt8) (text : List UInt8) : List UInt8 :=
  first :: (text.takeWhile isdigit).take 8

/-- The events of a `STRING`, and the text after its line. -/
def stringCommand (text : List UInt8) : List MacroEvent × List UInt8 :=
  let line := text.dropWhile isBlank
  (((line.takeWhile fun c => !isEol c).take 31).map .stringChar,
    (line.dropWhile fun c => !isEol c).tail)

/-- The event of a `DELAY`, and the text after its argument. -/
def delayCommand (text : List UInt8) : List MacroEvent × List UInt8 :=
  match text.dropWhile isspace with
  | [] => ([.delay []], [])
  | first :: text =>
    ([.delay (macroNumber first text)], text.drop (macroNumber first text).length)

/-- The events of a command of which the token is read, and the text after it. -/
def wordCommand (word text : List UInt8) : List MacroEvent × List UInt8 :=
  if cString word = ascii "STRING" then stringCommand text
  else if cString word = ascii "DELAY" then delayCommand text
  else if cString word = ascii "ENTER" then ([.enter], text)
  else ([], text)

/-- The events of the command that starts with a character, and the text after it. The
    character that ends the token is part of the command. -/
def command (first : UInt8) (text : List UInt8) : List MacroEvent × List UInt8 :=
  wordCommand (macroWord first text) (text.drop (macroWord first text).length)

variable {first : UInt8} {text : List UInt8}

theorem length_stringCommand (text : List UInt8) :
    (stringCommand text).1.length + (stringCommand text).2.length ≤ text.length := by
  have hline := congrArg List.length
    (List.takeWhile_append_dropWhile (p := fun c => !isEol c) (l := text.dropWhile isBlank))
  have hblank := (List.dropWhile_suffix isBlank (l := text)).length_le
  rw [List.length_append] at hline
  simp only [stringCommand, List.length_map, List.length_take, List.length_tail]
  omega

theorem length_delayCommand (text : List UInt8) :
    (delayCommand text).1.length = 1 ∧ (delayCommand text).2.length ≤ text.length := by
  have hblank := (List.dropWhile_suffix isspace (l := text)).length_le
  rw [delayCommand]
  cases hrest : text.dropWhile isspace with
  | nil => simp
  | cons first rest =>
    rw [hrest, List.length_cons] at hblank
    refine ⟨rfl, ?_⟩
    simp only [List.length_drop]
    omega

/-- A command takes as many characters as it has events, at least. -/
theorem length_command (first : UInt8) (text : List UInt8) :
    (command first text).1.length + (command first text).2.length ≤ text.length + 1 ∧
      (command first text).2.length ≤ text.length := by
  have hdrop : (text.drop (macroWord first text).length).length ≤ text.length :=
    (List.drop_suffix ..).length_le
  rw [command, wordCommand]
  split_ifs
  · have := length_stringCommand (text.drop (macroWord first text).length)
    omega
  · have := length_delayCommand (text.drop (macroWord first text).length)
    omega
  · simp only [List.length_singleton]
    omega
  · simp only [List.length_nil]
    omega

/-- The events of a macro text, those of its commands. -/
def macroEvents (text : List UInt8) : List MacroEvent :=
  match _h : text.dropWhile isspace with
  | [] => []
  | first :: rest => (command first rest).1 ++ macroEvents (command first rest).2
termination_by text.length
decreasing_by
  have hlen := (List.dropWhile_suffix isspace (l := text)).length_le
  rw [_h, List.length_cons] at hlen
  exact Nat.lt_of_le_of_lt (length_command first rest).2 hlen

theorem macroEvents_of_nil (h : text.dropWhile isspace = []) : macroEvents text = [] := by
  rw [macroEvents]
  split
  · rfl
  · next first rest heq =>
    rw [h] at heq
    cases heq

theorem macroEvents_of_cons {rest : List UInt8} (h : text.dropWhile isspace = first :: rest) :
    macroEvents text = (command first rest).1 ++ macroEvents (command first rest).2 := by
  rw [macroEvents]
  split
  · next heq =>
    rw [h] at heq
    cases heq
  · next first' rest' heq =>
    rw [h] at heq
    cases heq
    rfl

/-! ## The parser reads commands -/

namespace MacroParser

variable {σ : Type} {p p' : MacroParser σ}

/-- The characters of a `STRING` that there are no events of yet. -/
def pending (p : MacroParser σ) : List UInt8 := slice p.currentStr p.strPos (p.strLen - p.strPos)

theorem Same.pending (h : Same p p') : p'.pending = p.pending := by
  rw [MacroParser.pending, h.currentStr, h.strPos, h.strLen]
  rfl

theorem pending_of_lt (h : p.strPos < p.strLen) :
    p.pending = p.currentStr p.strPos :: p.nextStringChar.2.pending := by
  obtain ⟨n, hn⟩ := Nat.exists_eq_add_of_lt h
  have hlen : p.strLen - p.strPos = 1 + n := by omega
  have hlen' : p.strLen - (p.strPos + 1) = n := by omega
  rw [pending, pending, nextStringChar, hlen, hlen', slice_append]
  simp [slice]

theorem pending_of_le (h : p.strLen ≤ p.strPos) : p.pending = [] := by
  rw [pending, Nat.sub_eq_zero_of_le h]
  rfl

variable [MacroSource σ]

/-- The events that are still to come. -/
def remaining (p : MacroParser σ) : List MacroEvent :=
  p.pending.map .stringChar ++ macroEvents p.rest

theorem skipWhitespace_spec (p : MacroParser σ) :
    ∃ p', p.skipWhitespace = ((p.rest.dropWhile isspace).head?, p') ∧
      p'.rest = (p.rest.dropWhile isspace).tail ∧ p'.pending = p.pending := by
  obtain ⟨p', heq, hrest, hsame⟩ := whileNext_spec (fun _ c => isspace c)
    (fun line c => if c = newline then line + 1 else line) p.lineNumber p
  rw [whileList_eq] at heq hrest
  rw [skipWhitespace, heq]
  exact ⟨_, rfl, hrest, hsame.pending⟩

theorem readWord_spec (first : UInt8) (p : MacroParser σ) :
    ∃ p', p.readWord first = (macroWord first p.rest, p') ∧
      p'.rest = p.rest.drop (macroWord first p.rest).length ∧ p'.pending = p.pending := by
  obtain ⟨p', heq, hrest, hsame⟩ := whileNext_spec
    (fun (word : List UInt8) c => decide (word.length < 15) && !isspace c)
    (fun word c => word ++ [c]) [first] p
  rw [whileList_push (fun c => !isspace c)] at heq hrest
  rw [readWord, heq]
  refine ⟨_, rfl, ?_⟩
  split_ifs
  · exact ⟨hrest, hsame.pending⟩
  · exact ⟨hrest, hsame.pending⟩

theorem readNumber_spec (p : MacroParser σ) :
    ∃ num p', p.readNumber = (num, p') ∧ ([.delay num], p'.rest) = delayCommand p.rest ∧
      p'.pending = p.pending := by
  obtain ⟨p', heq, hrest, hpending⟩ := p.skipWhitespace_spec
  rw [readNumber, heq, delayCommand]
  cases htext : p.rest.dropWhile isspace with
  | nil =>
    rw [htext, List.tail_nil] at hrest
    exact ⟨_, _, rfl, Prod.ext rfl hrest, hpending⟩
  | cons first text =>
    rw [htext, List.tail_cons] at hrest
    subst hrest
    obtain ⟨p'', heq', hrest', hsame⟩ := whileNext_spec
      (fun (num : List UInt8) c => decide (num.length < 9) && isdigit c)
      (fun num c => num ++ [c]) [first] p'
    rw [whileList_push isdigit] at heq' hrest'
    simp only [List.head?_cons]
    rw [heq']
    exact ⟨_, _, rfl, Prod.ext rfl hrest', hsame.pending.trans hpending⟩

/-- The characters that fit in `current_str`. -/
theorem foldl_currentStr (line : List UInt8) (str : Memory × ℕ) (h : str.2 ≤ 31) :
    let str' := line.foldl (fun (str : Memory × ℕ) c =>
      if str.2 < 31 then (Function.update str.1 str.2 c, str.2 + 1) else str) str
    slice str'.1 0 str'.2 = slice str.1 0 str.2 ++ line.take (31 - str.2) := by
  induction line generalizing str with
  | nil => simp
  | cons c line ih =>
    simp only [List.foldl_cons]
    by_cases hlt : str.2 < 31
    · rw [if_pos hlt]
      obtain ⟨n, hn⟩ := Nat.exists_eq_add_of_lt hlt
      have hlen : 31 - str.2 = n + 1 := by omega
      have hlen' : 31 - (str.2 + 1) = n := by omega
      have hold : slice (Function.update str.1 str.2 c) 0 str.2 = slice str.1 0 str.2 :=
        slice_congr fun x _ hx => Function.update_of_ne (by omega) _ _
      rw [ih (_, str.2 + 1) hlt, hlen, hlen', slice_append, hold]
      simp [slice]
    · rw [if_neg hlt, ih str h, Nat.sub_eq_zero_of_le (Nat.le_of_not_lt hlt), List.take_zero,
        List.take_zero]

theorem not_isEol (c : UInt8) :
    (decide (c ≠ newline) && decide (c ≠ carriageReturn)) = !isEol c := by
  simp [isEol]

theorem readString_spec (p : MacroParser σ) :
    (p.readString.pending.map .stringChar, p.readString.rest) = stringCommand p.rest ∧
      p.readString.strPos = 0 := by
  obtain ⟨p', heq, hrest, -, -, hpos, hlen⟩ := whileNext_spec (fun _ c => c = 0x20 || c = 0x09)
    (fun _ _ => ()) () { p with strLen := 0, strPos := 0 }
  rw [whileList_eq fun c => c = 0x20 || c = 0x09] at heq hrest
  change _ = (_, (p.rest.dropWhile isBlank).head?, p') at heq
  change _ = (p.rest.dropWhile isBlank).tail at hrest
  simp only at hpos hlen
  have hnone : p'.pending = [] := pending_of_le (by rw [hlen, hpos])
  rw [readString, heq, stringCommand]
  cases htext : p.rest.dropWhile isBlank with
  | nil =>
    rw [htext, List.tail_nil] at hrest
    exact ⟨Prod.ext (congrArg (List.map _) hnone) hrest, hpos⟩
  | cons first text =>
    rw [htext, List.tail_cons] at hrest
    subst hrest
    simp only [List.head?_cons]
    by_cases hfirst : isEol first = true
    · -- The line ends before the string.
      rw [if_neg (by simpa [isEol, or_iff_not_imp_left] using hfirst),
        List.takeWhile_cons_of_neg (by simp [hfirst]),
        List.dropWhile_cons_of_neg (by simp [hfirst])]
      split_ifs
      · exact ⟨Prod.ext (congrArg (List.map _) hnone) rfl, hpos⟩
      · exact ⟨Prod.ext (congrArg (List.map _) hnone) rfl, hpos⟩
    · -- The line goes on to its end, and what fits of it is kept.
      obtain ⟨p'', heq', hrest', hsame⟩ := whileNext_spec
        (fun _ c => c ≠ newline && c ≠ carriageReturn)
        (fun (str : Memory × ℕ) c =>
          if str.2 < 31 then (Function.update str.1 str.2 c, str.2 + 1) else str)
        (Function.update p'.currentStr p'.strLen first, p'.strLen + 1) p'
      simp only [not_isEol] at heq' hrest' ⊢
      rw [whileList_eq fun c => !isEol c] at heq' hrest'
      rw [if_pos (by simpa [isEol] using hfirst), List.takeWhile_cons_of_pos (by simp [hfirst]),
        List.dropWhile_cons_of_pos (by simp [hfirst]), heq']
      have hstr := foldl_currentStr (p'.rest.takeWhile fun c => !isEol c)
        (Function.update p'.currentStr 0 first, 1) (Nat.le_of_ble_eq_true rfl)
      have hfirst' : slice (Function.update p'.currentStr 0 first) 0 1 = [first] := by
        simp [slice]
      simp only [hlen, Nat.zero_add] at heq' ⊢
      simp only [hfirst'] at hstr
      have hpos'' : p''.strPos = 0 := hsame.strPos.trans hpos
      have hline : ∀ line, pending { p'' with lineNumber := line, currentStr := _, strLen := _ } =
          (first :: p'.rest.takeWhile fun c => !isEol c).take 31 := fun line => by
        rw [pending, hpos'']
        exact hstr
      split_ifs
      · exact ⟨Prod.ext (congrArg (List.map _) (hline _)) hrest', hpos''⟩
      · exact ⟨Prod.ext (congrArg (List.map _) (hline _)) hrest', hpos''⟩

theorem visible_stringChar (c : UInt8) : (MacroEvent.stringChar c).Visible := ⟨nofun, nofun⟩

/-- The events of a command do something. -/
theorem visible_of_mem_command {e : MacroEvent} {first : UInt8} {text : List UInt8}
    (h : e ∈ (command first text).1) : e.Visible := by
  rw [command, wordCommand] at h
  split_ifs at h
  · obtain ⟨c, -, rfl⟩ := List.mem_map.1 h
    exact visible_stringChar c
  · rw [delayCommand] at h
    split at h
    · rw [List.mem_singleton.1 h]
      exact ⟨nofun, nofun⟩
    · rw [List.mem_singleton.1 h]
      exact ⟨nofun, nofun⟩
  · rw [List.mem_singleton.1 h]
    exact ⟨nofun, nofun⟩
  · cases h

/-- The next event is the first of the next command, if it has any. -/
theorem macroParserNextEvent_of_cons {first : UInt8} {text : List UInt8}
    (hlen : p.strLen ≤ p.strPos) (htext : p.rest.dropWhile isspace = first :: text) :
    ∃ p', p.macroParserNextEvent = ((command first text).1.headD (.ofType .none), p') ∧
      p'.pending.map .stringChar = (command first text).1.tail ∧
      p'.rest = (command first text).2 := by
  obtain ⟨p₁, heq₁, hrest₁, hpending₁⟩ := p.skipWhitespace_spec
  obtain ⟨p₂, heq₂, hrest₂, hpending₂⟩ := readWord_spec first p₁
  rw [htext, List.tail_cons] at hrest₁
  rw [hpending₁, pending_of_le hlen] at hpending₂
  rw [macroParserNextEvent, if_neg (Nat.not_lt_of_le hlen), heq₁, htext, List.head?_cons]
  simp only [heq₂]
  rw [command, wordCommand, ← hrest₁, ← hrest₂]
  by_cases hstring : cString (macroWord first p₁.rest) = ascii "STRING"
  · rw [if_pos hstring, if_pos hstring]
    obtain ⟨hspec, hpos⟩ := p₂.readString_spec
    rw [← hspec]
    -- The first character is returned at once, if there is one.
    by_cases hchars : 0 < p₂.readString.strLen
    · rw [if_pos hchars, pending_of_lt (by rwa [hpos])]
      exact ⟨_, rfl, rfl, rfl⟩
    · have hnone : p₂.readString.pending = [] :=
        pending_of_le (by rw [hpos]; exact Nat.le_of_not_lt hchars)
      rw [if_neg hchars, hnone]
      exact ⟨_, rfl, congrArg (List.map _) hnone, rfl⟩
  rw [if_neg hstring, if_neg hstring]
  by_cases hdelay : cString (macroWord first p₁.rest) = ascii "DELAY"
  · rw [if_pos hdelay, if_pos hdelay]
    obtain ⟨num, p₃, heq₃, hspec, hpending₃⟩ := p₂.readNumber_spec
    rw [heq₃, ← hspec]
    exact ⟨_, rfl, congrArg (List.map _) (hpending₃.trans hpending₂), rfl⟩
  rw [if_neg hdelay, if_neg hdelay]
  by_cases henter : cString (macroWord first p₁.rest) = ascii "ENTER"
  · rw [if_pos henter, if_pos henter]
    exact ⟨_, rfl, congrArg (List.map _) hpending₂, rfl⟩
  · rw [if_neg henter, if_neg henter]
    exact ⟨_, rfl, congrArg (List.map _) hpending₂, rfl⟩

/-- At the end of the file, there is no event. -/
theorem macroParserNextEvent_of_nil (hlen : p.strLen ≤ p.strPos)
    (htext : p.rest.dropWhile isspace = []) :
    ∃ p', p.macroParserNextEvent = (.ofType .eof, p') ∧ p'.pending = [] ∧ p'.rest = [] := by
  obtain ⟨p', heq, hrest, hpending⟩ := p.skipWhitespace_spec
  rw [htext] at heq hrest
  refine ⟨p', ?_, hpending.trans (pending_of_le hlen), hrest⟩
  rw [macroParserNextEvent, if_neg (Nat.not_lt_of_le hlen), heq]
  rfl

/-- An event is the first of those to come, if it does something. -/
theorem macroParserNextEvent_spec (p : MacroParser σ) :
    ∃ e p', p.macroParserNextEvent = (e, p') ∧
      ((e.type = .eof ∧ p.remaining = [] ∧ p'.pending = [] ∧ p'.rest = []) ∨
        (e.type ≠ .eof ∧ p.remaining = [e].filter (·.Visible) ++ p'.remaining ∧
          p'.pending.length + p'.rest.length < p.pending.length + p.rest.length)) := by
  by_cases hlt : p.strPos < p.strLen
  · -- A character of the last `STRING`.
    refine ⟨.stringChar (p.currentStr p.strPos), p.nextStringChar.2,
      by rw [macroParserNextEvent, if_pos hlt]; rfl, .inr ⟨nofun, ?_, ?_⟩⟩
    · rw [remaining, pending_of_lt hlt,
        List.filter_cons_of_pos (by simpa using visible_stringChar _)]
      rfl
    · rw [pending_of_lt hlt, List.length_cons]
      exact Nat.add_lt_add_right (Nat.lt_succ_self _) _
  have hlen := Nat.le_of_not_lt hlt
  have hnone := pending_of_le hlen
  cases htext : p.rest.dropWhile isspace with
  | nil =>
    obtain ⟨p', heq, hpending, hrest⟩ := macroParserNextEvent_of_nil hlen htext
    refine ⟨_, p', heq, .inl ⟨rfl, ?_, hpending, hrest⟩⟩
    rw [remaining, hnone, macroEvents_of_nil htext]
    rfl
  | cons first text =>
    obtain ⟨p', heq, hpending, hrest⟩ := macroParserNextEvent_of_cons hlen htext
    have hle := length_command first text
    have hdrop := (List.dropWhile_suffix isspace (l := p.rest)).length_le
    have hcount := congrArg List.length hpending
    rw [htext, List.length_cons] at hdrop
    rw [List.length_map, List.length_tail] at hcount
    refine ⟨_, p', heq, .inr ?_⟩
    rw [remaining, hnone, macroEvents_of_cons htext, remaining, hpending, hrest]
    cases hcommand : (command first text).1 with
    | nil =>
      rw [hcommand, List.length_nil] at hcount
      refine ⟨nofun, rfl, ?_⟩
      rw [List.length_nil]
      omega
    | cons e events =>
      -- An event is taken from the command.
      have hvisible : e.Visible := visible_of_mem_command (by rw [hcommand]; exact .head _)
      rw [hcommand, List.length_cons] at hle hcount
      refine ⟨hvisible.1, ?_, ?_⟩
      · rw [List.headD_cons, List.filter_cons_of_pos (by simpa using hvisible)]
        rfl
      · rw [List.length_nil]
        omega

/-- The events until the end of the file. -/
def events (p : MacroParser σ) : List MacroEvent :=
  if _h : p.macroParserNextEvent.1.type = .eof then []
  else p.macroParserNextEvent.1 :: events p.macroParserNextEvent.2
termination_by p.pending.length + p.rest.length
decreasing_by
  obtain ⟨e, p', heq, hcases⟩ := p.macroParserNextEvent_spec
  rw [heq] at _h ⊢
  rcases hcases with ⟨htype, -⟩ | ⟨-, -, hlt⟩
  · exact absurd htype _h
  · exact hlt

/-- The events that do something are those to come. -/
theorem filter_events (p : MacroParser σ) : p.events.filter (·.Visible) = p.remaining := by
  induction p using events.induct with
  | case1 p htype =>
    obtain ⟨e, p', heq, ⟨-, hnone, -⟩ | ⟨htype', -⟩⟩ := p.macroParserNextEvent_spec
    · rw [events, dif_pos htype, hnone]
      rfl
    · rw [heq] at htype
      exact absurd htype htype'
  | case2 p htype ih =>
    obtain ⟨e, p', heq, ⟨htype', -⟩ | ⟨-, hcons, -⟩⟩ := p.macroParserNextEvent_spec
    · rw [heq] at htype
      exact absurd htype' htype
    · rw [heq] at ih
      rw [events, dif_neg htype, heq, hcons, ← ih, ← List.filter_append, List.singleton_append]

/-- After the end of the file, there are no more events. -/
theorem macroParserNextEvent_eof (h : p.macroParserNextEvent.1.type = .eof) :
    p.macroParserNextEvent.2.macroParserNextEvent.1.type = .eof := by
  obtain ⟨e, p', heq, ⟨-, -, hpending, hrest⟩ | ⟨htype, -⟩⟩ := p.macroParserNextEvent_spec
  · obtain ⟨e', p'', heq', ⟨htype, -⟩ | ⟨-, -, hlt⟩⟩ := p'.macroParserNextEvent_spec
    · rwa [heq, heq']
    · rw [hpending, hrest] at hlt
      exact absurd hlt (Nat.not_lt_zero _)
  · rw [heq] at h
    exact absurd h htype

end MacroParser

/-! ## Files -/

variable {σ : Type} [MacroSource σ]

/-- The events that do something of a macro file, read from a parser initialized on it until
    the end of the file. -/
def emitted (file : σ) : List MacroEvent := (macroParserInit file).events.filter (·.Visible)

/-- The events of a file are those of the text in it, in whatever chunks it is read. -/
theorem emitted_eq (file : σ) : emitted file = macroEvents (MacroSource.rest file) :=
  MacroParser.filter_events (macroParserInit file)

/-- So are those of a file of the file system. -/
theorem emitted_openFile (w : SizeT) (f : OpenFile) :
    @emitted OpenFile (OpenFile.source w) f = emitted f.rest :=
  (@emitted_eq OpenFile (OpenFile.source w) f).trans (emitted_eq f.rest).symm

end SliverOS
