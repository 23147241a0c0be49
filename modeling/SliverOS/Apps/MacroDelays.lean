import SliverOS.Apps.MacroChunks
import SliverOS.Apps.MacroLines
import SliverOS.Apps.BleHid

/-!
# Macro delays

The number of a `DELAY` is a character, whatever it is, and at most eight digits: the first
character is not tested to be one. If it is a minus sign, the number that `atoi` reads is
negative, and a delay of milliseconds without a sign it is almost `2 ^ 32`.

* `delayMs_le_iff`: any other number is at most what nine digits can be;
* `exists_overlong_iff`: so are the delays of a text, unless one of its numbers is negative
  (`NegativeDelay`);
* `delaysBounded_iff`: so are those of a file, and then the waits of the application for them;
* `BleHid.Reachable.patient`: so the application never waits for longer, in any run on such
  files.
-/

namespace SliverOS

open Bytes Streams

/-! ## Numbers -/

/-- The value of some digits, after those of the value `v`. -/
def decimalFrom (v : ℕ) (digits : List UInt8) : ℕ :=
  digits.foldl (fun v c => 10 * v + (c.toNat - 0x30)) v

variable {digits : List UInt8} {first : UInt8}

theorem digit_le {c : UInt8} (h : isdigit c = true) : c.toNat - 0x30 ≤ 9 := by
  simp only [isdigit, Bool.and_eq_true, decide_eq_true_eq, UInt8.le_iff_toNat_le] at h
  have hle : c.toNat ≤ 57 := h.2
  omega

theorem digit_eq_zero_iff {c : UInt8} (h : isdigit c = true) : c.toNat - 0x30 = 0 ↔ c = 0x30 := by
  simp only [isdigit, Bool.and_eq_true, decide_eq_true_eq, UInt8.le_iff_toNat_le] at h
  have hle : 48 ≤ c.toNat := h.1
  rw [← UInt8.toNat_inj]
  change _ ↔ c.toNat = 48
  omega

theorem decimalFrom_lt (h : ∀ c ∈ digits, isdigit c = true) (v : ℕ) :
    decimalFrom v digits < (v + 1) * 10 ^ digits.length := by
  induction digits generalizing v with
  | nil => simp [decimalFrom]
  | cons c digits ih =>
    rw [List.forall_mem_cons] at h
    have hdigit := digit_le h.1
    calc decimalFrom v (c :: digits)
        < (10 * v + (c.toNat - 0x30) + 1) * 10 ^ digits.length := ih h.2 _
      _ ≤ (v + 1) * 10 * 10 ^ digits.length := Nat.mul_le_mul_right _ (by omega)
      _ = (v + 1) * 10 ^ (c :: digits).length := by
        rw [List.length_cons, Nat.pow_succ', Nat.mul_assoc]

theorem decimalFrom_eq_zero_iff (h : ∀ c ∈ digits, isdigit c = true) (v : ℕ) :
    decimalFrom v digits = 0 ↔ v = 0 ∧ ∀ c ∈ digits, c = 0x30 := by
  induction digits generalizing v with
  | nil => simp [decimalFrom]
  | cons c digits ih =>
    rw [List.forall_mem_cons] at h
    have hstep : decimalFrom v (c :: digits) = decimalFrom (10 * v + (c.toNat - 0x30)) digits := rfl
    rw [hstep, ih h.2, List.forall_mem_cons, ← digit_eq_zero_iff h.1, Nat.add_eq_zero_iff,
      and_assoc, Nat.mul_eq_zero]
    simp

/-- The number that `atoi` reads from a character and some digits. -/
theorem atoi_cons (hfirst : isspace first = false) (h : ∀ c ∈ digits, isdigit c = true) :
    atoi (first :: digits) =
      if first = 0x2D then -(decimalFrom 0 digits : ℤ)
      else if isdigit first then decimalFrom 0 (first :: digits)
      else if first = 0x2B then decimalFrom 0 digits
      else 0 := by
  have hzero : ∀ c ∈ digits, (decide (c ≠ 0)) = true := by
    intro c hc
    have hdigit := h c hc
    simp only [decide_eq_true_eq]
    rintro rfl
    cases hdigit
  have htake : digits.takeWhile isdigit = digits := List.takeWhile_eq_self_iff.2 h
  rw [atoi, cString]
  by_cases hnull : first = 0
  · subst hnull
    rfl
  rw [List.takeWhile_cons_of_pos (by simpa using hnull), List.takeWhile_eq_self_iff.2 hzero,
    List.dropWhile_cons_of_neg (by simp [hfirst])]
  dsimp only
  split
  · next hcons =>
    obtain ⟨rfl, rfl⟩ := List.cons.inj hcons
    rw [if_pos rfl, htake]
    rfl
  · next hcons =>
    obtain ⟨rfl, rfl⟩ := List.cons.inj hcons
    rw [if_neg (by decide), if_neg (by decide), if_pos rfl, htake]
    rfl
  · next hminus hplus =>
    rw [if_neg fun hfirst => hminus digits (by rw [hfirst]),
      if_neg (fun hfirst : first = 0x2B => hplus digits (by rw [hfirst]))]
    by_cases hdigit : isdigit first = true
    · rw [if_pos hdigit, List.takeWhile_cons_of_pos hdigit, htake]
      rfl
    · rw [if_neg hdigit, List.takeWhile_cons_of_neg hdigit]
      rfl

theorem toNat_ofInt (x : ℤ) : (UInt32.ofInt x).toNat = (x % 2 ^ 32).toNat := by
  rw [UInt32.ofInt, UInt32.toNat_ofNat']
  omega

/-- The delay of a number is at most what nine digits can be, unless it is negative. -/
theorem delayMs_le_iff (hfirst : isspace first = false) (h : ∀ c ∈ digits, isdigit c = true)
    (hlen : digits.length ≤ 8) : (MacroEvent.delay (first :: digits)).delayMs.toNat ≤ 999999999 ↔
      ¬(first = 0x2D ∧ ∃ c ∈ digits, c ≠ 0x30) := by
  have hpow : 10 ^ digits.length ≤ 10 ^ 8 := Nat.pow_le_pow_right (by decide) hlen
  have hlt := decimalFrom_lt h 0
  have hnonzero : (∃ c ∈ digits, c ≠ 0x30) ↔ decimalFrom 0 digits ≠ 0 := by
    rw [ne_eq, decimalFrom_eq_zero_iff h]
    simp
  have hms : (MacroEvent.delay (first :: digits)).delayMs.toNat =
      (atoi (first :: digits) % 2 ^ 32).toNat := toNat_ofInt _
  rw [hms, atoi_cons hfirst h, hnonzero]
  by_cases hminus : first = 0x2D
  · -- A number that is not zero is taken from `2 ^ 32`.
    simp only [hminus, if_true, true_and, ne_eq, not_not]
    omega
  rw [if_neg hminus]
  refine iff_of_true ?_ fun hneg => hminus hneg.1
  split_ifs with hdigit
  · have hlt' : decimalFrom 0 (first :: digits) < _ :=
      decimalFrom_lt (List.forall_mem_cons.2 ⟨hdigit, h⟩) 0
    rw [List.length_cons, Nat.pow_succ] at hlt'
    omega
  · omega
  · decide

/-! ## Negative numbers -/

/-- A text with a `DELAY`, after whole commands, of a number that is negative: a minus sign
    and at most eight digits, not all of them zero. -/
inductive NegativeDelay : List UInt8 → Prop
  | intro {f w blanks digits after : List UInt8} {t : UInt8} : Whole f → Token w t →
      cString w = ascii "DELAY" → (∀ b ∈ blanks, isspace b = true) →
      (∀ b ∈ digits, isdigit b = true) → digits.length ≤ 8 → (∃ b ∈ digits, b ≠ 0x30) →
      NegativeDelay (f ++ (w ++ t :: (blanks ++ 0x2D :: (digits ++ after))))

variable {text w : List UInt8} {t : UInt8} {e : MacroEvent}

/-- Whole commands before such a text. -/
theorem NegativeDelay.append (h : NegativeDelay text) (piece : List UInt8)
    (hpiece : ∀ {text : List UInt8}, Whole text → Whole (piece ++ text)) :
    NegativeDelay (piece ++ text) := by
  cases h with
  | intro hf hw hdelay hblanks hdigits hlen hnonzero =>
    rw [← List.append_assoc]
    exact .intro (hpiece hf) hw hdelay hblanks hdigits hlen hnonzero

theorem macroNumber_digits (text : List UInt8) :
    (∀ c ∈ (text.takeWhile isdigit).take 8, isdigit c = true) ∧
      ((text.takeWhile isdigit).take 8).length ≤ 8 :=
  ⟨fun _ hc => List.mem_takeWhile_imp (List.mem_of_mem_take hc), List.length_take_le _ _⟩

/-- A `DELAY` that does not fit in nine digits. -/
def Overlong (e : MacroEvent) : Prop := e.type = .delay ∧ 999999999 < e.delayMs.toNat

/-- A negative number does not. -/
theorem NegativeDelay.exists_overlong (h : NegativeDelay text) :
    ∃ e ∈ macroEvents text, Overlong e := by
  cases h with
  | @intro f w blanks digits after t hf hw hdelay hblanks hdigits hlen hnonzero =>
    have hstring : ascii "DELAY" ≠ ascii "STRING" := by decide
    have hcommand : (wordCommand w (blanks ++ 0x2D :: (digits ++ after))).1 =
        [.delay (macroNumber 0x2D (digits ++ after))] := by
      rw [wordCommand, hdelay, if_neg hstring, if_pos rfl, delayCommand,
        List.dropWhile_append_of_pos hblanks, List.dropWhile_cons_of_neg (by decide)]
    refine ⟨.delay (macroNumber 0x2D (digits ++ after)), ?_, rfl, ?_⟩
    · rw [hf.append, macroEvents_token hw, hcommand]
      simp
    · obtain ⟨hall, hle⟩ := macroNumber_digits (digits ++ after)
      refine Nat.lt_of_not_le fun hms => (delayMs_le_iff (by decide) hall hle).1 hms ⟨rfl, ?_⟩
      -- The digits are among those that are read.
      obtain ⟨b, hb, hne⟩ := hnonzero
      refine ⟨b, ?_, hne⟩
      rw [List.takeWhile_append_of_pos hdigits, List.take_append]
      exact List.mem_append_left _ (by rwa [List.take_of_length_le hlen])

/-- A `STRING` has no delays, so that one which is too long is in the text after its line. -/
theorem negativeDelay_of_stringCommand {text : List UInt8} (hw : Token w t)
    (hstring : cString w = ascii "STRING")
    (ih : ∀ rest : List UInt8, rest.length < (w ++ t :: text).length →
      (∃ e ∈ macroEvents rest, Overlong e) → NegativeDelay rest)
    (h : ∃ e ∈ (stringCommand text).1 ++ macroEvents (stringCommand text).2, Overlong e) :
    NegativeDelay (w ++ t :: text) := by
  obtain ⟨e, he, hover⟩ := h
  have hrest : e ∈ macroEvents (stringCommand text).2 := by
    refine (List.mem_append.1 he).resolve_left fun hchar => ?_
    obtain ⟨c, -, rfl⟩ := List.mem_map.1 hchar
    cases hover.1
  by_cases heol : ∃ c ∈ text, isEol c = true
  · obtain ⟨line, c, rest, rfl, hline, hc⟩ := exists_first isEol heol
    rw [stringCommand_append hline hc] at hrest
    have hneg := ih rest (by simp; omega) ⟨e, hrest, hover⟩
    have hpiece := hneg.append (w ++ t :: (line ++ [c])) fun hwhole => by
      simpa using Whole.string hw hstring hline hc hwhole
    simpa using hpiece
  · -- The line does not end.
    have hnil : (stringCommand text).2 = [] := by
      have hline : ∀ c ∈ text.dropWhile isBlank, (!isEol c) = true := fun c hc => by
        simpa using fun heq => heol ⟨c, (List.dropWhile_suffix isBlank).subset hc, heq⟩
      rw [stringCommand, List.dropWhile_eq_nil_iff.2 hline]
      rfl
    rw [hnil, macroEvents_nil] at hrest
    cases hrest

/-- What a `DELAY` reads: a number, if there is one, and the character after it, if there is
    one. -/
theorem delayCommand_cases (text : List UInt8) : delayCommand text = ([.delay []], []) ∨
    ∃ blanks c digits after, text = blanks ++ c :: (digits ++ after) ∧
      (∀ b ∈ blanks, isspace b = true) ∧ isspace c = false ∧ (∀ b ∈ digits, isdigit b = true) ∧
      digits.length ≤ 8 ∧ (delayCommand text).1 = [.delay (c :: digits)] ∧
      ((delayCommand text).2 = [] ∨ ∃ u, after = u :: (delayCommand text).2 ∧
        (isdigit u = false ∨ digits.length = 8)) := by
  by_cases hspace : ∀ b ∈ text, isspace b = true
  · exact .inl (delayCommand_blanks hspace)
  right
  push Not at hspace
  obtain ⟨blanks, c, text, rfl, hblanks, hc⟩ :=
    exists_first (fun c => !isspace c) (by simpa using hspace)
  have hblanks : ∀ b ∈ blanks, isspace b = true := fun b hb => by simpa using hblanks b hb
  have hc : isspace c = false := by simpa using hc
  rcases exists_prefix_or isdigit 8 text with
    ⟨hdigits, hlen⟩ | ⟨digits, u, rest, rfl, hdigits, hlen, hu⟩
  · -- The number ends with the text.
    have hcommand : delayCommand (blanks ++ c :: text) = ([.delay (c :: text)], []) := by
      have hnumber : macroNumber c text = c :: text := by
        rw [macroNumber, List.takeWhile_eq_self_iff.2 hdigits, List.take_of_length_le hlen]
      rw [delayCommand, List.dropWhile_append_of_pos hblanks,
        List.dropWhile_cons_of_neg (by simp [hc])]
      simp only
      rw [hnumber, List.drop_eq_nil_of_le (by simp)]
    refine ⟨blanks, c, text, [], by rw [List.append_nil], hblanks, hc, hdigits, hlen, ?_⟩
    rw [hcommand]
    exact ⟨rfl, .inl rfl⟩
  · refine ⟨blanks, c, digits, u :: rest, rfl, hblanks, hc, hdigits, hlen, ?_⟩
    rw [delayCommand_append hblanks hc hdigits hlen hu]
    exact ⟨rfl, .inr ⟨u, rfl, hu⟩⟩

/-- A `DELAY` that is too long is one of a negative number. -/
theorem negativeDelay_of_delayCommand {text : List UInt8} (hw : Token w t)
    (hdelay : cString w = ascii "DELAY")
    (ih : ∀ rest : List UInt8, rest.length < (w ++ t :: text).length →
      (∃ e ∈ macroEvents rest, Overlong e) → NegativeDelay rest)
    (h : ∃ e ∈ (delayCommand text).1 ++ macroEvents (delayCommand text).2, Overlong e) :
    NegativeDelay (w ++ t :: text) := by
  obtain ⟨e, he, hover⟩ := h
  rcases delayCommand_cases text with
    hnone | ⟨blanks, c, digits, after, rfl, hblanks, hc, hdigits, hlen, hevents, hrest⟩
  · rw [hnone, macroEvents_nil, List.append_nil, List.mem_singleton] at he
    subst he
    exact absurd hover.2 (by decide)
  rw [hevents, List.mem_append, List.mem_singleton] at he
  rcases he with rfl | he
  · -- The number itself is negative.
    obtain ⟨rfl, hnonzero⟩ : c = 0x2D ∧ ∃ b ∈ digits, b ≠ 0x30 := by
      by_contra hneg
      exact Nat.not_le_of_lt hover.2 ((delayMs_le_iff hc hdigits hlen).2 hneg)
    exact .intro (f := []) .nil hw hdelay hblanks hdigits hlen hnonzero
  · -- Another one is, after it.
    generalize (delayCommand (blanks ++ c :: (digits ++ after))).2 = rest at he hrest
    rcases hrest with rfl | ⟨u, rfl, hu⟩
    · rw [macroEvents_nil] at he
      cases he
    · have hneg := ih rest (by simp; omega) ⟨e, he, hover⟩
      have hpiece := hneg.append (w ++ t :: (blanks ++ c :: (digits ++ [u])))
        fun hwhole => by simpa using Whole.delay hw hdelay hblanks hc hdigits hlen hu hwhole
      simpa using hpiece

/-- A command of which the word ends with the text is not too long. -/
theorem not_overlong_wordCommand_nil (w : List UInt8) :
    ¬∃ e ∈ (wordCommand w []).1 ++ macroEvents (wordCommand w []).2, Overlong e := by
  have hstring : stringCommand [] = ([], []) := rfl
  have hdelay : delayCommand [] = ([.delay []], []) := rfl
  rintro ⟨e, he, hover⟩
  rw [wordCommand, hstring, hdelay] at he
  split_ifs at he
  · simp [macroEvents_nil] at he
  · rw [macroEvents_nil, List.append_nil, List.mem_singleton] at he
    subst he
    exact absurd hover.2 (by decide)
  · rw [macroEvents_nil, List.append_nil, List.mem_singleton] at he
    subst he
    cases hover.1
  · simp [macroEvents_nil] at he

/-- What does not fit in nine digits is negative. -/
theorem negativeDelay_of_overlong (h : ∃ e ∈ macroEvents text, Overlong e) :
    NegativeDelay text := by
  -- By induction on the length of the text, of which a command takes a part.
  induction hn : text.length using Nat.strongRecOn generalizing text with
  | ind n ih =>
    subst hn
    replace ih : ∀ rest : List UInt8, rest.length < text.length →
        (∃ e ∈ macroEvents rest, Overlong e) → NegativeDelay rest :=
      fun rest hlt hrest => ih _ hlt hrest rfl
    cases text with
    | nil =>
      rw [macroEvents_nil] at h
      obtain ⟨e, he, -⟩ := h
      cases he
    | cons c text =>
      by_cases hc : isspace c = true
      · rw [macroEvents_blank hc] at h
        exact (ih text (Nat.lt_succ_self _) h).append [c] (.blank hc)
      have hc := eq_false_of_ne_true hc
      rcases exists_prefix_or (fun c => !isspace c) 14 text with
        ⟨hw, hlen⟩ | ⟨w, t, text, rfl, hw, hlen, hends⟩
      · -- The last word ends with the text.
        have hword : macroWord c text = c :: text := by
          rw [macroWord, List.takeWhile_eq_self_iff.2 hw, List.take_of_length_le hlen]
        have hcommand : command c text = wordCommand (c :: text) [] := by
          rw [command, hword, List.drop_eq_nil_of_le (by simp)]
        rw [macroEvents_of_cons (List.dropWhile_cons_of_neg (by simp [hc])), hcommand] at h
        exact absurd h (not_overlong_wordCommand_nil _)
      have htoken := Token.cons hc hw hlen hends
      rw [← List.cons_append] at h ih ⊢
      rw [macroEvents_token htoken, wordCommand] at h
      by_cases hstring : cString (c :: w) = ascii "STRING"
      · rw [if_pos hstring] at h
        exact negativeDelay_of_stringCommand htoken hstring ih h
      rw [if_neg hstring] at h
      by_cases hdelay : cString (c :: w) = ascii "DELAY"
      · rw [if_pos hdelay] at h
        exact negativeDelay_of_delayCommand htoken hdelay ih h
      rw [if_neg hdelay] at h
      -- An `ENTER`, or a command that does nothing.
      have hrest : ∃ e ∈ macroEvents text, Overlong e := by
        split_ifs at h
        · obtain ⟨e, he, hover⟩ := h
          rcases List.mem_cons.1 he with rfl | he
          · cases hover.1
          · exact ⟨e, he, hover⟩
        · exact h
      have hneg := (ih text (by simp; omega) hrest).append (c :: w ++ [t])
        fun hwhole => by simpa using Whole.word htoken hstring hdelay hwhole
      simpa using hneg

/-- The delays of a text that do not fit in nine digits are those of negative numbers. -/
theorem exists_overlong_iff (text : List UInt8) :
    (∃ e ∈ macroEvents text, Overlong e) ↔ NegativeDelay text :=
  ⟨negativeDelay_of_overlong, NegativeDelay.exists_overlong⟩

/-! ## Waits -/

section Waits

variable {σ : Type} [MacroSource σ]

/-- The delays of a file are at most what nine digits can be, and the waits for them at most
    what is computed from that. -/
def DelaysBounded (file : σ) : Prop :=
  ∀ n, (callEvent file n).type = .delay → (callEvent file n).delayMs.toNat ≤ 999999999 ∧
    ∀ s : BleHid σ, s.state = .parse → s.parser = parserAfter file n → ∀ connected opened,
      (s.bleHidTask connected opened).2.delayRemainingTicks.toNat ≤ 100000000

theorem visible_of_delay (h : e.type = .delay) : e.Visible := by
  rw [MacroEvent.Visible, h]
  decide

theorem toNat_waitTicks (e : MacroEvent) :
    (BleHid.waitTicks e).toNat = e.delayMs.toNat / 10 + 1 := by
  have hlt := e.delayMs.toNat_lt
  rw [BleHid.waitTicks, UInt32.toNat_add, UInt32.toNat_div]
  change (e.delayMs.toNat / 10 + 1) % 2 ^ 32 = _
  omega

/-- A `DELAY` starts a wait. -/
theorem BleHid.bleHidTask_of_delay {s : BleHid σ} (hstate : s.state = .parse)
    (hdelay : s.parser.macroParserNextEvent.1.type = .delay) (connected : Bool)
    (opened : Except MkStatus (Fin 8 × σ)) : (s.bleHidTask connected opened).2 = { s with
      parser := s.parser.macroParserNextEvent.2
      delayRemainingTicks := waitTicks s.parser.macroParserNextEvent.1
      state := .delay } := by
  simp only [bleHidTask, hstate, handleMacroEvent, hdelay]
  rfl

/-- A negative number is taken for one that does not fit in nine digits. -/
theorem not_delaysBounded_of_negativeDelay {file : σ} (h : NegativeDelay (MacroSource.rest file)) :
    ¬DelaysBounded file := by
  intro hbounded
  obtain ⟨e, he, hover⟩ := (exists_overlong_iff _).2 h
  obtain ⟨n, rfl⟩ := (exists_callEvent_iff file (visible_of_delay hover.1)).2 he
  exact Nat.not_le_of_lt hover.2 (hbounded n hover.1).1

/-- Without negative numbers, the delays are at most what nine digits can be. -/
theorem delayMs_callEvent_le {file : σ} (h : ¬NegativeDelay (MacroSource.rest file)) {n : ℕ}
    (hdelay : (callEvent file n).type = .delay) : (callEvent file n).delayMs.toNat ≤ 999999999 := by
  have hmem := (exists_callEvent_iff file (visible_of_delay hdelay)).1 ⟨n, rfl⟩
  exact Nat.le_of_not_lt fun hlt => h ((exists_overlong_iff _).1 ⟨_, hmem, hdelay, hlt⟩)

/-- The delays of a file, and the waits for them, are bounded exactly if none of its numbers is
    negative. -/
theorem delaysBounded_iff (file : σ) :
    DelaysBounded file ↔ ¬NegativeDelay (MacroSource.rest file) := by
  constructor
  · exact fun hbounded hneg => not_delaysBounded_of_negativeDelay hneg hbounded
  · intro hnone n hdelay
    have hms := delayMs_callEvent_le hnone hdelay
    refine ⟨hms, fun s hstate hparser connected opened => ?_⟩
    have hevent : s.parser.macroParserNextEvent.1 = callEvent file n := by rw [hparser]; rfl
    rw [BleHid.bleHidTask_of_delay hstate (by rw [hevent, hdelay])]
    simp only
    rw [hevent, toNat_waitTicks]
    omega

/-- The states in which there is a file that is read. -/
def BleAppInternalState.Reading (state : BleAppInternalState) : Prop :=
  state = .parse ∨ state = .release ∨ state = .delay

instance (state : BleAppInternalState) : Decidable state.Reading :=
  inferInstanceAs (Decidable (_ ∨ _))

theorem not_reading_uninit : ¬BleAppInternalState.uninit.Reading := by decide

theorem not_reading_waitConnection : ¬BleAppInternalState.waitConnection.Reading := by decide

theorem not_reading_openFile : ¬BleAppInternalState.openFile.Reading := by decide

theorem not_reading_cooldown : ¬BleAppInternalState.cooldown.Reading := by decide

namespace BleHid

/-- The wait is bounded, and the events still to come are those of a file without negative
    numbers. -/
structure Patient (s : BleHid σ) : Prop where
  ticks : s.delayRemainingTicks.toNat ≤ 100000000
  parser : s.state.Reading → ∃ (file : σ) (n : ℕ),
    ¬NegativeDelay (MacroSource.rest file) ∧ s.parser = parserAfter file n

variable {s : BleHid σ} {c : Call σ}

/-- Without a file, only the wait matters. -/
theorem Patient.idle {state : BleAppInternalState} (hidle : ¬state.Reading)
    (hstate : s.state = state) (hticks : s.delayRemainingTicks.toNat ≤ 100000000) : Patient s :=
  ⟨hticks, fun hreading => absurd (hstate ▸ hreading) hidle⟩

theorem Patient.bleHidTask (h : Patient s) (connected : Bool)
    {opened : Except MkStatus (Fin 8 × σ)}
    (hopened : ∀ fd file, opened = .ok (fd, file) → ¬NegativeDelay (MacroSource.rest file)) :
    Patient (s.bleHidTask connected opened).2 := by
  obtain ⟨state, p, macroFd, ticks⟩ := s
  obtain ⟨hticks, hparser⟩ := h
  dsimp only at hticks hparser
  cases state with
  | uninit => exact .idle not_reading_waitConnection rfl hticks
  | waitConnection =>
    cases connected with
    | false => exact .idle not_reading_waitConnection rfl hticks
    | true => exact .idle not_reading_openFile rfl hticks
  | openFile =>
    cases opened with
    | error status =>
      have hle : (50 : UInt32).toNat ≤ 100000000 := by decide
      exact .idle not_reading_cooldown rfl hle
    | ok reply => exact ⟨hticks, fun _ => ⟨reply.2, 0, hopened reply.1 reply.2 rfl, rfl⟩⟩
  | parse =>
    obtain ⟨file, n, hfile, rfl⟩ := hparser (.inl rfl)
    have hnext : (parserAfter file n).macroParserNextEvent.2 = parserAfter file (n + 1) :=
      (Generator.state_succ ..).symm
    obtain ⟨hsame, hcases⟩ := handleMacroEvent_cases
      ⟨.parse, (parserAfter file n).macroParserNextEvent.2, macroFd, ticks⟩ (callEvent file n)
    refine ⟨?_, fun _ => ⟨file, n + 1, hfile, hsame.trans hnext⟩⟩
    rcases hcases with hkept | hcooldown | ⟨hdelay, hwait⟩
    · exact (congrArg UInt32.toNat hkept).trans_le hticks
    · exact (congrArg UInt32.toNat hcooldown).trans_le (by decide)
    · have hms := delayMs_callEvent_le hfile hdelay
      refine (congrArg UInt32.toNat hwait).trans_le ?_
      rw [toNat_waitTicks]
      omega
  | release => exact ⟨hticks, fun _ => hparser (.inr (.inl rfl))⟩
  | delay =>
    obtain ⟨hsame, -, hle⟩ := waitTick_cases ⟨.delay, p, macroFd, ticks⟩ .parse
    refine ⟨hle.trans hticks, fun _ => ?_⟩
    obtain ⟨file, n, hfile, heq⟩ := hparser (.inr (.inr rfl))
    exact ⟨file, n, hfile, hsame.trans heq⟩
  | cooldown =>
    obtain ⟨-, hnext, hle⟩ := waitTick_cases ⟨.cooldown, p, macroFd, ticks⟩ .waitConnection
    rcases hnext with hnext | hnext
    · exact .idle not_reading_cooldown hnext (hle.trans hticks)
    · exact .idle not_reading_waitConnection hnext (hle.trans hticks)

theorem Patient.exec (h : Patient s)
    (hc : c.Opens fun file => ¬NegativeDelay (MacroSource.rest file)) : Patient (s.exec c).2 := by
  cases c with
  | bleHidInit => exact .idle not_reading_waitConnection rfl (Nat.zero_le _)
  | bleHidStart advertising =>
    rw [BleHid.exec, bleHidStart]
    dsimp only
    split_ifs
    · exact .idle not_reading_waitConnection rfl h.ticks
    · exact h
  | bleHidStop =>
    rw [BleHid.exec, bleHidStop, closeFile]
    split_ifs
    · exact .idle not_reading_waitConnection rfl h.ticks
    · exact .idle not_reading_waitConnection rfl h.ticks
  | bleHidTask connected opened =>
    refine h.bleHidTask connected ?_
    rintro fd file rfl
    exact hc
  | bleHidHandleEvent type =>
    rw [BleHid.exec, bleHidHandleEvent]
    dsimp only
    split_ifs
    · exact .idle not_reading_openFile rfl h.ticks
    · exact .idle not_reading_waitConnection rfl h.ticks
    · exact h

/-- In any run on files without negative numbers, the application never waits for longer. -/
theorem Reachable.patient
    (h : Reachable (fun file : σ => ¬NegativeDelay (MacroSource.rest file)) s) : Patient s := by
  induction h with
  | zero parser => exact .idle not_reading_uninit rfl (Nat.zero_le _)
  | call _ hc ih => exact ih.exec hc

end BleHid

end Waits

/-- A minus sign makes a delay of 5 ms one of almost fifty days. -/
theorem minus_taken : callEvent (ascii "DELAY -5\n") 0 = { MacroEvent.ofType .delay with
      delayMs := 4294967291 } ∧ ¬DelaysBounded (ascii "DELAY -5\n") := by
  constructor
  · rw [callEvent_eq]
    decide
  · have hword : Token (ascii "DELAY") 0x20 :=
      ⟨List.cons_ne_nil _ _, by simp [ascii, isspace], by simp [ascii], .inl rfl⟩
    have hneg : NegativeDelay ([] ++ (ascii "DELAY" ++ 0x20 :: ([] ++ 0x2D :: ([0x35] ++
        [newline])))) :=
      .intro .nil hword (by decide) (List.forall_mem_nil _) (by simp [isdigit]) (by decide)
        ⟨0x35, by simp, by decide⟩
    have htext : ascii "DELAY -5\n" = [] ++ (ascii "DELAY" ++ 0x20 :: ([] ++ 0x2D :: ([0x35] ++
        [newline]))) := by decide
    rw [← htext] at hneg
    exact not_delaysBounded_of_negativeDelay hneg

end SliverOS
