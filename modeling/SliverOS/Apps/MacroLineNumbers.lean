import SliverOS.Apps.MacroChunks

/-!
# The line numbers of a macro

`macro_parser_next_event` counts the newlines that it takes in each of its loops. Two of these stop
at a character that they do not look at: the one that reads a token, when there are 15 characters
of it, and the one that reads the number of a `DELAY`. A newline there is taken and not counted
(`MacroParser.missed`).

* `MacroParser.macroParserNextEvent_reads`: a call counts the newlines that it takes, but for those;
* `lineNumbers_iff`: the line number is right after each of the first calls on a file exactly when
  none of them misses a newline, and the number fits, as it does for any file of the file system
  (`newlines_openFile_lt`).
-/

namespace SliverOS

open Streams

variable {σ : Type} [MacroSource σ]

/-! ## Newlines that are missed -/

/-- The token has all of its 15 characters, and the one read after them is a newline. -/
def tokenMisses (first : UInt8) (text : List UInt8) : Bool :=
  (macroWord first text).length = 15 && (text.drop 14).head? = some newline

/-- The character read after the number is a newline. -/
def numberMisses (text : List UInt8) : Bool :=
  match text.dropWhile isspace with
  | [] => false
  | first :: text => (text.drop ((macroNumber first text).length - 1)).head? = some newline

/-- The newlines that the command misses. -/
def commandMisses (first : UInt8) (text : List UInt8) : ℕ :=
  (tokenMisses first text).toNat +
    (decide (cString (macroWord first text) = ascii "DELAY") &&
      numberMisses (text.drop (macroWord first text).length)).toNat

/-- The newlines that the next call takes and does not count. -/
def MacroParser.missed (p : MacroParser σ) : ℕ :=
  if p.strPos < p.strLen then 0
  else
    match p.rest.dropWhile isspace with
    | [] => 0
    | first :: text => commandMisses first text

/-! ## Files -/

/-- The characters taken from the file by the first `n` calls. -/
def taken (file : σ) (n : ℕ) : List UInt8 :=
  (MacroSource.rest file).take
    ((MacroSource.rest file).length - (parserAfter file n).rest.length)

/-- The line number after `n` calls is one more than the newlines taken. -/
def LineNumbered (file : σ) (n : ℕ) : Prop :=
  (parserAfter file n).lineNumber.toNat = 1 + (taken file n).count newline

/-! ## Newlines that are counted -/

namespace MacroParser

/-- The characters of a list are taken, and the newlines among them counted but for `missed`. -/
def Reads (missed : ℕ) (p p' : MacroParser σ) : Prop :=
  ∃ piece, p.rest = piece ++ p'.rest ∧
    p'.lineNumber + UInt32.ofNat missed = p.lineNumber + UInt32.ofNat (piece.count newline)

variable {p p' p'' : MacroParser σ} {missed missed' : ℕ}

theorem Reads.refl (p : MacroParser σ) : Reads 0 p p := ⟨[], rfl, rfl⟩

theorem Reads.trans (h : Reads missed p p') (h' : Reads missed' p' p'') :
    Reads (missed + missed') p p'' := by
  obtain ⟨piece, hrest, hline⟩ := h
  obtain ⟨piece', hrest', hline'⟩ := h'
  refine ⟨piece ++ piece', by rw [hrest, hrest', List.append_assoc], ?_⟩
  rw [List.count_append, UInt32.ofNat_add, UInt32.ofNat_add]
  calc p''.lineNumber + (UInt32.ofNat missed + UInt32.ofNat missed')
      = p''.lineNumber + UInt32.ofNat missed' + UInt32.ofNat missed := by
        rw [add_comm (UInt32.ofNat missed), add_assoc]
    _ = p'.lineNumber + UInt32.ofNat missed + UInt32.ofNat (piece'.count newline) := by
        rw [hline', add_right_comm]
    _ = p.lineNumber + (UInt32.ofNat (piece.count newline) +
          UInt32.ofNat (piece'.count newline)) := by
        rw [hline, add_assoc]

section Loops

variable {before after : List UInt8}

/-- A loop takes the characters before the one that it stops at, and this one. -/
theorem Reads.of_loop (hsplit : p.rest = before ++ after) (hrest : p'.rest = after.tail)
    (hline : p'.lineNumber + UInt32.ofNat missed = p.lineNumber +
      UInt32.ofNat (before.count newline + if after.head? = some newline then 1 else 0)) :
    Reads missed p p' := by
  cases after with
  | nil =>
    refine ⟨before, by rw [hsplit, hrest, List.tail_nil], ?_⟩
    simpa using hline
  | cons c after =>
    refine ⟨before ++ [c], by rw [hsplit, hrest, List.tail_cons]; simp, ?_⟩
    rw [hline, List.count_append, List.count_singleton]
    simp

/-- The character that it stops at is looked at, and no other one is a newline. -/
theorem Reads.of_counted (hsplit : p.rest = before ++ after) (hrest : p'.rest = after.tail)
    (hsame : p'.lineNumber = p.lineNumber) (hnone : before.count newline = 0) :
    Reads 0 p
      (if after.head? = some newline then { p' with lineNumber := p'.lineNumber + 1 } else p') := by
  by_cases hend : after.head? = some newline
  · rw [if_pos hend]
    refine .of_loop hsplit hrest ?_
    simp [hend, hnone, hsame]
  · rw [if_neg hend]
    refine .of_loop hsplit hrest ?_
    simp [hend, hnone, hsame]

/-- The character that it stops at is not looked at. -/
theorem Reads.of_missed (hsplit : p.rest = before ++ after) (hrest : p'.rest = after.tail)
    (hsame : p'.lineNumber = p.lineNumber) (hnone : before.count newline = 0) :
    Reads (decide (after.head? = some newline)).toNat p p' := by
  refine .of_loop hsplit hrest ?_
  by_cases hend : after.head? = some newline
  · simp [hend, hnone, hsame]
  · simp [hend, hnone, hsame]

end Loops

/-- Nothing is counted of what has no newline in it. -/
theorem count_newline_eq_zero {l : List UInt8} (h : ∀ c ∈ l, c ≠ newline) :
    l.count newline = 0 :=
  List.count_eq_zero_of_not_mem fun hmem => h newline hmem rfl

theorem foldl_lineNumber (l : List UInt8) (n : UInt32) :
    l.foldl (fun line c => if c = newline then line + 1 else line) n =
      n + UInt32.ofNat (l.count newline) := by
  induction l generalizing n with
  | nil => simp
  | cons c l ih =>
    rw [List.foldl_cons, ih, List.count_cons, UInt32.ofNat_add]
    by_cases hc : c = newline
    · rw [if_pos hc, if_pos (by simpa using hc), add_assoc, add_comm (UInt32.ofNat _)]
      rfl
    · rw [if_neg hc, if_neg (by simpa using hc)]
      simp

theorem skipWhitespace_reads (p : MacroParser σ) : Reads 0 p p.skipWhitespace.2 := by
  obtain ⟨p', heq, hrest, hsame⟩ := whileNext_spec (fun _ c => isspace c)
    (fun line c => if c = newline then line + 1 else line) p.lineNumber p
  rw [whileList_eq, foldl_lineNumber] at heq hrest
  have hstop : (p.rest.dropWhile isspace).head? ≠ some newline := by
    intro hhead
    have hnot := List.head?_dropWhile_not isspace p.rest
    rw [hhead] at hnot
    exact absurd hnot (by decide)
  rw [skipWhitespace, heq]
  refine .of_loop (List.takeWhile_append_dropWhile (p := isspace)).symm hrest ?_
  rw [if_neg hstop]
  exact add_zero _

/-- What is taken by a loop filling an array is what comes first. -/
theorem take_takeWhile_append_drop (q : UInt8 → Bool) (n : ℕ) (l : List UInt8) :
    l = (l.takeWhile q).take n ++ l.drop ((l.takeWhile q).take n).length :=
  (List.prefix_iff_eq_append.1 ((List.take_prefix _ _).trans (List.takeWhile_prefix q))).symm

theorem not_newline_of_mem_take {q : UInt8 → Bool} (hq : q newline = false) {n : ℕ}
    {l : List UInt8} : ∀ c ∈ (l.takeWhile q).take n, c ≠ newline := by
  rintro c hc rfl
  have hmem := List.mem_takeWhile_imp (List.mem_of_mem_take hc)
  rw [hq] at hmem
  cases hmem

/-- The token is missed a newline only when it has all of its characters. -/
theorem readWord_reads (first : UInt8) (p : MacroParser σ) :
    Reads (tokenMisses first p.rest).toNat p (p.readWord first).2 := by
  obtain ⟨p', heq, hrest, hsame⟩ := whileNext_spec
    (fun (word : List UInt8) c => decide (word.length < 15) && !isspace c)
    (fun word c => word ++ [c]) [first] p
  have hsplit := take_takeWhile_append_drop (fun c => !isspace c) 14 p.rest
  have hnone : ((p.rest.takeWhile fun c => !isspace c).take 14).count newline = 0 :=
    count_newline_eq_zero (not_newline_of_mem_take rfl)
  have hlen : ((p.rest.takeWhile fun c => !isspace c).take 14).length ≤ 14 :=
    List.length_take_le _ _
  have hmisses : tokenMisses first p.rest =
      (decide ((((p.rest.takeWhile fun c => !isspace c).take 14)).length + 1 = 15) &&
        decide ((p.rest.drop 14).head? = some newline)) := rfl
  rw [whileList_push (fun c => !isspace c)] at heq hrest
  simp only [List.length_singleton, List.singleton_append, Nat.add_one_sub_one] at heq hrest
  rw [readWord, heq, hmisses]
  generalize (p.rest.takeWhile fun c => !isspace c).take 14 = token at *
  rw [← List.tail_drop] at hrest
  by_cases hshort : token.length + 1 < 15
  · have hpart : ¬token.length + 1 = 15 := Nat.ne_of_lt hshort
    simp only [List.length_cons, hshort, and_true, hpart, decide_false, Bool.false_and,
      Bool.toNat_false]
    exact .of_counted hsplit hrest hsame.lineNumber hnone
  · -- What comes after a full token is not looked at.
    have hfull : token.length = 14 := by omega
    rw [hfull] at hsplit hrest
    simp only [List.length_cons, hfull, Nat.reduceAdd, Nat.lt_irrefl, and_false, if_false,
      decide_true, Bool.true_and]
    exact .of_missed hsplit hrest hsame.lineNumber hnone

theorem readString_reads (p : MacroParser σ) : Reads 0 p p.readString := by
  obtain ⟨p', heq, hrest, hsame⟩ := whileNext_spec (fun _ c => c = 0x20 || c = 0x09)
    (fun _ _ => ()) () { p with strLen := 0, strPos := 0 }
  rw [whileList_eq fun c => c = 0x20 || c = 0x09] at heq hrest
  change _ = (_, (p.rest.dropWhile isBlank).head?, p') at heq
  change _ = (p.rest.dropWhile isBlank).tail at hrest
  have hsplit : p.rest = p.rest.takeWhile isBlank ++ p.rest.dropWhile isBlank :=
    List.takeWhile_append_dropWhile.symm
  have hnone : (p.rest.takeWhile isBlank).count newline = 0 := count_newline_eq_zero (by
    rintro c hc rfl
    exact absurd (List.mem_takeWhile_imp hc) (by decide))
  have hfirst := Reads.of_counted hsplit hrest hsame.lineNumber hnone
  have hblank := Reads.of_missed hsplit hrest hsame.lineNumber hnone
  rw [readString, heq]
  cases htext : p.rest.dropWhile isBlank with
  | nil =>
    rw [htext] at hblank
    exact hblank
  | cons first text =>
    rw [htext] at hfirst hblank hrest
    simp only [List.head?_cons, Option.some.injEq] at hfirst hblank ⊢
    by_cases heol : first ≠ newline ∧ first ≠ carriageReturn
    · rw [if_pos heol]
      obtain ⟨p'', heq', hrest', hsame'⟩ := whileNext_spec
        (fun _ c => c ≠ newline && c ≠ carriageReturn)
        (fun (str : Bytes.Memory × ℕ) c =>
          if str.2 < 31 then (Function.update str.1 str.2 c, str.2 + 1) else str)
        (Function.update p'.currentStr p'.strLen first, p'.strLen + 1) p'
      simp only [not_isEol] at heq' hrest' ⊢
      rw [whileList_eq fun c => !isEol c] at heq' hrest'
      rw [heq']
      have hblank' : Reads 0 p p' := by simpa [heol.1] using hblank
      have hline : (p'.rest.takeWhile fun c => !isEol c).count newline = 0 :=
        count_newline_eq_zero (by
          rintro c hc rfl
          exact absurd (List.mem_takeWhile_imp hc) (by decide))
      simp only
      generalize List.foldl _ _ (p'.rest.takeWhile fun c => !isEol c) = str
      have hstored : rest { p'' with currentStr := str.1, strLen := str.2 } = _ := hrest'
      exact hblank'.trans (.of_counted List.takeWhile_append_dropWhile.symm hstored
        hsame'.lineNumber hline)
    · rw [if_neg heol]
      exact hfirst

theorem readNumber_reads (p : MacroParser σ) :
    Reads (numberMisses p.rest).toNat p p.readNumber.2 := by
  obtain ⟨p', heq, hrest, -⟩ := p.skipWhitespace_spec
  have hskip := p.skipWhitespace_reads
  rw [heq] at hskip
  rw [readNumber, heq, numberMisses]
  cases htext : p.rest.dropWhile isspace with
  | nil => exact hskip
  | cons first text =>
    rw [htext, List.tail_cons] at hrest
    subst hrest
    obtain ⟨p'', heq', hrest', hsame⟩ := whileNext_spec
      (fun (num : List UInt8) c => decide (num.length < 9) && isdigit c)
      (fun num c => num ++ [c]) [first] p'
    have hsplit := take_takeWhile_append_drop isdigit 8 p'.rest
    have hnone : ((p'.rest.takeWhile isdigit).take 8).count newline = 0 :=
      count_newline_eq_zero (not_newline_of_mem_take rfl)
    rw [whileList_push isdigit] at heq' hrest'
    simp only [List.length_singleton, List.singleton_append, Nat.reduceSub] at heq' hrest'
    simp only [List.head?_cons]
    rw [heq', ← Nat.zero_add (Bool.toNat _)]
    rw [← List.tail_drop] at hrest'
    exact hskip.trans (.of_missed hsplit hrest' hsame.lineNumber hnone)

/-- A call counts the newlines that it takes, but for those that it misses. -/
theorem macroParserNextEvent_reads (p : MacroParser σ) :
    Reads p.missed p p.macroParserNextEvent.2 := by
  rw [macroParserNextEvent, missed]
  by_cases hlt : p.strPos < p.strLen
  · rw [if_pos hlt, if_pos hlt]
    exact .refl p
  rw [if_neg hlt, if_neg hlt]
  obtain ⟨p₁, heq₁, hrest₁, -⟩ := p.skipWhitespace_spec
  have hskip := p.skipWhitespace_reads
  rw [heq₁] at hskip ⊢
  cases htext : p.rest.dropWhile isspace with
  | nil => exact hskip
  | cons first text =>
    rw [htext, List.tail_cons] at hrest₁
    subst hrest₁
    obtain ⟨p₂, heq₂, hrest₂, -⟩ := readWord_spec first p₁
    have hword := readWord_reads first p₁
    rw [heq₂] at hword
    simp only [List.head?_cons, heq₂, commandMisses]
    have hread : Reads (tokenMisses first p₁.rest).toNat p p₂ := by
      simpa using hskip.trans hword
    by_cases hstring : cString (macroWord first p₁.rest) = ascii "STRING"
    · have hother : ¬ascii "STRING" = ascii "DELAY" := by decide
      have hline := hread.trans p₂.readString_reads
      rw [if_pos hstring, hstring, decide_eq_false hother, Bool.false_and, Bool.toNat_false]
      split_ifs
      · exact hline
      · exact hline
    rw [if_neg hstring]
    by_cases hdelay : cString (macroWord first p₁.rest) = ascii "DELAY"
    · rw [if_pos hdelay, decide_eq_true hdelay, Bool.true_and, ← hrest₂]
      exact hread.trans p₂.readNumber_reads
    · rw [if_neg hdelay, decide_eq_false hdelay, Bool.false_and, Bool.toNat_false]
      split_ifs
      · exact hread
      · exact hread

end MacroParser

/-! ## Every call -/

variable {file : σ} {n k : ℕ}

theorem parserAfter_succ (file : σ) (n : ℕ) :
    parserAfter file (n + 1) = (parserAfter file n).macroParserNextEvent.2 :=
  Generator.state_succ _ _ _

/-- The characters taken are those before the ones that are still to read. -/
theorem taken_append_rest (file : σ) (n : ℕ) :
    taken file n ++ (parserAfter file n).rest = MacroSource.rest file := by
  have hsuffix : (parserAfter file n).rest <:+ MacroSource.rest file := by
    induction n with
    | zero => exact List.suffix_refl _
    | succ n ih =>
      obtain ⟨piece, hpiece, -⟩ := (parserAfter file n).macroParserNextEvent_reads
      rw [parserAfter_succ]
      exact List.IsSuffix.trans ⟨piece, hpiece.symm⟩ ih
  exact List.suffix_iff_eq_append.1 hsuffix

/-- One call more. -/
theorem taken_succ (file : σ) (n : ℕ) : ∃ piece, taken file (n + 1) = taken file n ++ piece ∧
    (parserAfter file (n + 1)).lineNumber + UInt32.ofNat (parserAfter file n).missed =
      (parserAfter file n).lineNumber + UInt32.ofNat (piece.count newline) := by
  obtain ⟨piece, hpiece, hline⟩ := (parserAfter file n).macroParserNextEvent_reads
  rw [← parserAfter_succ] at hpiece hline
  refine ⟨piece, ?_, hline⟩
  have hboth := (taken_append_rest file (n + 1)).trans (taken_append_rest file n).symm
  rw [hpiece, ← List.append_assoc] at hboth
  exact List.append_cancel_right hboth

theorem count_taken_mono (file : σ) : Monotone fun n => (taken file n).count newline := by
  refine monotone_nat_of_le_succ fun n => ?_
  obtain ⟨piece, htaken, -⟩ := taken_succ file n
  rw [htaken, List.count_append]
  exact Nat.le_add_right _ _

theorem missed_le (p : MacroParser σ) : p.missed ≤ 2 := by
  rw [MacroParser.missed]
  split_ifs
  · exact Nat.zero_le _
  · split
    · exact Nat.zero_le _
    · exact Nat.add_le_add (Bool.toNat_le _) (Bool.toNat_le _)

theorem LineNumbered.lineNumber_eq (h : LineNumbered file n) :
    (parserAfter file n).lineNumber = UInt32.ofNat (1 + (taken file n).count newline) := by
  rw [← h, UInt32.ofNat_toNat]

/-- A newline missed is missing in the line number. -/
theorem missed_eq_zero_of_lineNumbered (h : LineNumbered file n)
    (hsucc : LineNumbered file (n + 1)) : (parserAfter file n).missed = 0 := by
  obtain ⟨piece, htaken, hline⟩ := taken_succ file n
  have hcount : (parserAfter file n).lineNumber + UInt32.ofNat (piece.count newline) =
      (parserAfter file (n + 1)).lineNumber := by
    rw [h.lineNumber_eq, hsucc.lineNumber_eq, htaken, List.count_append, ← Nat.add_assoc,
      ← UInt32.ofNat_add]
  rw [hcount] at hline
  have hzero : UInt32.ofNat (parserAfter file n).missed = 0 := left_eq_add.1 hline.symm
  have hle := missed_le (parserAfter file n)
  have hnum := congrArg UInt32.toNat hzero
  rwa [UInt32.toNat_ofNat_of_lt' (Nat.lt_of_le_of_lt hle (by decide)), UInt32.toNat_zero] at hnum

/-- The line number, when no newline was missed. -/
theorem lineNumber_eq_of_missed (h : ∀ k < n, (parserAfter file k).missed = 0) :
    (parserAfter file n).lineNumber = UInt32.ofNat (1 + (taken file n).count newline) := by
  induction n with
  | zero =>
    have hnone : taken file 0 = [] := List.append_cancel_right (taken_append_rest file 0)
    rw [hnone]
    rfl
  | succ n ih =>
    obtain ⟨piece, htaken, hline⟩ := taken_succ file n
    rw [h n (Nat.lt_succ_self n)] at hline
    calc (parserAfter file (n + 1)).lineNumber
        = (parserAfter file n).lineNumber + UInt32.ofNat (piece.count newline) := by
          rw [← hline]
          exact (add_zero _).symm
      _ = UInt32.ofNat (1 + (taken file (n + 1)).count newline) := by
          rw [ih fun k hk => h k (Nat.lt_succ_of_lt hk), htaken, List.count_append,
            ← Nat.add_assoc, ← UInt32.ofNat_add]

/-- The line number is right after each of the first `n` calls if and only if none of these misses
    a newline, and the number fits. -/
theorem lineNumbers_iff (file : σ) (n : ℕ) : (∀ k ≤ n, LineNumbered file k) ↔
    (∀ k < n, (parserAfter file k).missed = 0) ∧ 1 + (taken file n).count newline < 2 ^ 32 := by
  constructor
  · intro h
    constructor
    · intro k hk
      exact missed_eq_zero_of_lineNumbered (h k (Nat.le_of_lt hk)) (h (k + 1) hk)
    · rw [← h n (Nat.le_refl n)]
      exact UInt32.toNat_lt _
  · rintro ⟨hmissed, hfits⟩ k hk
    have hcount : 1 + (taken file k).count newline < 2 ^ 32 :=
      Nat.lt_of_le_of_lt (Nat.add_le_add_left (count_taken_mono file hk) 1) hfits
    rw [LineNumbered,
      lineNumber_eq_of_missed fun j hj => hmissed j (Nat.lt_of_lt_of_le hj hk),
      UInt32.toNat_ofNat_of_lt' hcount]

/-- The number fits for a file of the file system: the newlines are those of a sector. -/
theorem newlines_openFile_lt (w : SizeT) (f : OpenFile) (n : ℕ) :
    1 + (@taken OpenFile (OpenFile.source w) f n).count newline < 2 ^ 32 := by
  have hcount : (@taken OpenFile (OpenFile.source w) f n).count newline ≤ f.rest.length :=
    (List.count_le_length).trans (List.take_prefix _ _).length_le
  have hlength : f.rest.length ≤ sectorSize := by
    rw [OpenFile.rest, List.length_drop, Vfs.length_content]
    exact (Nat.sub_le _ _).trans (f.inv.slot _).sizeBytes
  have hsector : 1 + sectorSize < 2 ^ 32 := by decide
  omega

/-- The newline after a `DELAY` is taken with its number. -/
theorem delay_not_lineNumbered : ¬∀ k ≤ 1, LineNumbered (ascii "DELAY 1\n") k := by
  intro h
  have hzero := missed_eq_zero_of_lineNumbered (h 0 (Nat.zero_le 1)) (h 1 (Nat.le_refl 1))
  have hone : (parserAfter (ascii "DELAY 1\n") 0).missed = 1 := by decide +kernel
  rw [hone] at hzero
  exact absurd hzero (by decide)

end SliverOS
