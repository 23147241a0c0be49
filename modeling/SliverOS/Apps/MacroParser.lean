import SliverOS.Vfs.Splice

/-!
# The macro parser

`os/apps/ble_hid/macro_parser.c`: the events of a macro file, read through a
descriptor of the file system in chunks of `MACRO_BUFFER_SIZE` bytes. Pointers
passed are not `NULL`.

The file is anything that can be read so (`MacroSource`), such as the file that a
descriptor of a file system in order is open on (`OpenFile`). Whatever the chunks,
the characters are those of the file, one after the other (`getNextChar_spec`), and a
loop reading them stops at the same one (`whileNext_spec`). A read that fails is the
end of the file.
-/

namespace SliverOS

open Bytes

/-! ## Files -/

/-- `MACRO_BUFFER_SIZE`. -/
def macroBufferSize : ℕ := 64

/-- What a read of a file gives, of the bytes `text` that there are still to read, with those
    `after` it: a chunk is the first of them, and empty only at the end. A read that fails is
    the last one, and so there is nothing to read. -/
def ReadsOff (result : Except MkStatus (List UInt8)) (text after : List UInt8) : Prop :=
  match result with
  | .ok chunk => chunk.length ≤ macroBufferSize ∧ text = chunk ++ after ∧ (chunk = [] → text = [])
  | .error _ => text = []

/-- What can be read in chunks: `vfs_read` of `MACRO_BUFFER_SIZE` bytes, and the bytes that
    there are still to read, up to the end or to the first read that fails. -/
class MacroSource (σ : Type) where
  read : σ → Except MkStatus (List UInt8) × σ
  rest : σ → List UInt8
  readsOff : ∀ f, ReadsOff (read f).1 (rest f) (rest (read f).2)

/-- Chunks that are as long as the buffer, but for the last one. -/
theorem readsOff_take {text after : List UInt8} (h : after = text.drop macroBufferSize) :
    ReadsOff (.ok (text.take macroBufferSize)) text after := by
  refine ⟨List.length_take_le _ _, ?_, fun hnil => ?_⟩
  · rw [h, List.take_append_drop]
  · exact (List.take_eq_nil_iff.1 hnil).resolve_left (Nat.succ_ne_zero _)

/-- A text read from its start on. -/
instance : MacroSource (List UInt8) where
  read f := (.ok (f.take macroBufferSize), f.drop macroBufferSize)
  rest f := f
  readsOff _ := readsOff_take rfl

/-- A file system with a descriptor open. -/
structure OpenFile where
  vfs : Vfs
  fd : Fin 8
  inv : vfs.Inv
  isOpen : (vfs.openFiles fd).isOpen = true

namespace Vfs

variable {s : Vfs} {d : Fin 8}

/-- Reading moves the descriptor past the bytes read. -/
theorem snd_vfsRead (h : Inv s) (hopen : (s.openFiles d).isOpen = true) (w : SizeT) (n : ℕ) :
    ∃ cursor readBuf, (s.vfsRead w (d : ℕ) n).2 = { s with
        readBuf, openFiles := Function.update s.openFiles d { s.openFiles d with cursor } } ∧
      (s.cursor d + n < 2 ^ 32 → (s.content (s.file d)).drop cursor.toNat =
        ((s.content (s.file d)).drop (s.cursor d)).drop n) := by
  obtain ⟨cursor, readBuf, heq, hcursor⟩ := (h.readable hopen).snd_vfsRead w n
  refine ⟨cursor, readBuf, heq, fun hn => ?_⟩
  rw [hcursor fun _ => wrap_eq hn, drop_content_cursor]

end Vfs

namespace OpenFile

/-- The bytes of the file from the position of the descriptor on. -/
def rest (f : OpenFile) : List UInt8 :=
  (f.vfs.content (f.vfs.file f.fd)).drop (f.vfs.cursor f.fd)

/-- `vfs_read` leaves the descriptor open. -/
theorem isOpen_vfsRead (w : SizeT) (f : OpenFile) (n : ℕ) :
    ((f.vfs.vfsRead w (f.fd : ℕ) n).2.openFiles f.fd).isOpen = true := by
  obtain ⟨cursor, readBuf, heq, -⟩ := Vfs.snd_vfsRead f.inv f.isOpen w n
  simp only [heq, Function.update_self]
  exact f.isOpen

/-- `vfs_read` through the descriptor. -/
def read (w : SizeT) (f : OpenFile) : Except MkStatus (List UInt8) × OpenFile :=
  ((f.vfs.vfsRead w (f.fd : ℕ) macroBufferSize).1,
    ⟨(f.vfs.vfsRead w (f.fd : ℕ) macroBufferSize).2, f.fd,
      f.inv.vfsRead w (f.fd : ℕ) macroBufferSize, isOpen_vfsRead w f macroBufferSize⟩)

theorem cursor_add_lt (f : OpenFile) : f.vfs.cursor f.fd + macroBufferSize < 2 ^ 32 := by
  have hcursor := (f.inv.desc f.fd f.isOpen).2
  rw [Vfs.cursor]
  simp only [sectorSize] at hcursor
  rw [macroBufferSize]
  omega

theorem rest_read (w : SizeT) (f : OpenFile) : (f.read w).2.rest = f.rest.drop macroBufferSize := by
  obtain ⟨cursor, readBuf, heq, hrest⟩ := Vfs.snd_vfsRead f.inv f.isOpen w macroBufferSize
  rw [rest, rest, ← hrest f.cursor_add_lt]
  simp only [read, heq, Vfs.file, Vfs.cursor, Function.update_self]
  rfl

/-- A file of the file system, on a processor with a width of `size_t`. -/
@[reducible] def source (w : SizeT) : MacroSource OpenFile where
  read := read w
  rest := rest
  readsOff f := by
    have hread : (f.read w).1 = .ok (f.rest.take macroBufferSize) :=
      Vfs.vfsRead_eq f.inv f.isOpen f.cursor_add_lt
    rw [hread]
    exact readsOff_take (rest_read w f)

end OpenFile

/-! ## Characters -/

/-- `isspace`. -/
def isspace (c : UInt8) : Bool := c = 0x20 || (0x09 ≤ c && c ≤ 0x0D)

/-- `isdigit`. -/
def isdigit (c : UInt8) : Bool := 0x30 ≤ c && c ≤ 0x39

/-- `'\\n'`. -/
def newline : UInt8 := 0x0A

/-- `'\\r'`. -/
def carriageReturn : UInt8 := 0x0D

/-- `atoi`. -/
def atoi (num : List UInt8) : ℤ :=
  let value (digits : List UInt8) : ℕ :=
    (digits.takeWhile isdigit).foldl (fun v c => 10 * v + (c.toNat - 0x30)) 0
  match (cString num).dropWhile isspace with
  | 0x2D :: digits => -value digits
  | 0x2B :: digits => value digits
  | digits => value digits

/-! ## Events -/

/-- `macro_cmd_type_t`. -/
inductive MacroCmdType
  | none
  | key
  | stringChar
  | delay
  | enter
  | eof
  | error
  deriving DecidableEq

/-- `macro_event_t`. -/
structure MacroEvent where
  type : MacroCmdType
  modifier : UInt8
  keycode : UInt8
  delayMs : UInt32
  ch : UInt8
  deriving DecidableEq

namespace MacroEvent

/-- An event cleared by `macro_parser_next_event`, with its type set. -/
def ofType (type : MacroCmdType) : MacroEvent := ⟨type, 0, 0, 0, 0⟩

/-- `char_to_hid`: the keycode and the modifier. -/
def charToHid (c : UInt8) : UInt8 × UInt8 :=
  if 0x61 ≤ c ∧ c ≤ 0x7A then (0x04 + (c - 0x61), 0x00)
  else if 0x41 ≤ c ∧ c ≤ 0x5A then (0x04 + (c - 0x41), 0x02)
  else if c = 0x20 then (0x2C, 0x00)
  else if c = newline ∨ c = carriageReturn then (0x28, 0x00)
  else (0x00, 0x00)

/-- The event of a character of a `STRING`. -/
def stringChar (ch : UInt8) : MacroEvent where
  type := .stringChar
  modifier := (charToHid ch).2
  keycode := (charToHid ch).1
  delayMs := 20
  ch

/-- The event of a `DELAY`. -/
def delay (num : List UInt8) : MacroEvent :=
  { ofType .delay with delayMs := UInt32.ofInt (atoi num) }

/-- The event of an `ENTER`. -/
def enter : MacroEvent where
  type := .enter
  modifier := 0x00
  keycode := 0x28
  delayMs := 50
  ch := 0

/-- The events of a macro, which do something. -/
def Visible (e : MacroEvent) : Prop := e.type ≠ .eof ∧ e.type ≠ .none

instance (e : MacroEvent) : Decidable e.Visible := inferInstanceAs (Decidable (_ ∧ _))

end MacroEvent

/-! ## The parser -/

/-- `macro_parser_t`: instead of the descriptor, there is the file that it is open on. -/
structure MacroParser (σ : Type) where
  file : σ
  buffer : Memory
  bufLen : ℕ
  bufPos : ℕ
  eofReached : Bool
  lineNumber : UInt32
  currentStr : Memory
  strPos : ℕ
  strLen : ℕ

/-- `macro_parser_init`. -/
def macroParserInit {σ : Type} (file : σ) : MacroParser σ where
  file
  buffer := fun _ => 0
  bufLen := 0
  bufPos := 0
  eofReached := false
  lineNumber := 1
  currentStr := fun _ => 0
  strPos := 0
  strLen := 0

namespace MacroParser

variable {σ : Type}

/-- Only characters were read: the rest of the parser is the same. -/
structure Same (p p' : MacroParser σ) : Prop where
  lineNumber : p'.lineNumber = p.lineNumber
  currentStr : p'.currentStr = p.currentStr
  strPos : p'.strPos = p.strPos
  strLen : p'.strLen = p.strLen

theorem Same.refl (p : MacroParser σ) : Same p p := ⟨rfl, rfl, rfl, rfl⟩

theorem Same.trans {p p' p'' : MacroParser σ} (h : Same p p') (h' : Same p' p'') : Same p p'' :=
  ⟨h'.lineNumber.trans h.lineNumber, h'.currentStr.trans h.currentStr, h'.strPos.trans h.strPos,
    h'.strLen.trans h.strLen⟩

variable [MacroSource σ] (p : MacroParser σ)

/-- `refill_buffer`. -/
def refillBuffer : Bool × MacroParser σ :=
  if p.eofReached then (false, p)
  else
    let (result, file) := MacroSource.read p.file
    match result with
    | .ok (b :: bytes) =>
      (true, { p with
        file
        buffer := blit p.buffer 0 (b :: bytes)
        bufLen := (b :: bytes).length
        bufPos := 0 })
    | _ => (false, { p with file, eofReached := true, bufLen := 0, bufPos := 0 })

/-- `get_next_char`. -/
def getNextChar : Option UInt8 × MacroParser σ :=
  if p.bufLen ≤ p.bufPos then
    match p.refillBuffer with
    | (false, p) => (none, p)
    | (true, p) => (some (p.buffer p.bufPos), { p with bufPos := p.bufPos + 1 })
  else (some (p.buffer p.bufPos), { p with bufPos := p.bufPos + 1 })

/-- The characters that `get_next_char` is going to return: those in the buffer, and then
    those of the file. -/
def rest : List UInt8 :=
  slice p.buffer p.bufPos (p.bufLen - p.bufPos) ++
    if p.eofReached then [] else MacroSource.rest p.file

variable {p}

/-- A character in the buffer is the next one. -/
theorem rest_of_lt (h : p.bufPos < p.bufLen) :
    p.rest = p.buffer p.bufPos :: rest { p with bufPos := p.bufPos + 1 } := by
  obtain ⟨n, hn⟩ := Nat.exists_eq_add_of_lt h
  have hlen : p.bufLen - p.bufPos = 1 + n := by omega
  have hlen' : p.bufLen - (p.bufPos + 1) = n := by omega
  rw [rest, rest, hlen, hlen', slice_append]
  simp [slice]

/-- The buffer is filled again while there are characters in the file. -/
theorem refillBuffer_spec (h : p.bufLen ≤ p.bufPos) :
    (∃ p', p.refillBuffer = (false, p') ∧ p.rest = [] ∧ p'.rest = [] ∧ Same p p') ∨
      ∃ p', p.refillBuffer = (true, p') ∧ p'.rest = p.rest ∧ p'.bufPos < p'.bufLen ∧
        Same p p' := by
  have hempty : slice p.buffer p.bufPos (p.bufLen - p.bufPos) = [] := by
    rw [Nat.sub_eq_zero_of_le h]
    rfl
  rw [refillBuffer]
  by_cases heof : p.eofReached = true
  · -- The end was reached before.
    rw [if_pos heof]
    have hrest : p.rest = [] := by rw [rest, hempty, if_pos heof, List.append_nil]
    exact .inl ⟨p, rfl, hrest, hrest, .refl p⟩
  have hrest : p.rest = MacroSource.rest p.file := by
    rw [rest, hempty, if_neg heof, List.nil_append]
  have hread := MacroSource.readsOff p.file
  rw [if_neg heof]
  generalize MacroSource.read p.file = r at hread ⊢
  obtain ⟨result, file⟩ := r
  cases result with
  | error e =>
    -- Nothing of the file is read any more.
    refine .inl ⟨_, rfl, by rw [hrest, show MacroSource.rest p.file = [] from hread], ?_, rfl, rfl,
      rfl, rfl⟩
    simp [rest, slice]
  | ok chunk =>
    obtain ⟨-, hsplit, hend⟩ := hread
    cases chunk with
    | nil =>
      -- The chunk is empty, so that there is nothing left in the file.
      refine .inl ⟨_, rfl, by rw [hrest, hend rfl], ?_, rfl, rfl, rfl, rfl⟩
      simp [rest, slice]
    | cons b bytes =>
      refine .inr ⟨_, rfl, ?_, Nat.succ_pos _, rfl, rfl, rfl, rfl⟩
      rw [hrest, rest]
      simp only [Nat.sub_zero, heof, Bool.false_eq_true, if_false]
      rw [slice_blit_self, hsplit]

/-- The next character is the first of those that are still to read. -/
theorem getNextChar_spec (p : MacroParser σ) : p.getNextChar.1 = p.rest.head? ∧
    p.getNextChar.2.rest = p.rest.tail ∧ Same p p.getNextChar.2 := by
  rw [getNextChar]
  by_cases hlen : p.bufLen ≤ p.bufPos
  · rw [if_pos hlen]
    rcases refillBuffer_spec hlen with ⟨p', heq, hnil, hnil', hsame⟩ | ⟨p', heq, hrest, hlt, hsame⟩
    · rw [heq, hnil]
      exact ⟨rfl, hnil', hsame⟩
    · rw [heq, ← hrest, rest_of_lt hlt]
      exact ⟨rfl, rfl, hsame.trans ⟨rfl, rfl, rfl, rfl⟩⟩
  · rw [if_neg hlen, rest_of_lt (Nat.lt_of_not_le hlen)]
    exact ⟨rfl, rfl, rfl, rfl, rfl, rfl⟩

theorem length_rest_getNextChar {c : UInt8} (h : p.getNextChar.1 = some c) :
    p.getNextChar.2.rest.length < p.rest.length := by
  obtain ⟨hhead, htail, -⟩ := p.getNextChar_spec
  rw [h] at hhead
  rw [htail]
  cases hrest : p.rest with
  | nil =>
    rw [hrest] at hhead
    cases hhead
  | cons b bytes => simp

/-! ## Loops -/

/-- The loop `while ((c = get_next_char(p)) != -1 && cond) body`, of which `a` are the variables:
    these after it, and `c`. -/
def whileNext {α : Type} (cond : α → UInt8 → Bool) (body : α → UInt8 → α) (a : α)
    (p : MacroParser σ) : α × Option UInt8 × MacroParser σ :=
  match _h : p.getNextChar.1 with
  | none => (a, none, p.getNextChar.2)
  | some c =>
    if cond a c then whileNext cond body (body a c) p.getNextChar.2
    else (a, some c, p.getNextChar.2)
termination_by p.rest.length
decreasing_by exact length_rest_getNextChar _h

/-- The same loop over the characters of a list: the variables after it, the character that it
    stops at, and the characters after that one. -/
def whileList {α : Type} (cond : α → UInt8 → Bool) (body : α → UInt8 → α) (a : α) :
    List UInt8 → α × Option UInt8 × List UInt8
  | [] => (a, none, [])
  | c :: cs => if cond a c then whileList cond body (body a c) cs else (a, some c, cs)

/-- A loop stops at the same character whatever the chunks. -/
theorem whileNext_spec {α : Type} (cond : α → UInt8 → Bool) (body : α → UInt8 → α) (a : α)
    (p : MacroParser σ) : ∃ p',
      whileNext cond body a p =
        ((whileList cond body a p.rest).1, (whileList cond body a p.rest).2.1, p') ∧
      p'.rest = (whileList cond body a p.rest).2.2 ∧ Same p p' := by
  -- By induction on the number of characters that are still to read.
  induction hn : p.rest.length using Nat.strongRecOn generalizing a p with
  | ind n ih =>
    subst hn
    obtain ⟨hhead, htail, hsame⟩ := p.getNextChar_spec
    rw [whileNext]
    cases hrest : p.rest with
    | nil =>
      rw [hrest] at hhead htail
      split
      · exact ⟨_, rfl, htail, hsame⟩
      · next c hc =>
        rw [hc] at hhead
        cases hhead
    | cons c cs =>
      rw [hrest] at hhead htail
      split
      · next hc =>
        rw [hc] at hhead
        cases hhead
      · next c' hc =>
        rw [hc] at hhead
        cases hhead
        rw [whileList]
        by_cases hcond : cond a c = true
        · rw [if_pos hcond, if_pos hcond]
          obtain ⟨p', heq, hafter, hsame'⟩ := ih _ (length_rest_getNextChar hc) (body a c)
            p.getNextChar.2 rfl
          rw [htail] at heq hafter
          exact ⟨p', heq, hafter, hsame.trans hsame'⟩
        · rw [if_neg hcond, if_neg hcond]
          exact ⟨_, rfl, htail, hsame⟩

/-- A loop on the character alone. -/
theorem whileList_eq {α : Type} (q : UInt8 → Bool) (body : α → UInt8 → α) (a : α)
    (l : List UInt8) : whileList (fun _ c => q c) body a l =
      ((l.takeWhile q).foldl body a, (l.dropWhile q).head?, (l.dropWhile q).tail) := by
  induction l generalizing a with
  | nil => rfl
  | cons c cs ih =>
    rw [whileList]
    by_cases hc : q c = true
    · rw [if_pos hc, ih, List.takeWhile_cons_of_pos hc, List.dropWhile_cons_of_pos hc,
        List.foldl_cons]
    · rw [if_neg hc, List.takeWhile_cons_of_neg hc, List.dropWhile_cons_of_neg hc]
      rfl

/-- A loop filling an array with a place for `n` characters. -/
theorem whileList_push (q : UInt8 → Bool) (n : ℕ) (w l : List UInt8) :
    whileList (fun w c => decide (w.length < n) && q c) (fun w c => w ++ [c]) w l =
      (w ++ (l.takeWhile q).take (n - w.length),
        (l.drop ((l.takeWhile q).take (n - w.length)).length).head?,
        l.drop (((l.takeWhile q).take (n - w.length)).length + 1)) := by
  induction l generalizing w with
  | nil => simp [whileList]
  | cons c cs ih =>
    rw [whileList]
    by_cases hcond : w.length < n ∧ q c = true
    · obtain ⟨k, hk⟩ := Nat.exists_eq_add_of_lt hcond.1
      have hlen : n - w.length = k + 1 := by omega
      have hlen' : n - (w ++ [c]).length = k := by
        rw [List.length_append, List.length_singleton]
        omega
      rw [if_pos (by simpa using hcond), ih, hlen, hlen', List.takeWhile_cons_of_pos hcond.2]
      simp
    · -- The array is full, or the character is not taken.
      rw [if_neg (by simpa using hcond)]
      have hnone : ((c :: cs).takeWhile q).take (n - w.length) = [] := by
        rcases not_and_or.1 hcond with hfull | hc
        · rw [Nat.sub_eq_zero_of_le (Nat.le_of_not_lt hfull), List.take_zero]
        · rw [List.takeWhile_cons_of_neg hc, List.take_nil]
      simp [hnone]

/-! ## The next event -/

/-- The first loop of `macro_parser_next_event`, skipping white space: the character it
    stops at. -/
def skipWhitespace (p : MacroParser σ) : Option UInt8 × MacroParser σ :=
  let (line, c, p) := whileNext (fun _ c => isspace c)
    (fun line c => if c = newline then line + 1 else line) p.lineNumber p
  (c, { p with lineNumber := line })

/-- The loop reading the command token, of which the first character is read: `word`. -/
def readWord (first : UInt8) (p : MacroParser σ) : List UInt8 × MacroParser σ :=
  let (word, c, p) := whileNext (fun word c => word.length < 15 && !isspace c)
    (fun word c => word ++ [c]) [first] p
  -- A token of 15 characters is left before its end is looked at.
  (word, if c = some newline ∧ word.length < 15 then { p with lineNumber := p.lineNumber + 1 }
    else p)

/-- The rest of the line after `STRING`, read into `current_str`. -/
def readString (p : MacroParser σ) : MacroParser σ :=
  let p := { p with strLen := 0, strPos := 0 }
  let (_, c, p) := whileNext (fun _ c => c = 0x20 || c = 0x09) (fun _ _ => ()) () p
  match c with
  | none => p
  | some first =>
    if first ≠ newline ∧ first ≠ carriageReturn then
      let (str, c, p) := whileNext (fun _ c => c ≠ newline && c ≠ carriageReturn)
        (fun (str : Memory × ℕ) c =>
          if str.2 < 31 then (Function.update str.1 str.2 c, str.2 + 1) else str)
        (Function.update p.currentStr p.strLen first, p.strLen + 1) p
      let p := { p with currentStr := str.1, strLen := str.2 }
      if c = some newline then { p with lineNumber := p.lineNumber + 1 } else p
    else if first = newline then { p with lineNumber := p.lineNumber + 1 }
    else p

/-- The argument of `DELAY`: `num`. -/
def readNumber (p : MacroParser σ) : List UInt8 × MacroParser σ :=
  let (c, p) := p.skipWhitespace
  match c with
  | none => ([], p)
  | some first =>
    let (num, _, p) := whileNext (fun num c => num.length < 9 && isdigit c)
      (fun num c => num ++ [c]) [first] p
    (num, p)

/-- The next character of a `STRING`. -/
def nextStringChar (p : MacroParser σ) : MacroEvent × MacroParser σ :=
  (.stringChar (p.currentStr p.strPos), { p with strPos := p.strPos + 1 })

/-- `macro_parser_next_event`. -/
def macroParserNextEvent (p : MacroParser σ) : MacroEvent × MacroParser σ :=
  if p.strPos < p.strLen then p.nextStringChar
  else
    let (c, p) := p.skipWhitespace
    match c with
    | none => (.ofType .eof, p)
    | some first =>
      let (word, p) := p.readWord first
      if cString word = ascii "STRING" then
        let p := p.readString
        if 0 < p.strLen then p.nextStringChar else (.ofType .none, p)
      else if cString word = ascii "DELAY" then
        let (num, p) := p.readNumber
        (.delay num, p)
      else if cString word = ascii "ENTER" then (.enter, p)
      else (.ofType .none, p)

end MacroParser

end SliverOS
