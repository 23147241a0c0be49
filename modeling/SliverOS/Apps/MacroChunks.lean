import SliverOS.Apps.MacroText
import SliverOS.Streams.Generator

/-!
# Chunks of a macro file

`macro_parser_next_event` refills its buffer wherever it is in a command, from a file that
may be read in chunks of any lengths (`ChunkedFile`). What it returns is read from the text
alone: the events of the last command that are still to come, and the text after it
(`MacroReader`), are all that a call depends on (`MacroParser.next_reader`).

So the events of repeated calls depend on the content of the file only. There are at most as
many before the end of the file as there are characters in it, and after it there are no
more (`callEvent_chunks`). If reads fail (`FailingFile`), the content is what has been read
before, which may end inside a command.
-/

namespace SliverOS

open Streams

/-! ## Readers -/

/-- What there is still to read of a macro: the events of the last command, and the text. -/
structure MacroReader where
  queued : List MacroEvent
  text : List UInt8

/-- The next event is one of the last command, or the first of the next command, if it has
    any. -/
def MacroReader.next : Generator MacroReader MacroEvent
  | ⟨e :: queued, text⟩ => (e, ⟨queued, text⟩)
  | ⟨[], text⟩ =>
    match text.dropWhile isspace with
    | [] => (.ofType .eof, ⟨[], []⟩)
    | first :: text =>
      ((command first text).1.headD (.ofType .none),
        ⟨(command first text).1.tail, (command first text).2⟩)

namespace MacroParser

variable {σ : Type} [MacroSource σ]

/-- What a parser has still to read. -/
def reader (p : MacroParser σ) : MacroReader := ⟨p.pending.map .stringChar, p.rest⟩

/-- `macro_parser_next_event` reads on, whatever is in the buffer. -/
theorem next_reader (p : MacroParser σ) :
    p.reader.next = (p.macroParserNextEvent.1, p.macroParserNextEvent.2.reader) := by
  rw [reader]
  by_cases hlt : p.strPos < p.strLen
  · rw [pending_of_lt hlt, macroParserNextEvent, if_pos hlt]
    rfl
  have hlen := Nat.le_of_not_lt hlt
  rw [pending_of_le hlen, List.map_nil, MacroReader.next]
  cases htext : p.rest.dropWhile isspace with
  | nil =>
    obtain ⟨p', heq, hpending, hrest⟩ := macroParserNextEvent_of_nil hlen htext
    rw [heq, reader, hpending, hrest]
    rfl
  | cons first text =>
    obtain ⟨p', heq, hpending, hrest⟩ := macroParserNextEvent_of_cons hlen htext
    rw [heq, reader, hpending, hrest]

/-- Once the end of the file is found, every call finds it. -/
theorem item_eof {p : MacroParser σ} {n k : ℕ}
    (hn : (Generator.item macroParserNextEvent p n).type = .eof) (hk : n ≤ k) :
    (Generator.item macroParserNextEvent p k).type = .eof :=
  Generator.item_of_le (g := macroParserNextEvent) (Q := fun e : MacroEvent => e.type = .eof)
    (fun _ => macroParserNextEvent_eof) hn hk

end MacroParser

/-! ## Repeated calls -/

section Calls

variable {σ : Type} [MacroSource σ]

/-- The parser after `n` calls of `macro_parser_next_event`, on a file that is read from its
    start. -/
def parserAfter (file : σ) (n : ℕ) : MacroParser σ :=
  Generator.state MacroParser.macroParserNextEvent (macroParserInit file) n

/-- The event of the call after these. -/
def callEvent (file : σ) (n : ℕ) : MacroEvent := (parserAfter file n).macroParserNextEvent.1

/-- The events depend on the text of the file only. -/
theorem callEvent_eq (file : σ) (n : ℕ) : callEvent file n =
    Generator.item MacroReader.next ⟨[], MacroSource.rest file⟩ n :=
  (Generator.item_eq_of_view MacroParser.reader MacroParser.next_reader _ n).symm

/-- The end of the file is found after at most as many other events as it has characters, and
    again by every later call. -/
theorem exists_callEvent_eof (file : σ) : ∃ n ≤ (MacroSource.rest file).length,
    (∀ k < n, (callEvent file k).type ≠ .eof) ∧ ∀ k, n ≤ k → (callEvent file k).type = .eof := by
  -- Every other event takes a character, of the file or of a `STRING`.
  have hstep : ∀ p : MacroParser σ, p.macroParserNextEvent.1.type ≠ .eof →
      p.macroParserNextEvent.2.pending.length + p.macroParserNextEvent.2.rest.length <
        p.pending.length + p.rest.length := by
    intro p htype
    obtain ⟨e, p', heq, ⟨heof, -⟩ | ⟨-, -, hlt⟩⟩ := p.macroParserNextEvent_spec
    · rw [heq] at htype
      exact absurd heof htype
    · rwa [heq]
  obtain ⟨n, hn, heof, hbefore⟩ := Generator.exists_first (g := MacroParser.macroParserNextEvent)
    (Q := fun e : MacroEvent => e.type = .eof)
    (fun p : MacroParser σ => p.pending.length + p.rest.length) hstep (macroParserInit file)
  have hlength : (macroParserInit file).pending.length + (macroParserInit file).rest.length =
      (MacroSource.rest file).length := Nat.zero_add _
  rw [hlength] at hn
  exact ⟨n, hn, hbefore, fun k hk => MacroParser.item_eof heof hk⟩

/-- The calls until the end of the file return the events of the file. -/
theorem mem_events_iff {p : MacroParser σ} {e : MacroEvent} (he : e.type ≠ .eof) :
    e ∈ p.events ↔ ∃ n, Generator.item MacroParser.macroParserNextEvent p n = e := by
  induction p using MacroParser.events.induct with
  | case1 p htype =>
    rw [MacroParser.events, dif_pos htype]
    refine iff_of_false List.not_mem_nil ?_
    rintro ⟨n, hn⟩
    refine he ?_
    rw [← hn]
    exact MacroParser.item_eof (n := 0) htype (Nat.zero_le n)
  | case2 p htype ih =>
    rw [MacroParser.events, dif_neg htype, List.mem_cons, ih]
    constructor
    · rintro (rfl | ⟨n, hn⟩)
      · exact ⟨0, rfl⟩
      · exact ⟨n + 1, hn⟩
    · rintro ⟨n, hn⟩
      cases n with
      | zero => exact .inl hn.symm
      | succ n => exact .inr ⟨n, hn⟩

/-- Those that do something are the events of the text. -/
theorem exists_callEvent_iff (file : σ) {e : MacroEvent} (he : e.Visible) :
    (∃ n, callEvent file n = e) ↔ e ∈ macroEvents (MacroSource.rest file) := by
  rw [← emitted_eq, emitted, List.mem_filter, mem_events_iff he.1]
  simp only [he, decide_true, and_true]
  exact Iff.rfl

end Calls

/-- The events of a file of the file system are those of the text in it. -/
theorem callEvent_openFile (w : SizeT) (f : OpenFile) (n : ℕ) :
    @callEvent OpenFile (OpenFile.source w) f n = callEvent f.rest n :=
  (@callEvent_eq OpenFile (OpenFile.source w) f n).trans (callEvent_eq f.rest n).symm

/-! ## Chunks -/

/-- A file that is read in some chunks that are not empty and fit in the buffer, and then in
    empty ones. -/
structure ChunkedFile where
  chunks : List (List UInt8)
  ne_nil : ∀ chunk ∈ chunks, chunk ≠ []
  length_le : ∀ chunk ∈ chunks, chunk.length ≤ macroBufferSize

namespace ChunkedFile

/-- The characters of the file. -/
def content (f : ChunkedFile) : List UInt8 := f.chunks.flatten

/-- The next chunk. -/
def read : ChunkedFile → Except MkStatus (List UInt8) × ChunkedFile
  | ⟨[], h, hlen⟩ => (.ok [], ⟨[], h, hlen⟩)
  | ⟨chunk :: chunks, h, hlen⟩ => (.ok chunk, ⟨chunks, (List.forall_mem_cons.1 h).2,
      (List.forall_mem_cons.1 hlen).2⟩)

instance : MacroSource ChunkedFile where
  read := read
  rest := content
  readsOff
    | ⟨[], _, _⟩ => ⟨Nat.zero_le _, rfl, fun _ => rfl⟩
    | ⟨_ :: _, h, hlen⟩ => ⟨(List.forall_mem_cons.1 hlen).1, rfl,
        fun hnil => absurd hnil (List.forall_mem_cons.1 h).1⟩

/-- The events of a file do not depend on the chunks it is read in: they are those of its
    content, read in chunks as long as the buffer. -/
theorem callEvent_chunks (f : ChunkedFile) : (∀ n, callEvent f n = callEvent f.content n) ∧
    ∃ n ≤ f.content.length, (∀ k < n, (callEvent f k).type ≠ .eof) ∧
      ∀ k, n ≤ k → (callEvent f k).type = .eof :=
  ⟨fun n => (callEvent_eq f n).trans (callEvent_eq f.content n).symm, exists_callEvent_eof f⟩

/-- An `ENTER` in two chunks. -/
def splitEnter : ChunkedFile := ⟨[ascii "ENT", ascii "ER\n"], by decide, by decide⟩

example : callEvent splitEnter 0 = .enter ∧ (callEvent splitEnter 1).type = .eof := by
  decide +kernel

end ChunkedFile

/-! ## Failures -/

/-- A file of which some reads fail, those that `fails` says; all others are those of `file`. -/
structure FailingFile (σ : Type) where
  file : σ
  fails : List Bool

namespace FailingFile

variable {σ : Type} [MacroSource σ]

/-- The next read. -/
def read : FailingFile σ → Except MkStatus (List UInt8) × FailingFile σ
  | ⟨file, []⟩ => ((MacroSource.read file).1, ⟨(MacroSource.read file).2, []⟩)
  | ⟨file, true :: fails⟩ => (.error .error, ⟨file, fails⟩)
  | ⟨file, false :: fails⟩ => ((MacroSource.read file).1, ⟨(MacroSource.read file).2, fails⟩)

/-- The bytes up to the first read that fails. -/
def restFrom (file : σ) : List Bool → List UInt8
  | [] => MacroSource.rest file
  | true :: _ => []
  | false :: fails =>
    match (MacroSource.read file).1 with
    | .ok chunk => chunk ++ restFrom (MacroSource.read file).2 fails
    | .error _ => []

/-- They are the first ones of the file. -/
theorem restFrom_prefix (file : σ) (fails : List Bool) :
    restFrom file fails <+: MacroSource.rest file := by
  induction fails generalizing file with
  | nil => exact List.prefix_rfl
  | cons fail fails ih =>
    cases fail with
    | true => exact List.nil_prefix
    | false =>
      have hread := MacroSource.readsOff file
      have hrest := ih (MacroSource.read file).2
      rw [restFrom]
      generalize (MacroSource.read file).1 = result at hread ⊢
      cases result with
      | error e => exact List.nil_prefix
      | ok chunk =>
        obtain ⟨-, hsplit, -⟩ := hread
        rw [hsplit]
        exact (List.prefix_append_right_inj chunk).2 hrest

theorem readsOff_read : (f : FailingFile σ) →
    ReadsOff f.read.1 (restFrom f.file f.fails) (restFrom f.read.2.file f.read.2.fails)
  | ⟨file, []⟩ => MacroSource.readsOff file
  | ⟨_, true :: _⟩ => rfl
  | ⟨file, false :: fails⟩ => by
    have hread := MacroSource.readsOff file
    have hrest := restFrom_prefix (MacroSource.read file).2 fails
    simp only [read, restFrom]
    generalize (MacroSource.read file).1 = result at hread ⊢
    cases result with
    | error e => rfl
    | ok chunk =>
      obtain ⟨hlen, hsplit, hend⟩ := hread
      refine ⟨hlen, rfl, fun hnil => ?_⟩
      -- At the end of the file, there is nothing before a failure either.
      rw [hend hnil, hnil, List.nil_append] at hsplit
      rw [← hsplit] at hrest
      change chunk ++ restFrom _ fails = []
      rw [hnil, List.prefix_nil.1 hrest]
      rfl

instance : MacroSource (FailingFile σ) where
  read := read
  rest f := restFrom f.file f.fails
  readsOff := readsOff_read

/-- The text up to the first read that fails is the beginning of the text. -/
theorem rest_prefix (f : FailingFile σ) : MacroSource.rest f <+: MacroSource.rest f.file :=
  restFrom_prefix f.file f.fails

/-- The word `ENTERPRISE`, which is no command, with a failure inside. -/
def cutEnterprise : FailingFile ChunkedFile :=
  ⟨⟨[ascii "ENTER", ascii "PRISE"], by decide, by decide⟩, [false, true]⟩

/-- It is cut to a command. -/
example : MacroSource.rest cutEnterprise = ascii "ENTER" ∧
    callEvent cutEnterprise 0 = .enter ∧ (callEvent cutEnterprise 1).type = .eof := by
  decide +kernel

end FailingFile

end SliverOS
