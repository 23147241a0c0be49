import SliverOS.Flasher.FlashManager
import SliverOS.Flasher.Requests
import SliverOS.Streams.Slices

/-!
# Transfers

`FlashManager.flash` with what the manager keeps: whether it is flashing, and the progress that
it reports, less the rates and percentages, which are floating-point numbers. The callbacks of the
manager return.

A transfer is a list of steps, which are commands and reports (`flashImages_eq`). The commands
for an image announce it, carry it in blocks, and end it (`covers_requests`); the query for its
digest follows, and a failure of it is passed over. What is reported climbs to the size of the
images (`climbs_steps`).

* `transfers`: the transfer of any images, with a failure anywhere or nowhere.
-/

namespace SliverOS.Flasher

open Bytes Streams WebSerialPort

/-! ## The manager -/

/-- What `onProgress` is given. -/
structure Progress where
  imageIndex : ℕ
  imageName : String
  bytesTransferred : ℕ
  totalBytes : ℕ

/-- `FlashManager`, with the port of its loader and the reports made. -/
structure FlashManager where
  isFlashing : Bool
  port : WebSerialPort
  reports : List Progress

namespace FlashManager

/-- What the manager does, and may throw. -/
abbrev Flashing := EStateM Error FlashManager

/-- An `await` of the loader. -/
def await {α : Type} (x : Loader α) : Flashing α := fun m =>
  match x m.port with
  | .ok a port => .ok a { m with port }
  | .error e port => .error e { m with port }

/-- `onProgress`. -/
def onProgress (report : Progress) : Flashing Unit :=
  modify fun m => { m with reports := m.reports ++ [report] }

/-- The block of an image at an index. -/
def chunk (img : Image) (blockSize blockIdx : ℕ) : List UInt8 :=
  let start := blockIdx * blockSize
  let finish := min (start + blockSize) img.size
  (img.data.take finish).drop start

/-- The blocks of an image from one on, in the loop of `flash`: the bytes transferred then. -/
def flashBlocks (imgIdx totalBytes blockSize : ℕ) (img : Image) : List ℕ → ℕ → Flashing ℕ
  | [], bytesTransferred => return bytesTransferred
  | blockIdx :: rest, bytesTransferred => do
    let chunk := chunk img blockSize blockIdx
    await (flashData chunk blockIdx)
    let bytesTransferred := bytesTransferred + chunk.length
    onProgress ⟨imgIdx, img.name, bytesTransferred, totalBytes⟩
    flashBlocks imgIdx totalBytes blockSize img rest bytesTransferred

/-- The loop of `flash` over the images from one on. -/
def flashImages (totalBytes : ℕ) : ℕ → List Image → ℕ → Flashing Unit
  | _, [], _ => return ()
  | imgIdx, img :: imgs, bytesTransferred => do
    let blockSize := 4096
    let totalBlocks := blockCount img.size blockSize
    await (flashBegin img.size img.offset blockSize)
    let bytesTransferred ← flashBlocks imgIdx totalBytes blockSize img (List.range totalBlocks)
      bytesTransferred
    await (flashEnd false)
    let _ ← await (verifyFlashMD5 img.offset img.size none)
    flashImages totalBytes (imgIdx + 1) imgs bytesTransferred

/-- The size of the images. -/
def totalBytes (images : List Image) : ℕ := (images.map Image.size).sum

/-- `flash`. -/
def flash (images : List Image) : Flashing Bool := do
  if (← get).isFlashing then throw ⟨"Flash operation already in progress."⟩
  if images.length = 0 then throw ⟨"No images specified for flashing."⟩
  modify fun m => { m with isFlashing := true }
  try
    flashImages (totalBytes images) 0 images 0
    await hardReset
    pure true
  finally
    modify fun m => { m with isFlashing := false }

/-! ## Commands -/

/-- What is given to `sendCommand`. -/
structure Command where
  opcode : UInt8
  payload : List UInt8
  checksum : ℕ
  timeoutMs : ℕ

namespace Command

/-- The packet of a command. -/
def packet (c : Command) : List UInt8 := formatCommandPacket c.opcode c.payload c.checksum

/-- The command is sent, and a response to it read. -/
def send (c : Command) : Loader Unit := do
  let _ ← sendCommand c.opcode c.payload c.checksum c.timeoutMs

/-- A command that is part of a transfer; the others are queries. -/
def Flashes (c : Command) : Prop :=
  c.opcode = cmdFlashBegin ∨ c.opcode = cmdFlashData ∨ c.opcode = cmdFlashEnd

instance (c : Command) : Decidable c.Flashes := inferInstanceAs (Decidable (_ ∨ _ ∨ _))

/-- The command is sent. The failure of a query is passed over. -/
def issue (c : Command) : Loader Unit :=
  if c.Flashes then c.send else tryCatch c.send fun _ => return ()

/-- The command of `flashBegin`. -/
def flashBegin (img : Image) : Command where
  opcode := cmdFlashBegin
  payload := toLE 4 img.size ++ toLE 4 (blockCount img.size 4096) ++ toLE 4 4096 ++
    toLE 4 img.offset
  checksum := 0
  timeoutMs := max 5000 (blockCount img.size 32768 * 1000)

/-- The command of `flashData`. -/
def flashData (chunk : List UInt8) (seq : ℕ) : Command where
  opcode := cmdFlashData
  payload := toLE 4 chunk.length ++ toLE 4 seq ++ List.replicate 8 0 ++ chunk
  checksum := calcChecksum chunk
  timeoutMs := 3000

/-- The command of `flashEnd`. -/
def flashEnd : Command := ⟨cmdFlashEnd, [0, 0, 0, 0], 0, 2000⟩

/-- The command of `verifyFlashMD5`. -/
def verifyFlashMD5 (img : Image) : Command :=
  ⟨cmdSpiFlashMd5, md5Payload img.offset img.size, 0, 8000⟩

theorem issue_of_flashes {c : Command} (h : c.Flashes) : c.issue = c.send := if_pos h

/-- A query returns, whether it fails or not. -/
theorem issue_of_not_flashes {c : Command} (h : ¬c.Flashes) (p : WebSerialPort) :
    c.issue p = .ok () (after c.send p) := by
  rw [issue, if_neg h]
  cases hsend : c.send p with
  | ok u q =>
    rw [after_of_ok hsend]
    exact tryCatch_of_ok hsend _
  | error e q =>
    rw [after, hsend]
    exact tryCatch_of_error hsend _

/-- A command that succeeds has written its packet, and nothing else. -/
theorem written_of_send {c : Command} {p q : WebSerialPort} (h : c.send p = .ok () q) :
    q.written = p.written ++ [c.packet] := by
  obtain ⟨resp, r, hsend, hr⟩ := bind_eq_ok_iff.1 h
  obtain ⟨-, rfl⟩ := EStateM.Result.ok.inj hr
  obtain ⟨hexchange, -⟩ := sendCommand_eq_ok_iff.1 hsend
  obtain ⟨_, p', hwrite, hread⟩ := bind_eq_ok_iff.1 hexchange
  obtain ⟨raw, hraw, -⟩ := readPacket_eq_ok_iff.1 hread
  rw [written_of_readUntil hraw]
  exact (write_ok hwrite).2.2

/-- There is no digest for `verifyFlashMD5` to compare. -/
theorem verifyFlashMD5_eq_ok_after (img : Image) (p : WebSerialPort) :
    Flasher.verifyFlashMD5 img.offset img.size none p =
      .ok true (after (verifyFlashMD5 img).send p) := by
  rw [Flasher.verifyFlashMD5, send]
  cases hsend : sendCommand cmdSpiFlashMd5 (md5Payload img.offset img.size) 0 8000 p with
  | error e q =>
    rw [after, verifyFlashMD5, bind_of_error hsend]
    exact tryCatch_of_error (bind_of_error hsend) _
  | ok resp q =>
    rw [after, verifyFlashMD5, bind_of_ok hsend]
    refine tryCatch_of_ok ((bind_of_ok hsend).trans ?_) _
    have hsame : ¬((none : Option String).getD "" ≠ "" ∧
        (hexDigest (resp.payload.take 16)).toLower ≠ ((none : Option String).getD "").toLower) :=
      fun h => h.1 rfl
    dsimp only
    rw [if_neg hsame, ite_self]
    rfl

theorem issue_verifyFlashMD5 (img : Image) : (verifyFlashMD5 img).issue = (do
    let _ ← Flasher.verifyFlashMD5 img.offset img.size none) := by
  have hquery : ¬(verifyFlashMD5 img).Flashes := by
    simp only [Flashes, verifyFlashMD5]
    decide
  funext p
  rw [issue_of_not_flashes hquery]
  exact (bind_of_ok (f := fun _ => pure ()) (verifyFlashMD5_eq_ok_after img p)).symm

end Command

/-! ## Steps -/

/-- A command is issued, or progress is reported. -/
inductive Step
  | issue (c : Command)
  | report (r : Progress)

/-- A step of a transfer. -/
def Step.perform : Step → Flashing Unit
  | .issue c => await c.issue
  | .report r => onProgress r

theorem perform_flashBegin (img : Image) : (Step.issue (.flashBegin img)).perform =
    await (flashBegin img.size img.offset 4096) :=
  congrArg await (Command.issue_of_flashes (.inl rfl))

theorem perform_flashData (chunk : List UInt8) (seq : ℕ) :
    (Step.issue (.flashData chunk seq)).perform = await (flashData chunk seq) :=
  congrArg await (Command.issue_of_flashes (.inr (.inl rfl)))

theorem perform_flashEnd : (Step.issue .flashEnd).perform = await (flashEnd false) :=
  congrArg await (Command.issue_of_flashes (.inr (.inr rfl)))

theorem perform_verifyFlashMD5 (img : Image) : (Step.issue (.verifyFlashMD5 img)).perform = (do
    let _ ← await (verifyFlashMD5 img.offset img.size none)) := by
  rw [Step.perform, Command.issue_verifyFlashMD5]
  funext m
  obtain ⟨q, hverify⟩ := verifyFlashMD5_eq_ok img.offset img.size none m.port
  have hawait : await (verifyFlashMD5 img.offset img.size none) m =
      .ok true { m with port := q } := by
    rw [await, hverify]
  rw [bind_of_ok hawait, await, bind_of_ok hverify]
  rfl

/-- The steps for the blocks of an image from one on. -/
def blockSteps (imgIdx totalBytes : ℕ) (img : Image) : List ℕ → ℕ → List Step
  | [], _ => []
  | blockIdx :: rest, bytesTransferred =>
    let chunk := chunk img 4096 blockIdx
    let bytesTransferred := bytesTransferred + chunk.length
    .issue (.flashData chunk blockIdx) ::
      .report ⟨imgIdx, img.name, bytesTransferred, totalBytes⟩ ::
      blockSteps imgIdx totalBytes img rest bytesTransferred

/-- The bytes of some blocks of an image. -/
def blockBytes (img : Image) (blocks : List ℕ) : ℕ :=
  (blocks.map fun blockIdx => (chunk img 4096 blockIdx).length).sum

theorem add_blockBytes_cons (img : Image) (blockIdx : ℕ) (rest : List ℕ) (bytesTransferred : ℕ) :
    bytesTransferred + blockBytes img (blockIdx :: rest) =
      bytesTransferred + (chunk img 4096 blockIdx).length + blockBytes img rest := by
  rw [blockBytes, List.map_cons, List.sum_cons, blockBytes, Nat.add_assoc]

/-- The indices of the blocks of an image. -/
def blocks (img : Image) : List ℕ := List.range (blockCount img.size 4096)

/-- The steps for the images from one on. -/
def steps (totalBytes : ℕ) : ℕ → List Image → ℕ → List Step
  | _, [], _ => []
  | imgIdx, img :: imgs, bytesTransferred =>
    .issue (.flashBegin img) :: (blockSteps imgIdx totalBytes img (blocks img) bytesTransferred ++
      .issue .flashEnd :: .issue (.verifyFlashMD5 img) ::
        steps totalBytes (imgIdx + 1) imgs (bytesTransferred + blockBytes img (blocks img)))

theorem flashBlocks_eq (imgIdx totalBytes : ℕ) (img : Image) (blocks : List ℕ)
    (bytesTransferred : ℕ) :
    flashBlocks imgIdx totalBytes 4096 img blocks bytesTransferred = (do
      forM (blockSteps imgIdx totalBytes img blocks bytesTransferred) Step.perform
      return bytesTransferred + blockBytes img blocks) := by
  induction blocks generalizing bytesTransferred with
  | nil => rfl
  | cons blockIdx rest ih =>
    simp only [flashBlocks, blockSteps, ih, add_blockBytes_cons, List.forM_cons, bind_assoc,
      perform_flashData]
    rfl

theorem flashImages_eq (totalBytes imgIdx : ℕ) (imgs : List Image) (bytesTransferred : ℕ) :
    flashImages totalBytes imgIdx imgs bytesTransferred =
      forM (steps totalBytes imgIdx imgs bytesTransferred) Step.perform := by
  induction imgs generalizing imgIdx bytesTransferred with
  | nil => rfl
  | cons img imgs ih =>
    simp only [flashImages, steps, flashBlocks_eq, ih, List.forM_cons, List.forM_append,
      bind_assoc, pure_bind, perform_flashBegin, perform_flashEnd, perform_verifyFlashMD5]
    rfl

/-- The commands of some steps. -/
def issued (ss : List Step) : List Command :=
  ss.filterMap fun
    | .issue c => some c
    | .report _ => none

/-- The reports of some steps. -/
def reported (ss : List Step) : List Progress :=
  ss.filterMap fun
    | .issue _ => none
    | .report r => some r

section Run

variable {m : FlashManager} {ss ss' : List Step} {c : Command} {r : Progress}
  {p q : WebSerialPort} {e : Error}

@[simp] theorem issued_issue : issued (.issue c :: ss) = c :: issued ss := rfl

@[simp] theorem issued_report : issued (.report r :: ss) = issued ss := rfl

theorem issued_append : issued (ss ++ ss') = issued ss ++ issued ss' := List.filterMap_append

@[simp] theorem reported_issue : reported (.issue c :: ss) = reported ss := rfl

@[simp] theorem reported_report : reported (.report r :: ss) = r :: reported ss := rfl

theorem reported_append : reported (ss ++ ss') = reported ss ++ reported ss' :=
  List.filterMap_append

theorem perform_issue_of_ok (h : c.issue m.port = .ok () q) :
    (Step.issue c).perform m = .ok () { m with port := q } := by
  rw [Step.perform, await, h]

theorem perform_issue_of_error (h : c.issue m.port = .error e q) :
    (Step.issue c).perform m = .error e { m with port := q } := by
  rw [Step.perform, await, h]

theorem perform_report (m : FlashManager) (r : Progress) :
    (Step.report r).perform m = .ok () { m with reports := m.reports ++ [r] } := rfl

/-- All steps are done if the commands succeed. -/
theorem perform_of_ok (ss : List Step) (h : forM (issued ss) Command.issue m.port = .ok () q) :
    forM ss Step.perform m =
      .ok () { m with port := q, reports := m.reports ++ reported ss } := by
  induction ss generalizing m with
  | nil =>
    obtain ⟨-, rfl⟩ := EStateM.Result.ok.inj h
    rw [reported, List.filterMap_nil, List.append_nil]
    rfl
  | cons step ss ih =>
    rw [List.forM_cons]
    cases step with
    | issue c =>
      rw [issued_issue, List.forM_cons] at h
      obtain ⟨_, p, hc, hrest⟩ := bind_eq_ok_iff.1 h
      exact (bind_of_ok (perform_issue_of_ok hc)).trans (ih (m := { m with port := p }) hrest)
    | report r =>
      rw [issued_report] at h
      have hrest := ih (m := { m with reports := m.reports ++ [r] }) h
      refine (bind_of_ok (perform_report m r)).trans (hrest.trans ?_)
      rw [reported_report, List.append_assoc]
      rfl

/-- Steps are done up to the first command that fails. -/
theorem perform_of_error (ss : List Step) (h : forM (issued ss) Command.issue m.port = .error e q) :
    ∃ reports, reports <+: reported ss ∧ forM ss Step.perform m =
      .error e { m with port := q, reports := m.reports ++ reports } := by
  induction ss generalizing m with
  | nil => cases h
  | cons step ss ih =>
    rw [List.forM_cons]
    cases step with
    | issue c =>
      rw [issued_issue, List.forM_cons] at h
      cases hc : c.issue m.port with
      | error e' p =>
        obtain ⟨rfl, rfl⟩ := EStateM.Result.error.inj ((bind_of_error hc).symm.trans h)
        refine ⟨[], List.nil_prefix, bind_of_error ?_⟩
        rw [perform_issue_of_error hc, List.append_nil]
      | ok u p =>
        obtain ⟨reports, hpre, hrest⟩ :=
          ih (m := { m with port := p }) ((bind_of_ok hc).symm.trans h)
        exact ⟨reports, hpre, (bind_of_ok (perform_issue_of_ok hc)).trans hrest⟩
    | report r =>
      rw [issued_report] at h
      obtain ⟨reports, hpre, hrest⟩ := ih (m := { m with reports := m.reports ++ [r] }) h
      refine ⟨r :: reports, List.cons_prefix_cons.2 ⟨rfl, hpre⟩,
        (bind_of_ok (perform_report m r)).trans (hrest.trans ?_)⟩
      rw [List.append_assoc]
      rfl

end Run

/-! ## Commands of an image -/

/-- The commands that carry an image. -/
def blockCommands (img : Image) (blocks : List ℕ) : List Command :=
  blocks.map fun blockIdx => .flashData (chunk img 4096 blockIdx) blockIdx

/-- The commands for an image. -/
def commands (img : Image) : List Command :=
  .flashBegin img :: (blockCommands img (blocks img) ++ [.flashEnd, .verifyFlashMD5 img])

theorem issued_blockSteps (imgIdx totalBytes : ℕ) (img : Image) (blocks : List ℕ)
    (bytesTransferred : ℕ) :
    issued (blockSteps imgIdx totalBytes img blocks bytesTransferred) =
      blockCommands img blocks := by
  induction blocks generalizing bytesTransferred with
  | nil => rfl
  | cons blockIdx rest ih =>
    rw [blockSteps, issued_issue, issued_report, ih, blockCommands, blockCommands, List.map_cons]

theorem issued_steps (totalBytes imgIdx : ℕ) (imgs : List Image) (bytesTransferred : ℕ) :
    issued (steps totalBytes imgIdx imgs bytesTransferred) = imgs.flatMap commands := by
  induction imgs generalizing imgIdx bytesTransferred with
  | nil => rfl
  | cons img imgs ih =>
    rw [steps, issued_issue, issued_append, issued_blockSteps, issued_issue, issued_issue, ih,
      List.flatMap_cons, commands, List.cons_append, List.append_assoc]
    rfl

/-! ## Coverage -/

/-- The request in the packet of a command. -/
def Command.request (c : Command) : Request := .ofPacket c.packet

@[simp] theorem Command.opcode_request (c : Command) : c.request.opcode = c.opcode := by
  rw [request, packet, ofPacket_formatCommandPacket]

@[simp] theorem Command.payload_request (c : Command) : c.request.payload = c.payload := by
  rw [request, packet, ofPacket_formatCommandPacket]

/-- A request that announces an image in some blocks: its fields are the size, the number of
    blocks, the size of a block and the offset. -/
structure Announces (r : Request) (img : Image) (count : ℕ) : Prop where
  opcode : r.opcode = cmdFlashBegin
  fields : unpack [4, 4, 4, 4] r.payload = [img.size, count, 4096, img.offset]

/-- A request that carries a block with a sequence number. -/
structure Carries (r : Request) (seq : ℕ) (chunk : List UInt8) : Prop where
  opcode : r.opcode = cmdFlashData
  fields : unpack [4, 4] r.payload = [chunk.length, seq]
  chunk : r.payload.drop 16 = chunk

/-- Requests that cover an image: it is announced, carried in as many blocks as announced, and
    ended; and then there is a query for it. -/
def Covers (img : Image) (requests : List Request) : Prop :=
  ∃ (first : Request) (carriers : List Request) (last query : Request) (chunks : List (List UInt8)),
    requests = first :: (carriers ++ [last, query]) ∧
    Announces first img chunks.length ∧
    carriers.length = chunks.length ∧
    (∀ seq chunk, chunks[seq]? = some chunk →
      ∃ r, carriers[seq]? = some r ∧ Carries r seq chunk) ∧
    (∀ chunk ∈ chunks, chunk ≠ [] ∧ chunk.length ≤ 4096) ∧
    chunks.flatten = img.data ∧
    last.opcode = cmdFlashEnd ∧ query.opcode = cmdSpiFlashMd5

/-- An image of `FirmwareManager` that fits in the fields of a request. -/
structure Fits (img : Image) : Prop where
  size_eq : img.size = img.data.length
  size_lt : img.size < 2 ^ 32
  offset_lt : img.offset < 2 ^ 32

section Covers

variable {img : Image}

theorem blockCount_spec (size : ℕ) :
    size ≤ blockCount size 4096 * 4096 ∧ ∀ k < blockCount size 4096, k * 4096 < size := by
  constructor
  · rw [blockCount]
    omega
  · intro k hk
    rw [blockCount] at hk
    omega

/-- A block is what comes in the image from its start on. -/
theorem chunk_eq (himg : img.size = img.data.length) (blockIdx : ℕ) :
    chunk img 4096 blockIdx = (img.data.drop (blockIdx * 4096)).take 4096 := by
  rw [chunk, List.drop_take, himg]
  rcases Nat.le_total (blockIdx * 4096 + 4096) img.data.length with hle | hle
  · rw [Nat.min_eq_left hle, Nat.add_sub_cancel_left]
  · rw [Nat.min_eq_right hle, List.take_of_length_le (by simp),
      List.take_of_length_le (by simp; omega)]

/-- The blocks of an image. -/
def chunks (img : Image) : List (List UInt8) := (blocks img).map (chunk img 4096)

theorem chunks_eq (himg : img.size = img.data.length) :
    chunks img = (List.replicate (blockCount img.size 4096) 4096).splitLengths img.data := by
  rw [chunks, blocks, ← map_range_eq_splitLengths]
  exact List.map_congr_left fun k _ => chunk_eq himg k

theorem flatten_chunks (himg : img.size = img.data.length) : (chunks img).flatten = img.data := by
  rw [chunks_eq himg, flatten_splitLengths_eq_take, List.sum_replicate, smul_eq_mul]
  refine List.take_of_length_le ?_
  rw [← himg]
  exact (blockCount_spec img.size).1

theorem chunk_bounds (himg : img.size = img.data.length) {c : List UInt8} (hc : c ∈ chunks img) :
    c ≠ [] ∧ c.length ≤ 4096 := by
  obtain ⟨k, hk, rfl⟩ := List.mem_map.1 hc
  have hlt := (blockCount_spec img.size).2 k (List.mem_range.1 hk)
  rw [chunk_eq himg]
  refine ⟨?_, List.length_take_le _ _⟩
  intro hnil
  have hlen := congrArg List.length hnil
  rw [List.length_take, List.length_drop, ← himg, List.length_nil] at hlen
  omega

theorem length_chunks_lt (himg : Fits img) : (chunks img).length < 2 ^ 32 := by
  have hlt := himg.size_lt
  rw [chunks, List.length_map, blocks, List.length_range, blockCount]
  omega

/-- What fits in a field is read back. -/
theorem mod_field {v : ℕ} (h : v < 2 ^ 32) : v % 256 ^ 4 = v := Nat.mod_eq_of_lt h

theorem announces_flashBegin (himg : Fits img) :
    Announces (Command.flashBegin img).request img (chunks img).length := by
  have hcount : blockCount img.size 4096 = (chunks img).length := by
    rw [chunks, List.length_map, blocks, List.length_range]
  let fields := [(4, img.size), (4, (chunks img).length), (4, 4096), (4, img.offset)]
  have hpack : toLE 4 img.size ++ toLE 4 (chunks img).length ++ toLE 4 4096 ++ toLE 4 img.offset =
      pack fields := by
    simp [fields, pack]
  refine ⟨Command.opcode_request _, ?_⟩
  rw [Command.payload_request, Command.flashBegin, hcount, hpack]
  refine (unpack_pack fields).trans ?_
  simp only [fields, List.map_cons, List.map_nil]
  rw [mod_field himg.size_lt, mod_field (length_chunks_lt himg), mod_field himg.offset_lt,
    mod_field (by decide)]

theorem carries_flashData {seq : ℕ} {c : List UInt8} (hseq : seq < 2 ^ 32)
    (hlen : c.length ≤ 4096) : Carries (Command.flashData c seq).request seq c := by
  have hpack : toLE 4 c.length ++ toLE 4 seq ++ List.replicate 8 0 ++ c =
      pack [(4, c.length), (4, seq)] ++ (List.replicate 8 0 ++ c) := by
    simp [pack]
  refine ⟨Command.opcode_request _, ?_, ?_⟩
  · rw [Command.payload_request, Command.flashData, hpack]
    refine (unpack_pack_append [(4, c.length), (4, seq)] _).trans ?_
    simp only [List.map_cons, List.map_nil]
    rw [mod_field (by omega), mod_field hseq]
  · rw [Command.payload_request, Command.flashData]
    exact List.drop_left' (by simp)

/-- The commands for an image cover it. -/
theorem covers_commands (himg : Fits img) : Covers img ((commands img).map Command.request) := by
  refine ⟨(Command.flashBegin img).request, (blockCommands img (blocks img)).map Command.request,
    Command.flashEnd.request, (Command.verifyFlashMD5 img).request, chunks img, ?_,
    announces_flashBegin himg, ?_, fun seq c hc => ?_, fun c => chunk_bounds himg.size_eq,
    flatten_chunks himg.size_eq, Command.opcode_request _, Command.opcode_request _⟩
  · rw [commands, List.map_cons, List.map_append]
    rfl
  · rw [List.length_map, blockCommands, List.length_map, chunks, List.length_map]
  · have hseq := (List.getElem?_eq_some_iff.1 hc).1
    have hlen := (chunk_bounds himg.size_eq (List.mem_of_getElem? hc)).2
    refine ⟨_, ?_, carries_flashData (hseq.trans (length_chunks_lt himg)) hlen⟩
    rw [chunks, List.length_map, blocks, List.length_range] at hseq
    rw [chunks, List.getElem?_map, blocks, List.getElem?_range hseq] at hc
    rw [blockCommands, List.getElem?_map, List.getElem?_map, blocks, List.getElem?_range hseq,
      ← Option.some.inj hc]
    rfl

end Covers

/-! ## Progress -/

/-- Values that do not decrease, from a first to a last one. -/
inductive Climbs : ℕ → List ℕ → ℕ → Prop
  | nil (a : ℕ) : Climbs a [] a
  | cons {a b c : ℕ} {bs : List ℕ} (hle : a ≤ b) (h : Climbs b bs c) : Climbs a (b :: bs) c

namespace Climbs

variable {a b c : ℕ} {bs cs : List ℕ}

theorem append (hb : Climbs a bs b) (hc : Climbs b cs c) : Climbs a (bs ++ cs) c := by
  induction hb with
  | nil => exact hc
  | cons hle _ ih => exact .cons hle (ih hc)

theorem le_of_mem (h : Climbs a bs b) {x : ℕ} (hx : x ∈ bs) : a ≤ x := by
  induction h with
  | nil => cases hx
  | cons hle _ ih =>
    rcases List.mem_cons.1 hx with rfl | hx
    · exact hle
    · exact hle.trans (ih hx)

theorem pairwise (h : Climbs a bs b) : bs.Pairwise (· ≤ ·) := by
  induction h with
  | nil => exact .nil
  | cons _ h ih => exact .cons (fun _ => h.le_of_mem) ih

/-- The last value, if there is one. -/
theorem eq_of_getLast? (h : Climbs a bs b) {x : ℕ} (hx : bs.getLast? = some x) : x = b := by
  induction h with
  | nil => cases hx
  | cons _ h ih =>
    cases h with
    | nil => exact (Option.some.inj hx).symm
    | cons hle h => exact ih (by rwa [List.getLast?_cons_cons] at hx)

end Climbs

/-- The bytes transferred, as they are reported. -/
def transferred (reports : List Progress) : List ℕ := reports.map Progress.bytesTransferred

theorem climbs_blockSteps (imgIdx totalBytes : ℕ) (img : Image) (blocks : List ℕ)
    (bytesTransferred : ℕ) : Climbs bytesTransferred
      (transferred (reported (blockSteps imgIdx totalBytes img blocks bytesTransferred)))
      (bytesTransferred + blockBytes img blocks) := by
  induction blocks generalizing bytesTransferred with
  | nil => exact .nil _
  | cons blockIdx rest ih =>
    rw [add_blockBytes_cons]
    exact .cons (Nat.le_add_right _ _) (ih _)

theorem blockBytes_blocks {img : Image} (himg : img.size = img.data.length) :
    blockBytes img (blocks img) = img.size := by
  have hlen := congrArg List.length (flatten_chunks himg)
  rwa [chunks, List.length_flatten, List.map_map, ← himg] at hlen

/-- The bytes transferred climb to the size of the images. -/
theorem climbs_steps {imgs : List Image} (himgs : ∀ img ∈ imgs, img.size = img.data.length)
    (total imgIdx bytesTransferred : ℕ) : Climbs bytesTransferred
      (transferred (reported (steps total imgIdx imgs bytesTransferred)))
      (bytesTransferred + totalBytes imgs) := by
  induction imgs generalizing imgIdx bytesTransferred with
  | nil => exact .nil _
  | cons img imgs ih =>
    obtain ⟨himg, himgs⟩ := List.forall_mem_cons.1 himgs
    rw [steps, reported_issue, reported_append, reported_issue, reported_issue, transferred,
      List.map_append, totalBytes, List.map_cons, List.sum_cons, ← Nat.add_assoc,
      ← blockBytes_blocks himg]
    exact (climbs_blockSteps ..).append (ih himgs _ _)

/-! ## Transfers -/

/-- The manager after `flash`, whether it returns or throws. -/
def flashed (m : FlashManager) (images : List Image) : FlashManager :=
  match flash images m with
  | .ok _ m' => m'
  | .error _ m' => m'

/-- A transfer of images by some commands. If they all succeed, the device is reset, and the total
    is reported last; if one fails, none after it is issued, and `flash` throws. In any case what
    is reported does not decrease, and the manager is ready for another transfer. -/
structure Transfers (m : FlashManager) (images : List Image) (commands : List Command) : Prop where
  succeeds : ∀ q, forM commands Command.issue m.port = .ok () q →
    ∃ m' reports, flash images m = .ok true m' ∧ m'.port = after hardReset q ∧
      m'.reports = m.reports ++ reports ∧
      ∀ x, (transferred reports).getLast? = some x → x = totalBytes images
  fails : ∀ before c rest p e q, commands = before ++ c :: rest → c.Flashes →
    forM before Command.issue m.port = .ok () p → c.send p = .error e q →
    ∃ m', flash images m = .error e m' ∧ m'.port = q
  climbs : ∃ reports, (m.flashed images).reports = m.reports ++ reports ∧
    (transferred reports).Pairwise (· ≤ ·)
  idle : (m.flashed images).isFlashing = false

section Transfers

variable {m : FlashManager} {images : List Image} {q : WebSerialPort} {e : Error}

/-- The transfer between the checks of `flash` and its end. -/
theorem flash_eq (hidle : m.isFlashing = false) (hne : images ≠ []) :
    flash images m = (tryFinally (do
        flashImages (totalBytes images) 0 images 0
        await hardReset
        pure true) (modify fun m => { m with isFlashing := false }) : Flashing Bool)
      { m with isFlashing := true } := by
  obtain ⟨isFlashing, port, reports⟩ := m
  obtain ⟨img, imgs, rfl⟩ := List.exists_cons_of_ne_nil hne
  obtain rfl : isFlashing = false := hidle
  rfl

theorem flash_of_ok (hidle : m.isFlashing = false) (hne : images ≠ [])
    (h : forM (images.flatMap commands) Command.issue m.port = .ok () q) :
    flash images m = .ok true { m with
      port := after hardReset q
      reports := m.reports ++ reported (steps (totalBytes images) 0 images 0) } := by
  obtain ⟨p, hreset⟩ := hardReset_eq_ok q
  have hsteps := perform_of_ok (m := { m with isFlashing := true })
    (steps (totalBytes images) 0 images 0) (by rwa [issued_steps])
  have hawait (m : FlashManager) (hport : m.port = q) :
      (do await hardReset; pure true : Flashing Bool) m = .ok true { m with port := p } := by
    refine bind_of_ok (a := ()) ?_
    rw [await, hport, hreset]
  rw [flash_eq hidle hne, flashImages_eq, after_of_ok hreset]
  refine (tryFinally_of_ok ((bind_of_ok hsteps).trans (hawait _ rfl))).trans ?_
  rw [← hidle]

theorem flash_of_error (hidle : m.isFlashing = false) (hne : images ≠ [])
    (h : forM (images.flatMap commands) Command.issue m.port = .error e q) :
    ∃ reports, reports <+: reported (steps (totalBytes images) 0 images 0) ∧
      flash images m = .error e { m with port := q, reports := m.reports ++ reports } := by
  obtain ⟨reports, hpre, hsteps⟩ := perform_of_error (m := { m with isFlashing := true })
    (steps (totalBytes images) 0 images 0) (by rwa [issued_steps])
  refine ⟨reports, hpre, ?_⟩
  rw [flash_eq hidle hne, flashImages_eq]
  refine (tryFinally_of_error (bind_of_error hsteps)).trans ?_
  rw [← hidle]

/-- Whatever the commands do, something is reported, and the manager is idle then. -/
theorem flashed_eq (hidle : m.isFlashing = false) (hne : images ≠ []) :
    ∃ port reports, reports <+: reported (steps (totalBytes images) 0 images 0) ∧
      m.flashed images = { m with port, reports := m.reports ++ reports } := by
  cases hcommands : forM (images.flatMap commands) Command.issue m.port with
  | ok u q =>
    refine ⟨after hardReset q, _, List.prefix_refl _, ?_⟩
    rw [flashed, flash_of_ok hidle hne hcommands]
  | error e q =>
    obtain ⟨reports, hpre, heq⟩ := flash_of_error hidle hne hcommands
    refine ⟨q, reports, hpre, ?_⟩
    rw [flashed, heq]

/-- A transfer is refused while there is another one, or without images, and then nothing
    changes. -/
theorem flash_of_refused (h : m.isFlashing = true ∨ images = []) :
    ∃ e, flash images m = .error e m ∧
      Flasher.flash m.isFlashing images m.port = .error e m.port := by
  obtain ⟨isFlashing, port, reports⟩ := m
  rcases h with hbusy | rfl
  · obtain rfl : isFlashing = true := hbusy
    exact ⟨_, rfl, rfl⟩
  · cases isFlashing with
    | true => exact ⟨_, rfl, rfl⟩
    | false => exact ⟨_, rfl, rfl⟩

/-- Images are covered by the commands that transfer them. -/
theorem transfers (hidle : m.isFlashing = false) (hne : images ≠ [])
    (himages : ∀ img ∈ images, Fits img) :
    ∃ parts : List (List Command),
      List.Forall₂ (fun img part => Covers img (part.map Command.request)) images parts ∧
      Transfers m images parts.flatten := by
  have hclimbs := climbs_steps (fun img himg => (himages img himg).size_eq) (totalBytes images) 0 0
  rw [Nat.zero_add] at hclimbs
  have hflatten : (images.map commands).flatten = images.flatMap commands := rfl
  obtain ⟨port, reports, hpre, hflashed⟩ := flashed_eq hidle hne
  refine ⟨images.map commands, ?_, ?_, ?_, ?_, ?_⟩
  · rw [List.forall₂_map_right_iff, List.forall₂_same]
    exact fun img himg => covers_commands (himages img himg)
  · intro q hq
    rw [hflatten] at hq
    exact ⟨_, _, flash_of_ok hidle hne hq, rfl, rfl, fun x => hclimbs.eq_of_getLast?⟩
  · intro before c rest p e q hcommands hc hbefore hsend
    rw [hflatten] at hcommands
    have hissue : c.issue p = .error e q := by rw [Command.issue_of_flashes hc, hsend]
    have herror : forM (images.flatMap commands) Command.issue m.port = .error e q := by
      rw [hcommands]
      exact forM_append_cons_of_error hbefore hissue
    obtain ⟨reports, -, heq⟩ := flash_of_error hidle hne herror
    exact ⟨_, heq, rfl⟩
  · refine ⟨reports, by rw [hflashed], ?_⟩
    exact hclimbs.pairwise.sublist (hpre.sublist.map _)
  · rw [hflashed]
    exact hidle

/-- The transfer of the image of one byte. -/
theorem transfers_letter : ∃ parts : List (List Command),
    List.Forall₂ (fun img part => Covers img (part.map Command.request)) [letter] parts ∧
    Transfers ⟨false, bootloader letterDigest, []⟩ [letter] parts.flatten :=
  transfers rfl (List.cons_ne_nil _ _) fun img himg => by
    obtain rfl := List.mem_singleton.1 himg
    exact ⟨rfl, by decide, by decide⟩

end Transfers

/-! ## The port -/

/-- The blocks of an image, on the port. -/
theorem flashBlocks_eq_forM (img : Image) (blocks : List ℕ) :
    Flasher.flashBlocks img 4096 blocks = forM (blockCommands img blocks) Command.issue := by
  induction blocks with
  | nil => rfl
  | cons blockIdx rest ih =>
    rw [blockCommands, List.map_cons, List.forM_cons, Flasher.flashBlocks, ih,
      Command.issue_of_flashes (.inr (.inl rfl))]
    rfl

theorem flashImages_eq_forM (imgs : List Image) :
    Flasher.flashImages imgs = forM (imgs.flatMap commands) Command.issue := by
  induction imgs with
  | nil => rfl
  | cons img imgs ih =>
    have hbegin : (Command.flashBegin img).issue = flashBegin img.size img.offset 4096 :=
      Command.issue_of_flashes (.inl rfl)
    have hend : Command.flashEnd.issue = flashEnd false :=
      Command.issue_of_flashes (.inr (.inr rfl))
    simp only [Flasher.flashImages, flashImage, List.flatMap_cons, commands, ih, List.cons_append,
      List.append_assoc, List.forM_cons, List.forM_append, bind_assoc, hbegin, hend,
      Command.issue_verifyFlashMD5, flashBlocks_eq_forM, pure_bind]
    rfl

/-- What the transfer does on the port is what it does without its reports. -/
theorem flash_port (m : FlashManager) (images : List Image) :
    Flasher.flash m.isFlashing images m.port =
      match flash images m with
      | .ok a m' => .ok a m'.port
      | .error e m' => .error e m'.port := by
  by_cases hrefused : m.isFlashing = true ∨ images = []
  · obtain ⟨e, heq, hport⟩ := flash_of_refused hrefused
    rw [heq, hport]
  obtain ⟨hidle, hne⟩ := not_or.1 hrefused
  rw [Bool.not_eq_true] at hidle
  have hflash : Flasher.flash false images = (do
      Flasher.flashImages images
      hardReset
      return true) := by
    obtain ⟨img, imgs, rfl⟩ := List.exists_cons_of_ne_nil hne
    rfl
  rw [hidle, hflash, flashImages_eq_forM]
  cases hcommands : forM (images.flatMap commands) Command.issue m.port with
  | ok u q =>
    obtain ⟨p, hreset⟩ := hardReset_eq_ok q
    rw [flash_of_ok hidle hne hcommands, after_of_ok hreset]
    exact (bind_of_ok hcommands).trans (bind_of_ok hreset)
  | error e q =>
    obtain ⟨reports, -, heq⟩ := flash_of_error hidle hne hcommands
    rw [heq]
    exact bind_of_error hcommands

end FlashManager

end SliverOS.Flasher
