import SliverOS.Flasher.FirmwareManager
import SliverOS.Flasher.Transfers
import SliverOS.Streams.Effects

/-!
# What an installation writes

A click on the button of the installer, from the first byte that it writes to the last one. The
detection of the chip only probes it: it synchronizes, reads registers and attaches the flash
(`does_connectAndDetect`). Whatever goes wrong, the commands that follow are those that transfer
the images, in order, up to the failure (`written_forM_issue`).

* `Click.protects`: no command of a transfer is written, unless the detection of this click has
  read the identifier of an ESP32-S3 from the register of the chip, and all of the images of its
  target are delivered with the digests of the manifest.
-/

namespace SliverOS.Flasher

open Bytes Streams WebSerialPort FlashManager

variable {p q : WebSerialPort}

/-! ## Waiting -/

/-- Nothing is written, and a port that was closed stays so. -/
structure Quiet (p q : WebSerialPort) : Prop where
  written : q.written = p.written
  isOpen : q.isOpen = true → p.isOpen = true

instance : IsPreorder WebSerialPort Quiet where
  refl _ := ⟨rfl, id⟩
  trans _ _ _ h h' := ⟨h'.written.trans h.written, fun hopen => h.isOpen (h'.isOpen hopen)⟩

theorem quiet_receive (p : WebSerialPort) (w : Wait) : Quiet p (p.receive w) := by
  refine ⟨rfl, fun hopen => ?_⟩
  rw [receive, Bool.and_eq_true] at hopen
  exact hopen.1

theorem does_pause : Does Quiet pause := by
  intro p
  cases hwaits : p.waits with
  | nil =>
    have h : pause p = .ok () p := by rw [pause, hwaits]
    rw [final_of_ok h]
    exact refl p
  | cons w ws =>
    have h : pause p = .ok () (p.receive w) := by rw [pause, hwaits]
    rw [final_of_ok h]
    exact quiet_receive p w

theorem does_drain : Does Quiet drain := fun _ => ⟨rfl, id⟩

theorem quiet_look {endByte : UInt8} {r : EStateM.Result Error WebSerialPort (List UInt8)}
    (h : p.look endByte = some r) : Quiet p (final (fun _ => r) p) := by
  rw [look] at h
  split_ifs at h
  · cases h
    exact refl p
  · cases h
    exact ⟨rfl, id⟩

theorem does_readUntilLoop (endByte : UInt8) (timeoutMs : ℕ) (ws : List Wait) :
    Does Quiet (readUntilLoop endByte timeoutMs ws) := by
  induction ws with
  | nil =>
    intro p
    rw [final, readUntilLoop]
    cases hlook : p.look endByte with
    | none => exact refl p
    | some r => exact quiet_look hlook
  | cons w ws ih =>
    intro p
    rw [final, readUntilLoop]
    cases hlook : p.look endByte with
    | none =>
      rw [Option.getD_none]
      split_ifs
      · exact quiet_receive p w
      · exact trans_of Quiet (quiet_receive p w) (ih _)
    | some r => exact quiet_look hlook

theorem does_readUntil (endByte : UInt8) (timeoutMs : ℕ) :
    Does Quiet (readUntil endByte timeoutMs) := by
  intro p
  rw [final, readUntil]
  by_cases h : timeoutMs = 0
  · rw [if_pos h]
    exact refl p
  · rw [if_neg h]
    exact does_readUntilLoop endByte timeoutMs p.waits p

theorem does_readPacket (timeoutMs : ℕ) : Does Quiet (readPacket timeoutMs) := by
  refine (does_readUntil slipEnd timeoutMs).bind fun raw => ?_
  cases parseResponsePacket raw with
  | ok resp => exact does_pure _
  | error e => exact does_throw _

theorem does_enterBootloader : Does Quiet enterBootloader :=
  does_drain.bind fun _ => does_pause.bind fun _ => does_pause.bind fun _ =>
    does_pause.bind fun _ => does_pause.bind fun _ => does_pause.bind fun _ =>
      does_pause.bind fun _ => does_pause.bind fun _ => does_pause

theorem does_hardReset : Does Quiet hardReset :=
  does_pause.bind fun _ => does_pause.bind fun _ => does_pause.bind fun _ => does_pause

/-! ## Commands -/

/-- A packet is written, whether it is answered or not, unless the port is closed. -/
structure Sends (packet : List UInt8) (p q : WebSerialPort) : Prop where
  written : q.written = p.written ++ if p.isOpen then [packet] else []
  isOpen : q.isOpen = true → p.isOpen = true

theorem does_write (data : List UInt8) : Does (Sends data) (write data) := by
  intro p
  obtain ⟨rx, isOpen, written, waits, taken⟩ := p
  cases isOpen with
  | false => exact ⟨(List.append_nil _).symm, id⟩
  | true =>
    refine ⟨?_, fun _ => rfl⟩
    cases waits with
    | nil => rfl
    | cons w ws =>
      obtain ⟨received, outcome⟩ := w
      cases outcome <;> rfl

theorem Sends.quiet {packet : List UInt8} {r : WebSerialPort} (h : Sends packet p q)
    (hq : Quiet q r) : Sends packet p r :=
  ⟨hq.written.trans h.written, fun hopen => h.isOpen (hq.isOpen hopen)⟩

/-- The response to a packet is waited for. -/
theorem does_write_bind {α : Type} {f : Unit → Loader α} (data : List UInt8)
    (hf : ∀ u, Does Quiet (f u)) : Does (Sends data) (write data >>= f) :=
  fun p => (does_write data p).quiet (related_final_bind hf (write data) p)

theorem does_sendCommand (opcode : UInt8) (payload : List UInt8) (checksum timeoutMs : ℕ) :
    Does (Sends (formatCommandPacket opcode payload checksum))
      (sendCommand opcode payload checksum timeoutMs) := by
  refine does_write_bind _ fun _ => (does_readPacket timeoutMs).bind fun resp => ?_
  exact (does_pure resp).unless _

/-! ## The detection -/

/-- A packet of the detection: to synchronize, to read a register, or to attach the flash. -/
def Probes (packet : List UInt8) : Prop :=
  (Request.ofPacket packet).opcode ∈ [cmdSync, cmdReadReg, 0x0D]

/-- The packets written are those of a detection. -/
abbrev Detects : WebSerialPort → WebSerialPort → Prop := Appends WebSerialPort.written Probes

theorem Quiet.detects (h : Quiet p q) : Detects p q :=
  ⟨[], by rw [h.written, List.append_nil], List.forall_mem_nil _⟩

theorem Sends.detects {packet : List UInt8} (h : Sends packet p q) (hprobe : Probes packet) :
    Detects p q := by
  refine ⟨_, h.written, fun packet' hmem => ?_⟩
  split_ifs at hmem
  · rwa [List.mem_singleton.1 hmem]
  · cases hmem

theorem probes_formatCommandPacket {opcode : UInt8} (h : opcode ∈ [cmdSync, cmdReadReg, 0x0D])
    (payload : List UInt8) (checksum : ℕ) :
    Probes (formatCommandPacket opcode payload checksum) := by
  rwa [Probes, ofPacket_formatCommandPacket]

theorem detects_sendCommand {opcode : UInt8} (h : opcode ∈ [cmdSync, cmdReadReg, 0x0D])
    (payload : List UInt8) (checksum timeoutMs : ℕ) :
    Does Detects (sendCommand opcode payload checksum timeoutMs) :=
  (does_sendCommand opcode payload checksum timeoutMs).mono fun _ _ hsends =>
    hsends.detects (probes_formatCommandPacket h payload checksum)

theorem detects_syncAttempts (n : ℕ) : Does Detects (syncAttempts n) := by
  induction n with
  | zero => exact does_throw _
  | succ n ih =>
    have hattempt : Does Detects (do
        write syncPacket
        let resp ← readPacket 500
        return resp.opcode == cmdSync && resp.success) := by
      have hsends := does_write_bind syncPacket fun _ => (does_readPacket 500).bind fun resp =>
        does_pure (resp.opcode == cmdSync && resp.success)
      exact hsends.mono fun _ _ h =>
        h.detects (probes_formatCommandPacket List.mem_cons_self _ _)
    have hretry : Does Detects (do
        pause
        return false) :=
      (does_pause.bind fun _ => does_pure false).mono fun _ _ => Quiet.detects
    refine (hattempt.tryCatch fun _ => hretry).bind fun synced => ?_
    exact .ite (fun _ => does_pure _) fun _ => ih

theorem detects_readRegister (address : ℕ) : Does Detects (readRegister address) :=
  (detects_sendCommand (.tail _ (.head _)) _ _ _).bind fun _ => does_pure _

theorem detects_spiAttach : Does Detects spiAttach :=
  (detects_sendCommand (.tail _ (.tail _ (.head _))) _ _ _).bind fun _ => does_pure _

/-- The register of an ESP32 is read. -/
def esp32Register : Loader (Option Chip) :=
  tryCatch
    (do
      let reg32 ← readRegister 0x3FF00044
      if reg32 ≠ 0 ∧ bitAnd reg32 0xFFFF0000 ≠ 0xFFFF0000 then
        return some ⟨"ESP32", "esp32", (reg32 >>> 12) &&& 0x07, "4MB"⟩
      else return none)
    (fun _ => return none)

/-- The register of the other chips is read. -/
def otherRegister : Loader (Option Chip) :=
  tryCatch
    (do
      let sysReg ← readRegister 0x60007000
      let chipId := (sysReg >>> 8) &&& 0xFF
      if chipId = 0x05 then return some ⟨"ESP32-C3", "esp32c3", 3, "4MB"⟩
      else if chipId = 0x09 then return some ⟨"ESP32-S3", "esp32s3", 1, "8MB"⟩
      else return none)
    (fun _ => return none)

/-- The chip is looked for in two registers. -/
theorem detectChip_eq : detectChip = (do
    match ← esp32Register with
    | some chip => return chip
    | none => return (← otherRegister).getD ⟨"ESP32", "esp32", 1, "4MB"⟩) := rfl

theorem detects_esp32Register : Does Detects esp32Register :=
  ((detects_readRegister _).bind fun _ => .ite (fun _ => does_pure _) fun _ => does_pure _).tryCatch
    fun _ => does_pure _

theorem detects_otherRegister : Does Detects otherRegister :=
  ((detects_readRegister _).bind fun _ => .ite (fun _ => does_pure _) fun _ =>
    .ite (fun _ => does_pure _) fun _ => does_pure _).tryCatch fun _ => does_pure _

theorem detects_detectChip : Does Detects detectChip := by
  rw [detectChip_eq]
  refine detects_esp32Register.bind fun esp32 => ?_
  cases esp32 with
  | some chip => exact does_pure _
  | none => exact detects_otherRegister.bind fun _ => does_pure _

theorem detects_connectAndDetect : Does Detects connectAndDetect :=
  (does_enterBootloader.mono fun _ _ => Quiet.detects).bind fun _ =>
    (detects_syncAttempts 10).bind fun _ => detects_detectChip.bind fun _ =>
      detects_spiAttach.bind fun _ => does_pure _

/-! ## The chip -/

/-- The chip of an ESP32-S3. -/
def esp32s3Chip : Chip := ⟨"ESP32-S3", "esp32s3", 1, "8MB"⟩

/-- The start of a detection, up to the register of an ESP32. -/
def startOfDetection : Loader (Option Chip) := do
  enterBootloader
  let _ ← sync
  esp32Register

/-- The detection of an ESP32-S3 succeeds. At its start, it does not find an ESP32, and in the
    state that it is left in then, the register of the other chips is read with the identifier of
    an ESP32-S3. -/
def Identified (p : WebSerialPort) : Prop :=
  ∃ r v r' q, startOfDetection p = .ok none r ∧ readRegister 0x60007000 r = .ok v r' ∧
    (v >>> 8) &&& 0xFF = 0x09 ∧ connectAndDetect p = .ok esp32s3Chip q

theorem esp32Register_eq_some {chip : Chip} (h : esp32Register p = .ok (some chip) q) :
    chip.targetKey = "esp32" := by
  rw [esp32Register, tryCatch_eq_ok_iff] at h
  obtain h | ⟨_, _, -, h⟩ := h
  · obtain ⟨reg32, r, -, h⟩ := bind_eq_ok_iff.1 h
    split_ifs at h
    · cases h
      rfl
    · cases h
  · cases h

theorem otherRegister_eq_some {chip : Chip} (h : otherRegister p = .ok (some chip) q) :
    chip.targetKey = "esp32c3" ∨ chip = esp32s3Chip ∧
      ∃ v r, readRegister 0x60007000 p = .ok v r ∧ (v >>> 8) &&& 0xFF = 0x09 := by
  rw [otherRegister, tryCatch_eq_ok_iff] at h
  obtain h | ⟨_, _, -, h⟩ := h
  · obtain ⟨v, r, hread, h⟩ := bind_eq_ok_iff.1 h
    split_ifs at h with hc3 hs3
    · cases h
      exact .inl rfl
    · cases h
      exact .inr ⟨rfl, v, _, hread, hs3⟩
    · cases h
  · cases h

theorem not_supported_esp32 : isSupportedTarget "esp32" = false := by decide +kernel

theorem not_supported_esp32c3 : isSupportedTarget "esp32c3" = false := by decide +kernel

/-- Of the chips, only an ESP32-S3 is supported, and it has been read from the register. -/
theorem esp32s3_of_detectChip {chip : Chip} (h : detectChip p = .ok chip q)
    (hchip : isSupportedTarget chip.targetKey = true) :
    chip = esp32s3Chip ∧ ∃ r v r', esp32Register p = .ok none r ∧
      readRegister 0x60007000 r = .ok v r' ∧ (v >>> 8) &&& 0xFF = 0x09 := by
  rw [detectChip_eq] at h
  obtain ⟨esp32, r, hesp32, h⟩ := bind_eq_ok_iff.1 h
  cases esp32 with
  | some chip' =>
    obtain ⟨rfl, -⟩ := EStateM.Result.ok.inj h
    rw [esp32Register_eq_some hesp32, not_supported_esp32] at hchip
    cases hchip
  | none =>
    obtain ⟨other, r', hother, h⟩ := bind_eq_ok_iff.1 h
    obtain ⟨rfl, -⟩ := EStateM.Result.ok.inj h
    cases other with
    | none =>
      rw [Option.getD_none, not_supported_esp32] at hchip
      cases hchip
    | some chip' =>
      obtain hc3 | ⟨rfl, v, r'', hread, hid⟩ := otherRegister_eq_some hother
      · rw [Option.getD_some, hc3, not_supported_esp32c3] at hchip
        cases hchip
      · exact ⟨rfl, r, v, r'', hesp32, hread, hid⟩

theorem identified_of_connectAndDetect {chip : Chip} (h : connectAndDetect p = .ok chip q)
    (hchip : isSupportedTarget chip.targetKey = true) :
    chip = esp32s3Chip ∧ Identified p := by
  have hdone := h
  obtain ⟨_, r₁, hboot, h⟩ := bind_eq_ok_iff.1 h
  obtain ⟨_, r₂, hsync, h⟩ := bind_eq_ok_iff.1 h
  obtain ⟨chip', r₃, hdetect, h⟩ := bind_eq_ok_iff.1 h
  obtain ⟨_, r₄, -, h⟩ := bind_eq_ok_iff.1 h
  obtain ⟨rfl, -⟩ := EStateM.Result.ok.inj h
  obtain ⟨rfl, r, v, r', hesp32, hread, hid⟩ := esp32s3_of_detectChip hdetect hchip
  have hstart : startOfDetection p = .ok none r := by
    rw [startOfDetection, bind_of_ok hboot, bind_of_ok hsync, hesp32]
  exact ⟨rfl, r, v, r', _, hstart, hread, hid, hdone⟩

/-! ## The images -/

namespace Click

open FirmwareManager

variable {c : Click} {sha256 : List UInt8 → List UInt8} {cfg : TargetConfig}
  {images : List PreparedImage}

/-- What is transferred: the detection at the port has identified an ESP32-S3, and the images are
    those of its target in the manifest, all delivered with their digests. -/
structure Cleared (c : Click) (sha256 : List UInt8 → List UInt8) (p : WebSerialPort)
    (images : List PreparedImage) : Prop where
  identified : Identified p
  delivered : ∃ manifest cfg imgs, c.manifest = .ok manifest ∧
    manifest.getTargetConfig "esp32s3" = some cfg ∧ cfg.images = some imgs ∧
    List.Forall₂ (fun x image => ∃ data, firmwareMgr.Delivers c.fetch x.1 x.2 data ∧
      Intact sha256 x.1 data ∧ image = preparedImage sha256 x.1 data) imgs.zipIdx images

theorem detects_ofExcept {α : Type} (x : Except Error α) : Does Detects (ofExcept x) := by
  cases x with
  | ok a => exact does_pure a
  | error e => exact does_throw e

theorem ofExcept_eq_ok {α : Type} {x : Except Error α} {a : α} (h : ofExcept x p = .ok a q) :
    x = .ok a ∧ q = p := by
  cases x with
  | ok b =>
    cases h
    exact ⟨rfl, rfl⟩
  | error e => cases h

theorem detects_selectTarget (c : Click) : Does Detects c.selectTarget := by
  refine Does.unless ?_ _
  refine (detects_ofExcept _).bind fun _ => detects_connectAndDetect.bind fun chip =>
    Does.unless ?_ _
  -- An ESP32-S3, if its configuration is in the manifest.
  refine (detects_ofExcept _).bind fun manifest => ?_
  cases manifest.getTargetConfig chip.targetKey with
  | none => exact does_throw _
  | some cfg => exact does_pure cfg

/-- A click gets to the configuration of its target with an ESP32-S3 only. -/
theorem identified_of_selectTarget (h : c.selectTarget p = .ok cfg q) :
    Identified p ∧ ∃ manifest, c.manifest = .ok manifest ∧
      manifest.getTargetConfig "esp32s3" = some cfg := by
  obtain ⟨-, hrest⟩ := unless_eq_ok_iff.1 h
  obtain ⟨_, r, hopened, hrest⟩ := bind_eq_ok_iff.1 hrest
  obtain ⟨chip, r', hdetect, hrest⟩ := bind_eq_ok_iff.1 hrest
  obtain ⟨hchip, hrest⟩ := unless_eq_ok_iff.1 hrest
  rw [(ofExcept_eq_ok hopened).2] at hdetect
  rw [Bool.not_eq_true', Bool.not_eq_false] at hchip
  obtain ⟨rfl, hid⟩ := identified_of_connectAndDetect hdetect hchip
  obtain ⟨manifest, r'', hmanifest, hrest⟩ := bind_eq_ok_iff.1 hrest
  refine ⟨hid, manifest, (ofExcept_eq_ok hmanifest).1, ?_⟩
  cases hcfg : manifest.getTargetConfig esp32s3Chip.targetKey with
  | none =>
    rw [hcfg] at hrest
    cases hrest
  | some cfg' =>
    rw [hcfg] at hrest
    cases hrest
    exact hcfg

theorem prepareImage_firmwareMgr_iff {x : ManifestImage × ℕ} {image : PreparedImage} :
    firmwareMgr.prepareImage sha256 c.fetch x = .ok image ↔
      ∃ data, firmwareMgr.Delivers c.fetch x.1 x.2 data ∧ Intact sha256 x.1 data ∧
        image = preparedImage sha256 x.1 data := by
  rw [prepareImage_eq_ok_iff]
  exact exists_congr fun data => and_congr_right fun _ => and_iff_right fun hmode => by cases hmode

/-- Images are prepared only if they may be transferred. -/
theorem cleared_of_prepared (h : c.prepared sha256 p = .ok images q) :
    c.Cleared sha256 p images := by
  obtain ⟨cfg, r, hselect, h⟩ := bind_eq_ok_iff.1 h
  obtain ⟨hid, manifest, hmanifest, hcfg⟩ := identified_of_selectTarget hselect
  obtain ⟨hfetch, -⟩ := ofExcept_eq_ok h
  cases himgs : cfg.images with
  | none =>
    rw [fetchAndPrepareImages, himgs] at hfetch
    cases hfetch
  | some imgs =>
    rw [fetchAndPrepareImages_eq_ok_iff himgs] at hfetch
    exact ⟨hid, manifest, cfg, imgs, hmanifest, hcfg, himgs,
      hfetch.imp fun _ _ => prepareImage_firmwareMgr_iff.1⟩

theorem detects_prepared (c : Click) (sha256 : List UInt8 → List UInt8) :
    Does Detects (c.prepared sha256) :=
  c.detects_selectTarget.bind fun _ => detects_ofExcept _

end Click

/-! ## The transfer -/

namespace FlashManager

open Command

variable {c : Command} {cs : List Command}

theorem after_eq_final {α : Type} (x : Loader α) (p : WebSerialPort) : after x p = final x p := by
  rw [after, final]
  cases x p <;> rfl

theorem sends_send (c : Command) : Does (Sends c.packet) c.send := by
  intro p
  exact (does_sendCommand _ _ _ _ p).quiet (related_final_bind (fun _ => does_pure _) _ p)

/-- The packet of a command is sent, whether its failure is passed over or not. -/
theorem sends_issue (c : Command) : Does (Sends c.packet) c.issue := by
  intro p
  by_cases hc : c.Flashes
  · rw [issue_of_flashes hc]
    exact sends_send c p
  · rw [final_of_ok (issue_of_not_flashes hc p), after_eq_final]
    exact sends_send c p

/-- Once the port is closed, nothing is written. -/
theorem written_forM_of_closed (cs : List Command) (hclosed : p.isOpen = false) :
    (final (forM cs issue) p).written = p.written := by
  induction cs generalizing p with
  | nil => rfl
  | cons c cs ih =>
    have hsends := sends_issue c p
    have hwritten : (final c.issue p).written = p.written := by
      rw [hsends.written, hclosed, if_neg Bool.false_ne_true, List.append_nil]
    have hstill : (final c.issue p).isOpen = false := by
      rw [← Bool.not_eq_true]
      exact fun hopen => Bool.false_ne_true (hclosed.symm.trans (hsends.isOpen hopen))
    rw [List.forM_cons]
    cases hc : c.issue p with
    | ok u q =>
      rw [final_bind_of_ok hc]
      rw [final_of_ok hc] at hwritten hstill
      rw [ih hstill, hwritten]
    | error e q =>
      rw [final_of_error hc] at hwritten
      rw [final_bind_of_error hc, hwritten]

/-- The commands written are the first ones, up to a failure. -/
theorem written_forM_issue (cs : List Command) (p : WebSerialPort) :
    ∃ wire, wire <+: cs.map packet ∧ (final (forM cs issue) p).written = p.written ++ wire := by
  induction cs generalizing p with
  | nil => exact ⟨[], List.nil_prefix, (List.append_nil _).symm⟩
  | cons c cs ih =>
    cases hopen : p.isOpen with
    | false =>
      refine ⟨[], List.nil_prefix, ?_⟩
      rw [written_forM_of_closed _ hopen, List.append_nil]
    | true =>
      have hwritten : (final c.issue p).written = p.written ++ [c.packet] := by
        rw [(sends_issue c p).written, if_pos hopen]
      rw [List.forM_cons, List.map_cons]
      cases hc : c.issue p with
      | ok u q =>
        rw [final_of_ok hc] at hwritten
        obtain ⟨wire, hwire, heq⟩ := ih q
        refine ⟨c.packet :: wire, (List.prefix_cons_inj _).2 hwire, ?_⟩
        rw [final_bind_of_ok hc, heq, hwritten, List.append_assoc, List.singleton_append]
      | error e q =>
        rw [final_of_error hc] at hwritten
        exact ⟨[c.packet], ⟨_, rfl⟩, by rw [final_bind_of_error hc, hwritten]⟩

/-- A port that has been read from is open. -/
theorem isOpen_of_look {endByte : UInt8} {raw : List UInt8}
    (h : p.look endByte = some (.ok raw q)) : q.isOpen = true := by
  rw [look] at h
  split_ifs at h with hclosed
  · cases h
  · cases h
    exact by_contra fun hopen => hclosed (by simpa [splice] using hopen)

theorem isOpen_of_readUntilLoop {endByte : UInt8} {timeoutMs : ℕ} {ws : List Wait}
    {raw : List UInt8} (h : readUntilLoop endByte timeoutMs ws p = .ok raw q) :
    q.isOpen = true := by
  induction ws generalizing p with
  | nil =>
    rw [readUntilLoop] at h
    cases hlook : p.look endByte with
    | none =>
      rw [hlook] at h
      cases h
    | some r =>
      rw [hlook, Option.getD_some] at h
      exact isOpen_of_look (hlook.trans (congrArg some h))
  | cons w ws ih =>
    rw [readUntilLoop] at h
    cases hlook : p.look endByte with
    | none =>
      rw [hlook, Option.getD_none] at h
      split_ifs at h
      exact ih h
    | some r =>
      rw [hlook, Option.getD_some] at h
      exact isOpen_of_look (hlook.trans (congrArg some h))

theorem isOpen_of_send (h : c.send p = .ok () q) : q.isOpen = true := by
  obtain ⟨resp, r, hsend, hr⟩ := bind_eq_ok_iff.1 h
  obtain ⟨-, rfl⟩ := EStateM.Result.ok.inj hr
  obtain ⟨hexchange, -⟩ := sendCommand_eq_ok_iff.1 hsend
  obtain ⟨_, p', hwrite, hread⟩ := bind_eq_ok_iff.1 hexchange
  obtain ⟨raw, hraw, -⟩ := readPacket_eq_ok_iff.1 hread
  rw [readUntil] at hraw
  split_ifs at hraw
  exact isOpen_of_readUntilLoop hraw

/-- Commands of a transfer that all succeed are all written. -/
theorem written_of_forM_flashes (hcs : ∀ c ∈ cs, c.Flashes) (h : forM cs issue p = .ok () q) :
    q.written = p.written ++ cs.map packet ∧ (p.isOpen = true → q.isOpen = true) := by
  induction cs generalizing p with
  | nil =>
    cases h
    exact ⟨(List.append_nil _).symm, id⟩
  | cons c cs ih =>
    obtain ⟨hc, hcs⟩ := List.forall_mem_cons.1 hcs
    obtain ⟨_, r, hissue, hrest⟩ := bind_eq_ok_iff.1 h
    rw [issue_of_flashes hc] at hissue
    obtain ⟨hwritten, hopen⟩ := ih hcs hrest
    refine ⟨?_, fun _ => hopen (isOpen_of_send hissue)⟩
    rw [hwritten, written_of_send hissue, List.map_cons, List.append_assoc, List.singleton_append]

/-- The commands of images that all succeed, but for the queries, are all written. -/
theorem written_of_forM_commands {imgs : List Image}
    (h : forM (imgs.flatMap commands) issue p = .ok () q) :
    q.written = p.written ++ (imgs.flatMap commands).map packet := by
  induction imgs generalizing p with
  | nil =>
    cases h
    exact (List.append_nil _).symm
  | cons img imgs ih =>
    have hsplit : (img :: imgs).flatMap commands = (.flashBegin img ::
        (blockCommands img (blocks img) ++ [.flashEnd])) ++
          (.verifyFlashMD5 img :: imgs.flatMap commands) := by
      simp [commands]
    have hflashes : ∀ c ∈ blockCommands img (blocks img) ++ [.flashEnd], c.Flashes := by
      intro c hc
      obtain hc | hc := List.mem_append.1 hc
      · obtain ⟨k, -, rfl⟩ := List.mem_map.1 hc
        exact .inr (.inl rfl)
      · rw [List.mem_singleton.1 hc]
        exact .inr (.inr rfl)
    rw [hsplit, List.forM_append] at h
    obtain ⟨_, r, hcarried, hrest⟩ := bind_eq_ok_iff.1 h
    obtain ⟨_, r', hbegin, hcarried⟩ := bind_eq_ok_iff.1 hcarried
    rw [issue_of_flashes (.inl rfl)] at hbegin
    obtain ⟨hwritten, hopen⟩ := written_of_forM_flashes hflashes hcarried
    -- The port is open after the last command, so that the query is written.
    obtain ⟨_, r'', hquery, hrest⟩ := bind_eq_ok_iff.1 hrest
    have hsends := (sends_issue _).of_ok hquery
    rw [ih hrest, hsends.written, if_pos (hopen (isOpen_of_send hbegin)), hwritten,
      written_of_send hbegin, hsplit]
    simp

end FlashManager

/-! ## Installations -/

namespace Click

open FirmwareManager FlashManager

variable {c : Click} {sha256 : List UInt8 → List UInt8} {images : List PreparedImage}

/-- The packets of a transfer. -/
def packets (images : List PreparedImage) : List (List UInt8) :=
  ((images.map PreparedImage.toImage).flatMap commands).map Command.packet

theorem flash_eq_forM (images : List Image) (hne : images ≠ []) : Flasher.flash false images = (do
    forM (images.flatMap commands) Command.issue
    hardReset
    return true) := by
  obtain ⟨img, imgs, rfl⟩ := List.exists_cons_of_ne_nil hne
  rw [← flashImages_eq_forM]
  rfl

/-- What an installation writes: the packets of a detection, and then those of a transfer, up to a
    failure. None is written of a transfer that is not cleared, and all of one that is reported to
    have succeeded. -/
theorem protects (c : Click) (sha256 : List UInt8 → List UInt8) (p : WebSerialPort) :
    ∃ probes wire, (final (c.install sha256) p).written = p.written ++ probes ++ wire ∧
      (∀ packet ∈ probes, Probes packet) ∧
      (wire = [] ∧ (∃ e q, c.install sha256 p = .error e q) ∨
        ∃ images, c.Cleared sha256 p images ∧ wire <+: packets images ∧
          ∀ done q, c.install sha256 p = .ok done q → wire = packets images) := by
  obtain ⟨probes, hprobes, hall⟩ := c.detects_prepared sha256 p
  cases hprepared : c.prepared sha256 p with
  | error e q =>
    have hinstall : c.install sha256 p = .error e q := bind_of_error hprepared
    rw [final_of_error hprepared] at hprobes
    refine ⟨probes, [], ?_, hall, .inl ⟨rfl, e, q, hinstall⟩⟩
    rw [final_of_error hinstall, hprobes, List.append_nil]
  | ok images r =>
    rw [final_of_ok hprepared] at hprobes
    have hinstall : c.install sha256 p = Flasher.flash false (images.map PreparedImage.toImage) r :=
      bind_of_ok hprepared
    rcases images.eq_nil_or_concat' with rfl | ⟨_, _, himages⟩
    · refine ⟨probes, [], ?_, hall, .inl ⟨rfl, _, r, hinstall⟩⟩
      rw [final_of_error hinstall, hprobes, List.append_nil]
    have hne : images.map PreparedImage.toImage ≠ [] := by simp [himages]
    rw [flash_eq_forM _ hne] at hinstall
    obtain ⟨wire, hwire, hwritten⟩ :=
      written_forM_issue ((images.map PreparedImage.toImage).flatMap commands) r
    have hreset : Does Quiet (do
        hardReset
        return true) := does_hardReset.bind fun _ => does_pure true
    refine ⟨probes, wire, ?_, hall, .inr ⟨images, cleared_of_prepared hprepared, hwire, ?_⟩⟩
    · rw [final, hinstall]
      exact (related_final_bind (fun _ => hreset) _ r).written.trans (by rw [hwritten, hprobes])
    · intro done q hok
      rw [hinstall] at hok
      obtain ⟨_, r', hcommands, -⟩ := bind_eq_ok_iff.1 hok
      rw [final_of_ok hcommands, written_of_forM_commands hcommands] at hwritten
      exact (List.append_cancel_left hwritten).symm

end Click

end SliverOS.Flasher
