import SliverOS.Flasher.EspLoader

/-!
# Flashing

`flasher/src/flashing/flash_manager.js`, without its progress reports.

After an image is written, the bootloader is asked for the digest of what is on the
flash. The manager does not say which digest it expects, so that none is
compared, and whatever else happens to the query is passed over as well: flashing
succeeds as soon as its commands do (`flash_of_written`). A success thus means
that the images are on the flash only if the bootloader answered the queries with
their digests, or with failures (`confirmed_iff`).
-/

namespace SliverOS.Flasher

open Bytes Streams WebSerialPort

/-- An image, as prepared by `FirmwareManager`. -/
structure Image where
  name : String
  offset : ℕ
  data : List UInt8
  size : ℕ

/-- The blocks of an image from one on, in the loop of `flash`. -/
def flashBlocks (img : Image) (blockSize : ℕ) : List ℕ → Loader Unit
  | [] => return ()
  | blockIdx :: rest => do
    let start := blockIdx * blockSize
    let finish := min (start + blockSize) img.size
    let chunk := (img.data.take finish).drop start
    flashData chunk blockIdx
    flashBlocks img blockSize rest

/-- The writing of an image, in `flash`. -/
def flashImage (img : Image) : Loader Unit := do
  let blockSize := 4096
  let totalBlocks := blockCount img.size blockSize
  flashBegin img.size img.offset blockSize
  flashBlocks img blockSize (List.range totalBlocks)
  flashEnd false

/-- The loop of `flash` over the images. -/
def flashImages : List Image → Loader Unit
  | [] => return ()
  | img :: imgs => do
    flashImage img
    let _ ← verifyFlashMD5 img.offset img.size none
    flashImages imgs

/-- `flash`, of a manager that is flashing or not. -/
def flash (isFlashing : Bool) (images : List Image) : Loader Bool := do
  if isFlashing then throw ⟨"Flash operation already in progress."⟩
  if images.length = 0 then throw ⟨"No images specified for flashing."⟩
  flashImages images
  hardReset
  return true

/-! ## Success -/

variable {p q : WebSerialPort} {img : Image} {imgs : List Image} {md5 : List UInt8 → List UInt8}

/-- `verifyFlashMD5` returns `true`, whatever happens. -/
theorem verifyFlashMD5_eq_ok (offset size : ℕ) (expectedMD5 : Option String) (p : WebSerialPort) :
    ∃ q, verifyFlashMD5 offset size expectedMD5 p = .ok true q := by
  rw [verifyFlashMD5]
  generalize hx :
    (sendCommand cmdSpiFlashMd5 (md5Payload offset size) 0 8000 >>= _ : Loader Bool) = x
  cases hr : x p with
  | error e q => exact ⟨q, tryCatch_of_error hr _⟩
  | ok a q =>
    refine ⟨q, ?_⟩
    rw [tryCatch_of_ok hr]
    subst hx
    obtain ⟨resp, r, -, hrest⟩ := bind_eq_ok_iff.1 hr
    dsimp only at hrest
    split_ifs at hrest
    · cases hrest
    · cases hrest
      rfl
    · cases hrest
      rfl

theorem pause_eq_ok (p : WebSerialPort) : ∃ q, pause p = .ok () q := by
  rw [pause]
  cases p.waits with
  | nil => exact ⟨_, rfl⟩
  | cons w ws => exact ⟨_, rfl⟩

theorem hardReset_eq_ok (p : WebSerialPort) : ∃ q, hardReset p = .ok () q := by
  obtain ⟨q₁, h₁⟩ := pause_eq_ok p
  obtain ⟨q₂, h₂⟩ := pause_eq_ok q₁
  obtain ⟨q₃, h₃⟩ := pause_eq_ok q₂
  obtain ⟨q₄, h₄⟩ := pause_eq_ok q₃
  refine ⟨q₄, ?_⟩
  rw [hardReset, bind_of_ok h₁, bind_of_ok h₂, bind_of_ok h₃, h₄]

/-- The port after the query for an image, which is made on a port. -/
def verified (img : Image) (p : WebSerialPort) : WebSerialPort :=
  after (verifyFlashMD5 img.offset img.size none) p

/-- All commands that write the images succeed. -/
def Written : List Image → WebSerialPort → Prop
  | [], _ => True
  | img :: imgs, p => ∃ q, flashImage img p = .ok () q ∧ Written imgs (verified img q)

/-- The queries for the images written, with the ports they are made on. -/
def queries : List Image → WebSerialPort → List (Image × WebSerialPort)
  | [], _ => []
  | img :: imgs, p =>
    match flashImage img p with
    | .ok _ q => (img, q) :: queries imgs (verified img q)
    | .error _ _ => []

/-- Flashing goes on as long as its commands succeed. -/
theorem flashImages_eq_ok_iff : (∃ q, flashImages imgs p = .ok () q) ↔ Written imgs p := by
  induction imgs generalizing p with
  | nil => exact iff_of_true ⟨p, rfl⟩ trivial
  | cons img imgs ih =>
    rw [Written]
    constructor
    · rintro ⟨q, hq⟩
      obtain ⟨_, r, hflash, hrest⟩ := bind_eq_ok_iff.1 hq
      obtain ⟨_, r', hverify, hrest⟩ := bind_eq_ok_iff.1 hrest
      refine ⟨r, hflash, ih.1 ⟨q, ?_⟩⟩
      rwa [verified, after_of_ok hverify]
    · rintro ⟨r, hflash, hrest⟩
      obtain ⟨r', hverify⟩ := verifyFlashMD5_eq_ok img.offset img.size none r
      rw [verified, after_of_ok hverify] at hrest
      obtain ⟨q, hq⟩ := ih.2 hrest
      exact ⟨q, bind_eq_ok_iff.2 ⟨(), r, hflash, bind_eq_ok_iff.2 ⟨true, r', hverify, hq⟩⟩⟩

/-- Flashing succeeds if and only if its commands do. -/
theorem flash_eq_ok_iff (hne : imgs ≠ []) :
    (∃ q, flash false imgs p = .ok true q) ↔ Written imgs p := by
  obtain ⟨img, imgs, rfl⟩ := List.exists_cons_of_ne_nil hne
  have hflash : flash false (img :: imgs) = (do
      flashImages (img :: imgs)
      hardReset
      return true) := rfl
  rw [← flashImages_eq_ok_iff, hflash]
  constructor
  · rintro ⟨q, hq⟩
    obtain ⟨_, r, himages, -⟩ := bind_eq_ok_iff.1 hq
    exact ⟨r, himages⟩
  · rintro ⟨q, himages⟩
    obtain ⟨r, hreset⟩ := hardReset_eq_ok q
    exact ⟨r, bind_eq_ok_iff.2 ⟨(), q, himages, bind_eq_ok_iff.2 ⟨(), r, hreset, rfl⟩⟩⟩

/-! ## Verification -/

/-- What the query for an image is answered with: a failure, or the digest of the image. -/
def Confirms (md5 : List UInt8 → List UInt8) (img : Image) (resp : ResponsePacket) : Prop :=
  resp.success = false ∨ 16 ≤ resp.payload.length ∧ resp.payload.take 16 = md5 img.data

/-- The query for an image is answered, with a failure or with the digest of the image. -/
def Confirmed (md5 : List UInt8 → List UInt8) (img : Image) (p : WebSerialPort) : Prop :=
  ∃ resp q, exchange (formatCommandPacket cmdSpiFlashMd5 (md5Payload img.offset img.size) 0) 8000
    p = .ok resp q ∧ Confirms md5 img resp

/-- The first packet that is heard when a query is made for an image is a response with a
    failure, or with the digest of the image. -/
def HearsDigest (md5 : List UInt8 → List UInt8) (img : Image) (p : WebSerialPort) : Prop :=
  ∃ raw, p.firstPacket = some raw ∧ 10 ≤ (slipDecode raw).length ∧
    Confirms md5 img (.ofDecoded (slipDecode raw))

theorem confirmed_iff_hearsDigest : Confirmed md5 img p ↔ HearsDigest md5 img p := by
  constructor
  · rintro ⟨resp, q, hread, hconfirms⟩
    obtain ⟨-, raw, hfirst, hparse, -⟩ := firstPacket_of_exchange hread
    obtain ⟨hlen, rfl⟩ := parseResponsePacket_eq_ok_iff.1 hparse
    exact ⟨raw, hfirst, hlen, hconfirms⟩
  · rintro ⟨raw, hfirst, hlen, hconfirms⟩
    obtain ⟨q, hread, -⟩ := exchange_of_firstPacket (Nat.succ_ne_zero 7999) hfirst
      (parseResponsePacket_eq_ok_iff.2 ⟨hlen, rfl⟩) _
    exact ⟨_, q, hread, hconfirms⟩

/-- Flashing with commands that succeed reports a success only for images whose queries are
    confirmed if and only if each of these queries hears the digest, or a failure. -/
theorem confirmed_iff (md5 : List UInt8 → List UInt8) (hwritten : Written imgs p) :
    ((∃ q, flash false imgs p = .ok true q) → ∀ x ∈ queries imgs p, Confirmed md5 x.1 x.2) ↔
      ∀ x ∈ queries imgs p, HearsDigest md5 x.1 x.2 := by
  have hqueries : (∀ x ∈ queries imgs p, Confirmed md5 x.1 x.2) ↔
      ∀ x ∈ queries imgs p, HearsDigest md5 x.1 x.2 :=
    forall₂_congr fun _ _ => confirmed_iff_hearsDigest
  rw [← hqueries]
  cases imgs with
  | nil =>
    refine iff_of_true (fun _ x hx => ?_) fun x hx => ?_
    · cases hx
    · cases hx
  | cons img imgs =>
    exact ⟨fun h => h ((flash_eq_ok_iff (List.cons_ne_nil _ _)).2 hwritten), fun h _ => h⟩

/-- An image of one byte. -/
def letter : Image := ⟨"letter", 0x20000, [0x61], 1⟩

/-- The MD5 digest of that byte. -/
def letterDigest : List UInt8 := [0x0C, 0xC1, 0x75, 0xB9, 0xC0, 0xF1, 0xB6, 0xA8, 0x31, 0xC3,
  0x99, 0xE2, 0x69, 0x77, 0x26, 0x61]

/-- A successful response, cut at the delimiter after it. -/
def response (opcode : UInt8) (payload : List UInt8) : List UInt8 :=
  slipBody ([1, opcode, UInt8.ofNat payload.length, 0, 0, 0, 0, 0] ++ payload ++ [0, 0]) ++
    [slipEnd]

/-- A bootloader that writes an image of one block, and answers the query for it with a digest. -/
def bootloader (digest : List UInt8) : WebSerialPort where
  rxBuffer := []
  isOpen := true
  written := []
  waits := [⟨response cmdFlashBegin [], .done⟩, ⟨response cmdFlashData [], .done⟩,
    ⟨response cmdFlashEnd [], .done⟩, ⟨response cmdSpiFlashMd5 digest, .done⟩]
  taken := 0

/-- The port after the image is written. -/
def letterWritten (digest : List UInt8) : WebSerialPort where
  rxBuffer := []
  isOpen := true
  written := [
    formatCommandPacket cmdFlashBegin
      (toLE 4 1 ++ toLE 4 1 ++ toLE 4 4096 ++ toLE 4 0x20000) 0,
    formatCommandPacket cmdFlashData (toLE 4 1 ++ toLE 4 0 ++ List.replicate 8 0 ++ [0x61]) 0x8E,
    formatCommandPacket cmdFlashEnd [0, 0, 0, 0] 0]
  waits := [⟨response cmdSpiFlashMd5 digest, .done⟩]
  taken := 33

set_option maxRecDepth 20000 in
theorem flashImage_letter (digest : List UInt8) :
    flashImage letter (bootloader digest) = .ok () (letterWritten digest) := by
  rfl

theorem written_letter (digest : List UInt8) : Written [letter] (bootloader digest) :=
  ⟨_, flashImage_letter digest, trivial⟩

theorem queries_letter (digest : List UInt8) :
    queries [letter] (bootloader digest) = [(letter, letterWritten digest)] := by
  rw [queries, flashImage_letter]
  rfl

/-- The digest of the image is the answer to the query for it. -/
theorem confirmed_iff_letter :
    ((∃ q, flash false [letter] (bootloader letterDigest) = .ok true q) →
      ∀ x ∈ queries [letter] (bootloader letterDigest), Confirmed (fun _ => letterDigest) x.1 x.2) ↔
    ∀ x ∈ queries [letter] (bootloader letterDigest), HearsDigest (fun _ => letterDigest) x.1 x.2 :=
  confirmed_iff _ (written_letter letterDigest)

/-- Flashing succeeds with another digest as the answer. -/
theorem digest_not_compared :
    (∃ q, flash false [letter] (bootloader (List.replicate 16 0)) = .ok true q) ∧
    ¬∀ x ∈ queries [letter] (bootloader (List.replicate 16 0)),
      Confirmed (fun _ => letterDigest) x.1 x.2 := by
  refine ⟨(flash_eq_ok_iff (List.cons_ne_nil _ _)).2 (written_letter _), fun h => ?_⟩
  rw [queries_letter] at h
  obtain ⟨raw, hfirst, -, hconfirms⟩ := confirmed_iff_hearsDigest.1 (h _ List.mem_cons_self)
  have hraw : (letterWritten (List.replicate 16 0)).firstPacket =
      some (response cmdSpiFlashMd5 (List.replicate 16 0)) := by decide +kernel
  obtain rfl := Option.some.inj (hfirst.symm.trans hraw)
  revert hconfirms
  rw [Confirms]
  decide +kernel

end SliverOS.Flasher
