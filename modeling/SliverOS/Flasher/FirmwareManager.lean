import SliverOS.Bytes.Hex
import SliverOS.Bytes.Utf8
import SliverOS.Flasher.FlashManager

/-!
# Preparing the images

`flasher/src/flashing/firmware_manager.js`, which fetches the images of a target and
checks them, with `verification.js` and `manifest.js`, and the handler of a click
in `flasher/src/main.js`, which detects the chip, prepares the images of its target
and flashes them. Messages logged are left out.

All of the images are prepared, or the handler stops before anything is flashed
(`fetchAndPrepareImages_eq_ok_iff`). An image that is prepared has the digest of the
manifest. Whether it is a fixture is looked at in production mode only, and the
handler asks for the other mode, so that fixtures are flashed whenever they are
downloaded in order (`flashesOnlyGenuine_iff`).
-/

namespace SliverOS.Flasher

/-! ## Integrity -/

/-- `toLowerCase`. No letter that is not of ASCII becomes a digit of base 16. -/
def toLowerCase (s : String) : String := String.ofList (s.toList.map Char.toLower)

/-- `computeSHA256`, with the digest of `crypto.subtle`. -/
def computeSHA256 (sha256 : List UInt8 → List UInt8) (buffer : List UInt8) : String :=
  String.ofList ((sha256 buffer).flatMap fun b => (Nat.toDigits 16 b.toNat).leftpad 2 '0')

/-- What `verifyIntegrity` returns. -/
structure Verification where
  valid : Bool
  expected : String
  computed : String

/-- `verifyIntegrity`. -/
def verifyIntegrity (sha256 : List UInt8 → List UInt8) (buffer : List UInt8)
    (expectedHex : Option String) : Except Error Verification :=
  let expected := expectedHex.getD ""
  if expected = "" then .error ⟨"No expected SHA-256 provided for verification."⟩
  else
    let computed := toLowerCase (computeSHA256 sha256 buffer)
    .ok ⟨computed = toLowerCase expected, toLowerCase expected, computed⟩

/-! ## The manifest -/

/-- The offset of an image: a text, or a number. -/
inductive Offset
  | text (s : String)
  | number (n : ℤ)

/-- An image of the manifest. -/
structure ManifestImage where
  name : String
  filename : String
  offset : Offset
  sha256 : Option String
  isFixture : Option Bool

/-- The configuration of a target, with its images if they are an array. -/
structure TargetConfig where
  images : Option (List ManifestImage)

/-- A release of the manifest. -/
structure Release where
  version : String
  targets : Option (List (String × TargetConfig))

/-- A manifest that is loaded and valid. -/
structure Manifest where
  latest : String
  releases : List Release

/-- `toLowerCase().replace(/[-_]/g, '')`. -/
def normalized (key : String) : String :=
  String.ofList ((toLowerCase key).toList.filter fun c => c ≠ '-' ∧ c ≠ '_')

/-- `getLatestRelease`. -/
def Manifest.getLatestRelease (m : Manifest) : Option Release :=
  (m.releases.find? (·.version = m.latest)).or m.releases.head?

/-- `getTargetConfig`. -/
def Manifest.getTargetConfig (m : Manifest) (chipKey : String) : Option TargetConfig := do
  let release ← m.getLatestRelease
  let targets ← release.targets
  let (_, cfg) ← targets.find? fun (key, _) => normalized key = normalized chipKey
  return cfg

/-! ## Preparation -/

/-- The white space skipped by `parseInt`. -/
def isSpace (c : Char) : Bool :=
  c.toNat ∈ [0x09, 0x0A, 0x0B, 0x0C, 0x0D, 0x20, 0xA0, 0x1680, 0x2028, 0x2029, 0x202F, 0x205F,
    0x3000, 0xFEFF] || decide (0x2000 ≤ c.toNat ∧ c.toNat ≤ 0x200A)

/-- `parseInt(s, 16)`, of a number below `2 ^ 53`: nothing for `NaN`. -/
def parseInt (s : String) : Option ℤ :=
  let cs := s.toList.dropWhile isSpace
  let (sign, cs) : ℤ × List Char := match cs with
    | '-' :: cs => (-1, cs)
    | '+' :: cs => (1, cs)
    | cs => (1, cs)
  let cs := match cs with
    | '0' :: 'x' :: cs => cs
    | '0' :: 'X' :: cs => cs
    | cs => cs
  match cs.map Hex.value |>.takeWhile Option.isSome with
  | [] => none
  | digits => some (sign * digits.foldl (fun n d => 16 * n + (d.getD 0 : ℕ)) 0)

/-- `offsetNum`. -/
def Offset.toNumber : Offset → Option ℤ
  | text s => parseInt s
  | number n => some n

/-- A response of `fetch`, with its contents if they can be read. -/
structure Response where
  ok : Bool
  status : ℕ
  arrayBuffer : Except Error (List UInt8)

/-- An image that is prepared. -/
structure PreparedImage where
  name : String
  filename : String
  offset : Option ℤ
  data : List UInt8
  size : ℕ
  sha256 : String

/-- The image as the loader takes it, the offset as a number of 32 bits. -/
def PreparedImage.toImage (image : PreparedImage) : Image :=
  ⟨image.name, ((image.offset.getD 0) % 2 ^ 32).toNat, image.data, image.size⟩

/-- `FirmwareManager`. -/
structure FirmwareManager where
  baseUrl : String
  isProductionMode : Bool

/-- The text of the first 64 bytes has the banner of a fixture. -/
def Labelled (data : List UInt8) : Prop :=
  "TEST FIXTURE".toList <:+: (Utf8.decodeText (data.take 64)).toList ∨
    "NOT FOR HARDWARE".toList <:+: (Utf8.decodeText (data.take 64)).toList

instance (data : List UInt8) : Decidable (Labelled data) := inferInstanceAs (Decidable (_ ∨ _))

/-- An image that is a fixture: it is marked as one, or has the banner. -/
def Fixture (img : ManifestImage) (data : List UInt8) : Prop :=
  img.isFixture = some true ∨ Labelled data

instance (img : ManifestImage) (data : List UInt8) : Decidable (Fixture img data) :=
  inferInstanceAs (Decidable (_ ∨ _))

/-- What `fetch` gives for a URL, each time it is called. -/
abbrev Fetch := ℕ → String → Except Error Response

namespace FirmwareManager

/-- An image of the loop of `fetchAndPrepareImages`, with its index. -/
def prepareImage (m : FirmwareManager) (sha256 : List UInt8 → List UInt8) (fetch : Fetch) :
    ManifestImage × ℕ → Except Error PreparedImage
  | (img, k) => do
    let resp ← fetch k (m.baseUrl ++ img.filename)
    if !resp.ok then
      throw ⟨"Failed to fetch " ++ img.filename ++ ": HTTP " ++ toString resp.status⟩
    let data ← resp.arrayBuffer
    if m.isProductionMode ∧ Fixture img data then
      throw ⟨"[SECURITY REJECTION] Image '" ++ img.filename ++ "' is labeled as a TEST FIXTURE " ++
        "(NOT FOR HARDWARE FLASHING). Production flashing mode prohibits writing test fixtures to " ++
        "real hardware. Please flash binaries produced by 'idf.py build'."⟩
    let verification ← verifyIntegrity sha256 data img.sha256
    if !verification.valid then
      throw ⟨"Integrity check failed for " ++ img.filename ++ "! Expected " ++
        img.sha256.getD "" ++ ", got " ++ verification.computed⟩
    return ⟨img.name, img.filename, img.offset.toNumber, data, data.length, verification.computed⟩

/-- `fetchAndPrepareImages`. -/
def fetchAndPrepareImages (m : FirmwareManager) (sha256 : List UInt8 → List UInt8)
    (fetch : Fetch) (cfg : TargetConfig) : Except Error (List PreparedImage) :=
  match cfg.images with
  | none => .error ⟨"Target configuration has no images defined."⟩
  | some imgs => imgs.zipIdx.mapM (m.prepareImage sha256 fetch)

end FirmwareManager

/-! ## The handler -/

/-- `spiAttach`. -/
def spiAttach : Loader Unit := do
  let _ ← sendCommand 0x0D (List.replicate 8 0) 0 2000

/-- `connectAndDetect`, once the port is open. -/
def connectAndDetect : Loader Chip := do
  enterBootloader
  let _ ← sync
  let chip ← detectChip
  spiAttach
  return chip

/-- `getChipDisplayName`. -/
def getChipDisplayName (chipKey : String) : String :=
  if toLowerCase chipKey = "esp32s3" then "ESP32-S3 (7Semi Dev-BoardC-1U-N8R8) [TARGET HARDWARE]"
  else if toLowerCase chipKey = "esp32" then "ESP32 Classic [UNSUPPORTED - REJECTED]"
  else if toLowerCase chipKey = "esp32c3" then "ESP32-C3 [UNSUPPORTED - REJECTED]"
  else "ESP32 Generic [UNSUPPORTED]"

/-- `isSupportedTarget`. -/
def isSupportedTarget (chipKey : String) : Bool := normalized chipKey = "esp32s3"

/-- What a click finds: the API for serial ports, a port that is opened, the
    manifest, and the files. -/
structure Click where
  serial : Bool
  opened : Except Error Unit
  manifest : Except Error Manifest
  fetch : Fetch

/-- A result that may be an error. -/
def ofExcept {α : Type} : Except Error α → Loader α
  | .ok a => return a
  | .error e => throw e

namespace Click

/-- The handler up to the configuration of the target. -/
def selectTarget (c : Click) : Loader TargetConfig := do
  if !c.serial then
    throw ⟨"Web Serial is not supported in this browser. Please use Chrome, Edge, or Opera."⟩
  ofExcept c.opened
  let chip ← connectAndDetect
  if !isSupportedTarget chip.targetKey then
    throw ⟨"Target chip '" ++ chip.family ++ "' (" ++ getChipDisplayName chip.targetKey ++
      ") is NOT supported! SliverOS flasher strictly requires ESP32-S3 " ++
      "(7Semi ESP32-S3-Dev-BoardC-1U-N8R8). Flashing rejected to protect non-target hardware."⟩
  let manifest ← ofExcept c.manifest
  match manifest.getTargetConfig chip.targetKey with
  | none => throw ⟨"Target " ++ chip.family ++ " not found in firmware manifest."⟩
  | some cfg => return cfg

/-- The manager that the handler makes. -/
def firmwareMgr : FirmwareManager := ⟨"./firmware/", false⟩

/-- The handler up to the images that it passes to `flash`. -/
def prepared (c : Click) (sha256 : List UInt8 → List UInt8) : Loader (List PreparedImage) := do
  let cfg ← c.selectTarget
  ofExcept (firmwareMgr.fetchAndPrepareImages sha256 c.fetch cfg)

/-- The handler. -/
def install (c : Click) (sha256 : List UInt8 → List UInt8) : Loader Bool := do
  let images ← c.prepared sha256
  flash false (images.map PreparedImage.toImage)

end Click

/-! ## What is checked -/

theorem exceptBind_eq_ok_iff {ε α β : Type} {x : Except ε α} {f : α → Except ε β} {b : β} :
    (x >>= f) = .ok b ↔ ∃ a, x = .ok a ∧ f a = .ok b := by
  cases x with
  | ok a => exact ⟨fun h => ⟨a, rfl, h⟩, fun ⟨_, ha, h⟩ => Except.ok.inj ha ▸ h⟩
  | error e => exact iff_of_false (fun h => by cases h) (fun ⟨_, ha, _⟩ => by cases ha)

variable {sha256 : List UInt8 → List UInt8} {m : FirmwareManager} {fetch : Fetch}
  {cfg : TargetConfig} {img : ManifestImage} {imgs : List ManifestImage} {image : PreparedImage}
  {images : List PreparedImage} {k : ℕ} {data : List UInt8} {c : Click} {p q : WebSerialPort}

theorem exceptPure_eq_ok_iff {ε α : Type} {a b : α} : (pure a : Except ε α) = .ok b ↔ a = b :=
  ⟨Except.ok.inj, congrArg _⟩

/-- A sequence that throws first in some case returns in the other one. -/
theorem iteThrow_eq_ok_iff {ε α : Type} {b : Prop} [Decidable b] {e : ε} {x : Except ε α} {a : α} :
    (if b then (throw e : Except ε Unit) >>= fun _ => x else x) = .ok a ↔ ¬b ∧ x = .ok a := by
  by_cases hb : b
  · rw [if_pos hb]
    exact iff_of_false (fun h => by cases h) fun h => h.1 hb
  · rw [if_neg hb]
    exact (and_iff_right hb).symm

/-- A loop that returns has returned for each of the items. -/
theorem mapM_eq_ok_iff {ε α β : Type} {f : α → Except ε β} {xs : List α} {ys : List β} :
    xs.mapM f = .ok ys ↔ List.Forall₂ (fun x y => f x = .ok y) xs ys := by
  induction xs generalizing ys with
  | nil =>
    rw [List.mapM_nil, exceptPure_eq_ok_iff, List.forall₂_nil_left_iff, eq_comm]
  | cons x xs ih =>
    simp only [List.mapM_cons, exceptBind_eq_ok_iff, exceptPure_eq_ok_iff, ih]
    constructor
    · rintro ⟨y, hy, ys, hys, rfl⟩
      exact .cons hy hys
    · rintro (_ | ⟨hy, hys⟩)
      exact ⟨_, hy, _, hys, rfl⟩

/-- There is a list of items related to some others if there is one for each of them. -/
theorem exists_forall₂_iff {α β : Type} {R : α → β → Prop} {xs : List α} :
    (∃ ys, List.Forall₂ R xs ys) ↔ ∀ x ∈ xs, ∃ y, R x y := by
  induction xs with
  | nil => exact iff_of_true ⟨[], .nil⟩ fun _ hx => absurd hx List.not_mem_nil
  | cons x xs ih =>
    rw [List.forall_mem_cons, ← ih]
    constructor
    · rintro ⟨_, _ | ⟨hy, hys⟩⟩
      exact ⟨⟨_, hy⟩, _, hys⟩
    · rintro ⟨⟨y, hy⟩, ys, hys⟩
      exact ⟨y :: ys, .cons hy hys⟩

/-- The manifest has the digest of the data. -/
def Intact (sha256 : List UInt8 → List UInt8) (img : ManifestImage) (data : List UInt8) : Prop :=
  ∃ text, img.sha256 = some text ∧ text ≠ "" ∧ Hex.decode text.toList = some (sha256 data)

theorem computeSHA256_eq (sha256 : List UInt8 → List UInt8) (data : List UInt8) :
    computeSHA256 sha256 data = String.ofList (Hex.encode (sha256 data)) := by
  have hbyte : ∀ n < 256, (Nat.toDigits 16 n).leftpad 2 '0' =
      [Nat.digitChar (n / 16), Nat.digitChar (n % 16)] := by decide +kernel
  rw [computeSHA256, Hex.encode]
  exact congrArg String.ofList (List.flatMap_congr fun b _ => hbyte b.toNat b.toNat_lt)

theorem toLowerCase_computeSHA256 : toLowerCase (computeSHA256 sha256 data) =
    computeSHA256 sha256 data := by
  rw [computeSHA256_eq, toLowerCase, String.toList_ofList, Hex.map_toLower_encode]

/-- The digest that is compared. -/
theorem computed_of_ok {expectedHex : Option String} {v : Verification}
    (h : verifyIntegrity sha256 data expectedHex = .ok v) :
    v.computed = computeSHA256 sha256 data := by
  simp only [verifyIntegrity, toLowerCase_computeSHA256] at h
  split_ifs at h
  rw [← Except.ok.inj h]

/-- Data pass the check of their integrity if the manifest has their digest. -/
theorem intact_iff : Intact sha256 img data ↔
    ∃ v, verifyIntegrity sha256 data img.sha256 = .ok v ∧ v.valid = true := by
  have hcompare (text : String) : computeSHA256 sha256 data = toLowerCase text ↔
      Hex.decode text.toList = some (sha256 data) := by
    rw [computeSHA256_eq, toLowerCase, String.ofList_inj, Hex.decode_eq_some_iff, eq_comm]
  rw [Intact]
  constructor
  · rintro ⟨text, himg, hne, hdecode⟩
    refine ⟨_, by rw [verifyIntegrity, himg]; exact if_neg hne, ?_⟩
    simp only [toLowerCase_computeSHA256]
    exact decide_eq_true ((hcompare text).2 hdecode)
  · rintro ⟨v, hv, hvalid⟩
    simp only [verifyIntegrity, toLowerCase_computeSHA256] at hv
    split_ifs at hv with hne
    obtain rfl := Except.ok.inj hv
    cases himg : img.sha256 with
    | none =>
      rw [himg] at hne
      exact absurd rfl hne
    | some text =>
      rw [himg] at hne hvalid
      exact ⟨text, rfl, hne, (hcompare text).1 (of_decide_eq_true hvalid)⟩

namespace FirmwareManager

/-- The contents of the file of an image, when it is fetched. -/
def Delivers (m : FirmwareManager) (fetch : Fetch) (img : ManifestImage) (k : ℕ)
    (data : List UInt8) : Prop :=
  ∃ resp, fetch k (m.baseUrl ++ img.filename) = .ok resp ∧ resp.ok = true ∧
    resp.arrayBuffer = .ok data

/-- The image prepared of some data. -/
def preparedImage (sha256 : List UInt8 → List UInt8) (img : ManifestImage) (data : List UInt8) :
    PreparedImage :=
  ⟨img.name, img.filename, img.offset.toNumber, data, data.length, computeSHA256 sha256 data⟩

/-- An image is prepared if its file is delivered and passes the checks. -/
theorem prepareImage_eq_ok_iff : m.prepareImage sha256 fetch (img, k) = .ok image ↔
    ∃ data, m.Delivers fetch img k data ∧ (m.isProductionMode = true → ¬Fixture img data) ∧
      Intact sha256 img data ∧ image = preparedImage sha256 img data := by
  have hchecks (data : List UInt8) : (∃ v, verifyIntegrity sha256 data img.sha256 = .ok v ∧
      ¬(!v.valid) = true ∧ (⟨img.name, img.filename, img.offset.toNumber, data, data.length,
        v.computed⟩ : PreparedImage) = image) ↔
      Intact sha256 img data ∧ image = preparedImage sha256 img data := by
    rw [intact_iff]
    constructor
    · rintro ⟨v, hv, hvalid, rfl⟩
      refine ⟨⟨v, hv, by simpa using hvalid⟩, ?_⟩
      rw [preparedImage, ← computed_of_ok hv]
    · rintro ⟨⟨v, hv, hvalid⟩, rfl⟩
      refine ⟨v, hv, by simp [hvalid], ?_⟩
      rw [preparedImage, ← computed_of_ok hv]
  simp only [prepareImage, exceptBind_eq_ok_iff, iteThrow_eq_ok_iff, exceptPure_eq_ok_iff, hchecks,
    Delivers]
  constructor
  · rintro ⟨resp, hfetch, hok, data, hdata, hguard, hrest⟩
    exact ⟨data, ⟨resp, hfetch, by simpa using hok, hdata⟩, not_and.1 hguard, hrest⟩
  · rintro ⟨data, ⟨resp, hfetch, hok, hdata⟩, hguard, hrest⟩
    exact ⟨resp, hfetch, by simp [hok], data, hdata, not_and.2 hguard, hrest⟩

/-- All of the images are prepared, or none. -/
theorem fetchAndPrepareImages_eq_ok_iff (himgs : cfg.images = some imgs) :
    m.fetchAndPrepareImages sha256 fetch cfg = .ok images ↔
      List.Forall₂ (fun x image => m.prepareImage sha256 fetch x = .ok image) imgs.zipIdx
        images := by
  rw [fetchAndPrepareImages, himgs]
  exact mapM_eq_ok_iff

/-- A file is delivered with one content. -/
theorem Delivers.inj {data' : List UInt8} (h : m.Delivers fetch img k data)
    (h' : m.Delivers fetch img k data') : data = data' := by
  obtain ⟨resp, hfetch, -, hdata⟩ := h
  obtain ⟨resp', hfetch', -, hdata'⟩ := h'
  obtain rfl := Except.ok.inj (hfetch.symm.trans hfetch')
  exact Except.ok.inj (hdata.symm.trans hdata')

end FirmwareManager

/-! ## What is flashed -/

/-- An image has the digest of the manifest, and is no fixture. -/
def Genuine (sha256 : List UInt8 → List UInt8) (img : ManifestImage) (data : List UInt8) : Prop :=
  Intact sha256 img data ∧ ¬Fixture img data

namespace Click

open FirmwareManager Streams

/-- The images of the target that are passed to `flash` are the files delivered, all of
    them genuine, and when one of the files is not, the handler stops without doing
    anything to the port after the detection of the chip. -/
def FlashesOnlyGenuine (c : Click) (sha256 : List UInt8 → List UInt8) (p : WebSerialPort) : Prop :=
  ∀ cfg imgs q, c.selectTarget p = .ok cfg q → cfg.images = some imgs →
    (∀ images r, c.prepared sha256 p = .ok images r → List.Forall₂ (fun x image =>
      firmwareMgr.Delivers c.fetch x.1 x.2 image.data ∧ Genuine sha256 x.1 image.data)
        imgs.zipIdx images) ∧
    ((∃ x ∈ imgs.zipIdx, ∃ data, firmwareMgr.Delivers c.fetch x.1 x.2 data ∧
      ¬Genuine sha256 x.1 data) → ∃ e, c.install sha256 p = .error e q)

/-- Only genuine images are flashed if and only if, whenever all of the images of the
    target are delivered with the digests of the manifest, none is a fixture. -/
theorem flashesOnlyGenuine_iff (c : Click) (sha256 : List UInt8 → List UInt8) (p : WebSerialPort) :
    c.FlashesOnlyGenuine sha256 p ↔
      ∀ cfg imgs q, c.selectTarget p = .ok cfg q → cfg.images = some imgs →
        (∀ x ∈ imgs.zipIdx, ∃ data, firmwareMgr.Delivers c.fetch x.1 x.2 data ∧
          Intact sha256 x.1 data) →
        ∀ x ∈ imgs.zipIdx, ∀ data, firmwareMgr.Delivers c.fetch x.1 x.2 data →
          ¬Fixture x.1 data := by
  refine forall₅_congr fun cfg imgs q hselect himgs => ?_
  have hprepare (x : ManifestImage × ℕ) (image : PreparedImage) :
      firmwareMgr.prepareImage sha256 c.fetch x = .ok image ↔
        ∃ data, firmwareMgr.Delivers c.fetch x.1 x.2 data ∧ Intact sha256 x.1 data ∧
          image = preparedImage sha256 x.1 data := by
    -- Whether the image is a fixture is not looked at.
    rw [prepareImage_eq_ok_iff]
    refine exists_congr fun data => and_congr_right fun _ => and_iff_right fun hmode => ?_
    cases hmode
  have hprepared : c.prepared sha256 p = ofExcept
      (firmwareMgr.fetchAndPrepareImages sha256 c.fetch cfg) q := bind_of_ok hselect
  have himages (images : List PreparedImage) :
      firmwareMgr.fetchAndPrepareImages sha256 c.fetch cfg = .ok images ↔
        List.Forall₂ (fun x image => ∃ data, firmwareMgr.Delivers c.fetch x.1 x.2 data ∧
          Intact sha256 x.1 data ∧ image = preparedImage sha256 x.1 data) imgs.zipIdx images := by
    rw [fetchAndPrepareImages_eq_ok_iff himgs]
    simp only [hprepare]
  cases hresult : firmwareMgr.fetchAndPrepareImages sha256 c.fetch cfg with
  | error e =>
    rw [hresult] at hprepared himages
    refine iff_of_true ⟨fun images r h => ?_, fun _ => ⟨e, ?_⟩⟩ fun hall => ?_
    · rw [hprepared] at h
      cases h
    · exact bind_of_error hprepared
    · -- The images would all have been prepared.
      have hsome : ∀ x ∈ imgs.zipIdx, ∃ image data, firmwareMgr.Delivers c.fetch x.1 x.2 data ∧
          Intact sha256 x.1 data ∧ image = preparedImage sha256 x.1 data := by
        intro x hx
        obtain ⟨data, hdata, hintact⟩ := hall x hx
        exact ⟨_, data, hdata, hintact, rfl⟩
      obtain ⟨images, h⟩ := exists_forall₂_iff.2 hsome
      cases (himages images).2 h
  | ok images =>
    have hall := (himages images).1 hresult
    rw [hresult] at hprepared
    constructor
    · intro h _ x hx data hdata
      have hgenuine := (h.1 images q hprepared)
      obtain ⟨image, himage, -, hno⟩ := exists_forall₂_iff.1 ⟨images, hgenuine⟩ x hx
      rwa [hdata.inj himage]
    · intro h
      have hintact : ∀ x ∈ imgs.zipIdx, ∃ data, firmwareMgr.Delivers c.fetch x.1 x.2 data ∧
          Intact sha256 x.1 data := fun x hx =>
        have ⟨_, data, hdata, hintact, _⟩ := exists_forall₂_iff.1 ⟨images, hall⟩ x hx
        ⟨data, hdata, hintact⟩
      have hno := h hintact
      refine ⟨fun images' r hok => ?_, fun ⟨x, hx, data, hdata, hbad⟩ => absurd ?_ hbad⟩
      · rw [hprepared] at hok
        cases hok
        have hboth := (List.forall₂_and_left _ _).2 ⟨hno, hall⟩
        refine hboth.imp ?_
        rintro x _ ⟨hx, data, hdata, hintact, rfl⟩
        exact ⟨hdata, hintact, hx data hdata⟩
      · obtain ⟨data', hdata', hx'⟩ := hintact x hx
        exact ⟨hdata.inj hdata' ▸ hx', hno x hx data hdata⟩

/-! ## A fixture that is flashed -/

/-- The banner of a fixture. -/
def banner : List UInt8 := "TEST FIXTURE".toList.map fun c => UInt8.ofNat c.toNat

/-- The SHA-256 digest of the banner. -/
def bannerDigest : List UInt8 := [0x08, 0x5F, 0x38, 0x6B, 0xA7, 0x1E, 0x6B, 0xAD, 0x0D, 0xC5, 0x02,
  0x5D, 0x30, 0xA5, 0x0F, 0x82, 0x30, 0x5D, 0x80, 0x23, 0xC9, 0xE2, 0xBB, 0x12, 0x3F, 0xE4, 0x07,
  0x58, 0x01, 0x4E, 0x22, 0xA0]

/-- An image marked as a fixture in the manifest. -/
def fixtureImage : ManifestImage :=
  ⟨"Bootloader Esp32S3", "bootloader_esp32s3.bin", .text "0x0",
    some "085f386ba71e6bad0dc5025d30a50f82305d8023c9e2bb123fe40758014e22a0", some true⟩

/-- A click that finds this image, with the banner in its file. -/
def fixtureClick : Click where
  serial := true
  opened := .ok ()
  manifest := .ok ⟨"1.0.0", [⟨"1.0.0", some [("esp32s3", ⟨some [fixtureImage]⟩)]⟩]⟩
  fetch _ _ := .ok ⟨true, 200, .ok banner⟩

/-- A bootloader of an ESP32-S3, which answers the commands of the detection. -/
def esp32s3 : WebSerialPort where
  rxBuffer := []
  isOpen := true
  written := []
  waits := List.replicate 8 ⟨[], .done⟩ ++ [⟨response cmdSync [], .done⟩,
    ⟨response cmdReadReg [], .done⟩,
    ⟨slipBody [1, cmdReadReg, 0, 0, 0, 9, 0, 0, 0, 0] ++ [slipEnd], .done⟩,
    ⟨response 0x0D [], .done⟩]
  taken := 0

set_option maxRecDepth 20000 in
theorem selectTarget_fixtureClick :
    ∃ q, fixtureClick.selectTarget esp32s3 = .ok ⟨some [fixtureImage]⟩ q :=
  ⟨_, by rfl⟩

/-- The image has the digest of the manifest. -/
theorem intact_fixtureImage : Intact (fun _ => bannerDigest) fixtureImage banner :=
  ⟨_, rfl, by decide, by decide +kernel⟩

/-- The image is passed to `flash`. -/
theorem fixture_flashed : ¬fixtureClick.FlashesOnlyGenuine (fun _ => bannerDigest) esp32s3 := by
  obtain ⟨q, hselect⟩ := selectTarget_fixtureClick
  intro h
  obtain ⟨hpassed, -⟩ := h _ _ q hselect rfl
  have hprepare : firmwareMgr.prepareImage (fun _ => bannerDigest) fixtureClick.fetch
      (fixtureImage, 0) = .ok (preparedImage (fun _ => bannerDigest) fixtureImage banner) :=
    prepareImage_eq_ok_iff.2 ⟨banner, ⟨_, rfl, rfl, rfl⟩, fun hmode => absurd hmode (by decide),
      intact_fixtureImage, rfl⟩
  have hall : firmwareMgr.fetchAndPrepareImages (fun _ => bannerDigest) fixtureClick.fetch
      ⟨some [fixtureImage]⟩ = .ok [preparedImage (fun _ => bannerDigest) fixtureImage banner] :=
    (fetchAndPrepareImages_eq_ok_iff rfl).2 (.cons hprepare .nil)
  have hprepared : fixtureClick.prepared (fun _ => bannerDigest) esp32s3 = ofExcept
      (firmwareMgr.fetchAndPrepareImages (fun _ => bannerDigest) fixtureClick.fetch _) q :=
    bind_of_ok hselect
  rw [hall] at hprepared
  obtain ⟨_, _⟩ | ⟨⟨-, -, hno⟩, _⟩ := hpassed _ q hprepared
  exact hno (.inl rfl)

end Click

end SliverOS.Flasher
