import SliverOS.Dicts.Insertion
import SliverOS.Flasher.Installation

/-!
# Packaging

`scripts/package_firmware.py`, which puts the images of the targets into the directory of the
flasher, and records them in the manifest. The table of partitions has one file for all of the
targets, so that it is replaced whenever any of them is packaged.

A run finds the artifacts of a build, or the random bytes of the samples. Of the manifest, what the
flasher reads is kept (`Manifest`), and it is read back as it was written. The directories of the
build and of the flasher are the same in all of the runs, and different from each other.

* `Shelf`: what has been packaged last, for each target, and the table of partitions then.
* `installs_packaged`: the images that are installed after some runs are the ones packaged last for
  the target, if the table of partitions still has the digest of theirs. Otherwise nothing is
  installed.
-/

namespace SliverOS.Packaging

open Dicts Flasher Streams

/-! ## The script -/

/-- A choice of `--target`, other than `all`. -/
inductive Target
  | esp32s3
  | esp32
  | esp32c3
  deriving DecidableEq, Repr

/-- The text of a target. -/
def Target.key : Target → String
  | .esp32s3 => "esp32s3"
  | .esp32 => "esp32"
  | .esp32c3 => "esp32c3"

/-- The contents of the files of a directory. -/
abbrev Directory := String → Option (List UInt8)

/-- The artifacts in `--build-dir`. -/
structure Build where
  appBin : Option (List UInt8)
  bootBin : Option (List UInt8)
  partBin : Option (List UInt8)

/-- A run of the script, with all of the targets if none is given: its arguments, and what it
    finds. -/
structure Run where
  target : Option Target
  version : String
  generateSample : Bool
  build : Build
  urandom : String → ℕ → List UInt8

/-- The manifest of the repository, and the directory of the flasher with the copy of it. -/
structure Disk where
  manifest : Option Manifest
  flasherDest : Directory
  published : Option Manifest

/-- The file of a bootloader. -/
def bootName (t : Target) : String := "bootloader_" ++ t.key ++ ".bin"

/-- The file of the table of partitions. -/
def partName : String := "partition-table.bin"

/-- The file of an application. -/
def appName (t : Target) : String := "microkernel-" ++ t.key ++ ".bin"

/-- `offset_boot`. -/
def offsetBoot (t : Target) : ℕ := if t = .esp32 then 0x1000 else 0x0

/-- `offset_part`. -/
def offsetPart : ℕ := 0x8000

/-- `offset_app`. -/
def offsetApp (t : Target) : ℕ := if t = .esp32s3 then 0x20000 else 0x10000

/-- The text of an offset, `f"0x{offset:X}"`. -/
def offsetText (offset : ℕ) : String :=
  "0x" ++ String.ofList ((Nat.toDigits 16 offset).map Char.toUpper)

/-- `compute_sha256`. -/
def computeSha256 (sha256 : List UInt8 → List UInt8) (dir : Directory) (filepath : String) :
    String :=
  computeSHA256 sha256 ((dir filepath).getD [])

/-- The title case of a text, after a letter or not. -/
def titleFrom : Bool → List Char → List Char
  | _, [] => []
  | afterLetter, c :: cs => (if afterLetter then c.toLower else c.toUpper) :: titleFrom c.isAlpha cs

/-- `fname.split(".")[0].replace("_", " ").title()`. -/
def displayName (fname : String) : String :=
  String.ofList (titleFrom false ((fname.toList.takeWhile (· ≠ '.')).map fun c =>
    if c = '_' then ' ' else c))

/-- The header of a sample, and its banner. -/
def sampleHeader : List UInt8 :=
  [0xE9, 0x03, 0x02, 0x20] ++
    "TEST FIXTURE - NOT FOR HARDWARE FLASHING - ESP32 MOCK BINARY".toList.map
      (fun c => UInt8.ofNat c.toNat) ++ [0]

/-- The contents of a sample. -/
def sampleData (urandom : String → ℕ → List UInt8) (fname : String) (size : ℕ) : List UInt8 :=
  sampleHeader ++ urandom fname (size - sampleHeader.length)

/-- The samples of a target: their files, sizes and offsets. -/
def sampleImages (t : Target) : List (String × ℕ × ℕ) :=
  [(bootName t, 28672, offsetBoot t), (partName, 3072, offsetPart),
    (appName t, 419430, offsetApp t)]

/-- `create_sample_binaries`. -/
def createSampleBinaries (sha256 : List UInt8 → List UInt8) (urandom : String → ℕ → List UInt8)
    (outputDir : Directory) (t : Target) : Directory × List ManifestImage :=
  (sampleImages t).foldl (fun (dir, records) (fname, size, offset) =>
    let dir := Function.update dir fname (some (sampleData urandom fname size))
    (dir, records ++ [⟨displayName fname, fname, .text (offsetText offset),
      some (computeSha256 sha256 dir fname), some true⟩])) (outputDir, [])

/-- An iteration of the loops over the targets, if its artifacts are there. -/
def packageTarget (sha256 : List UInt8 → List UInt8) (run : Run) :
    Directory × List (String × TargetConfig) → Target →
      Option (Directory × List (String × TargetConfig))
  | (dir, targets), t =>
    if run.generateSample then
      let (dir, images) := createSampleBinaries sha256 run.urandom dir t
      some (dir, assign targets t.key ⟨some images⟩)
    else
      match run.build.appBin, run.build.bootBin, run.build.partBin with
      | some appBin, some bootBin, some partBin =>
        let dir := Function.update dir (bootName t) (some bootBin)
        let dir := Function.update dir partName (some partBin)
        let dir := Function.update dir (appName t) (some appBin)
        some (dir, assign targets t.key ⟨some [
          ⟨"Bootloader", bootName t, .text (offsetText (offsetBoot t)),
            some (computeSha256 sha256 dir (bootName t)), none⟩,
          ⟨"Partition Table", partName, .text (offsetText offsetPart),
            some (computeSha256 sha256 dir partName), none⟩,
          ⟨"MicroKernel OS", appName t, .text (offsetText (offsetApp t)),
            some (computeSha256 sha256 dir (appName t)), none⟩]⟩)
      | _, _, _ => none

/-- `targets_to_build`. -/
def Run.targetsToBuild (run : Run) : List Target :=
  run.target.elim [.esp32s3, .esp32, .esp32c3] fun t => [t]

/-- `main`, if it does not exit with an error. Artifacts are found missing before any of them is
    copied. -/
def main (sha256 : List UInt8 → List UInt8) (d : Disk) (run : Run) : Option Disk :=
  let manifestData := d.manifest.getD ⟨run.version, [⟨run.version, some []⟩]⟩
  match manifestData.releases with
  | [] => none
  | releaseEntry :: rest => do
    let (dir, targets) ← run.targetsToBuild.foldlM (packageTarget sha256 run)
      (d.flasherDest, releaseEntry.targets.getD [])
    let manifestData := { manifestData with
      releases := { releaseEntry with targets := some targets } :: rest }
    return ⟨some manifestData, dir, some manifestData⟩

/-- The disk after some runs. -/
def runs (sha256 : List UInt8 → List UInt8) (d : Disk) (rs : List Run) : Disk :=
  rs.foldl (fun d run => (main sha256 d run).getD d) d

/-- What is served of a file of the flasher. -/
def Disk.fetch (d : Disk) : Fetch := fun _ url =>
  let name := "./firmware/".toList.isPrefixOf? url.toList
  match name.bind fun name => d.flasherDest (.ofList name) with
  | some data => .ok ⟨true, 200, .ok data⟩
  | none => .ok ⟨false, 404, .ok []⟩

/-- The images of a target. -/
structure Package where
  boot : List UInt8
  part : List UInt8
  app : List UInt8

/-- The images packaged last for each of the targets, and the table of partitions. -/
structure Shelf where
  packages : Target → Option Package
  table : Option (List UInt8)

/-- A package is put on the shelf, and replaces the table of partitions. -/
def Shelf.put (s : Shelf) (t : Target) (pkg : Package) : Shelf :=
  ⟨Function.update s.packages t (some pkg), some pkg.part⟩

/-- What a run packages. -/
def Run.package (run : Run) (t : Target) : Option Package :=
  if run.generateSample then
    some ⟨sampleData run.urandom (bootName t) 28672, sampleData run.urandom partName 3072,
      sampleData run.urandom (appName t) 419430⟩
  else
    match run.build.appBin, run.build.bootBin, run.build.partBin with
    | some app, some boot, some part => some ⟨boot, part, app⟩
    | _, _, _ => none

/-- The shelf after a run. -/
def Shelf.after (s : Shelf) (run : Run) : Shelf :=
  (run.targetsToBuild.foldlM (fun s t => (run.package t).map (s.put t)) s).getD s

variable {sha256 : List UInt8 → List UInt8} {run : Run} {t t' : Target} {dir dir' : Directory}
  {targets targets' : List (String × TargetConfig)} {s s' : Shelf} {pkg : Package} {d : Disk}
  {cfg : TargetConfig} {table : List UInt8}

theorem bootName_ne_partName : ∀ t, bootName t ≠ partName := by
  rintro (_ | _ | _) <;> decide +kernel

theorem appName_ne_partName : ∀ t, appName t ≠ partName := by
  rintro (_ | _ | _) <;> decide +kernel

theorem bootName_ne_appName : ∀ t t', bootName t ≠ appName t' := by
  rintro (_ | _ | _) (_ | _ | _) <;> decide +kernel

theorem bootName_inj : ∀ t t', bootName t = bootName t' → t = t' := by
  rintro (_ | _ | _) (_ | _ | _) <;> decide +kernel

theorem appName_inj : ∀ t t', appName t = appName t' → t = t' := by
  rintro (_ | _ | _) (_ | _ | _) <;> decide +kernel

theorem normalized_key_inj : ∀ t t' : Target, normalized t.key = normalized t'.key → t = t' := by
  rintro (_ | _ | _) (_ | _ | _) <;> decide +kernel

/-- A record of an image. -/
structure Records (sha256 : List UInt8 → List UInt8) (img : ManifestImage) (filename : String)
    (offset : ℕ) (data : List UInt8) : Prop where
  filename : img.filename = filename
  offset : img.offset = .text (offsetText offset)
  digest : img.sha256 = some (computeSHA256 sha256 data)

/-- The records of the images of a target. -/
def RecordsAll (sha256 : List UInt8 → List UInt8) (cfg : TargetConfig) (t : Target)
    (pkg : Package) : Prop :=
  ∃ boot part app, cfg.images = some [boot, part, app] ∧
    Records sha256 boot (bootName t) (offsetBoot t) pkg.boot ∧
    Records sha256 part partName offsetPart pkg.part ∧
    Records sha256 app (appName t) (offsetApp t) pkg.app

/-- The directory with the images of a target. -/
def stock (dir : Directory) (t : Target) (pkg : Package) : Directory :=
  Function.update (Function.update (Function.update dir (bootName t) (some pkg.boot)) partName
    (some pkg.part)) (appName t) (some pkg.app)

theorem stock_bootName (dir : Directory) (t : Target) (pkg : Package) :
    stock dir t pkg (bootName t) = some pkg.boot := by
  rw [stock, Function.update_of_ne (bootName_ne_appName t t),
    Function.update_of_ne (bootName_ne_partName t), Function.update_self]

theorem stock_partName (dir : Directory) (t : Target) (pkg : Package) :
    stock dir t pkg partName = some pkg.part := by
  rw [stock, Function.update_of_ne (appName_ne_partName t).symm, Function.update_self]

theorem stock_appName (dir : Directory) (t : Target) (pkg : Package) :
    stock dir t pkg (appName t) = some pkg.app := by
  rw [stock, Function.update_self]

/-- The images of the other targets are not replaced. -/
theorem stock_of_ne {name : String} (hboot : name ≠ bootName t) (hpart : name ≠ partName)
    (happ : name ≠ appName t) : stock dir t pkg name = dir name := by
  rw [stock, Function.update_of_ne happ, Function.update_of_ne hpart, Function.update_of_ne hboot]

/-- The samples of a target are put into the directory, and recorded. -/
theorem createSampleBinaries_spec (urandom : String → ℕ → List UInt8) (dir : Directory)
    (t : Target) :
    ∃ images, createSampleBinaries sha256 urandom dir t =
        (stock dir t ⟨sampleData urandom (bootName t) 28672, sampleData urandom partName 3072,
          sampleData urandom (appName t) 419430⟩, images) ∧
      RecordsAll sha256 ⟨some images⟩ t ⟨sampleData urandom (bootName t) 28672,
        sampleData urandom partName 3072, sampleData urandom (appName t) 419430⟩ := by
  refine ⟨_, rfl, _, _, _, rfl, ⟨rfl, rfl, ?_⟩, ⟨rfl, rfl, ?_⟩, ⟨rfl, rfl, ?_⟩⟩ <;>
    exact congrArg some (congrArg (computeSHA256 sha256) (by rw [Function.update_self]; rfl))

/-- What a run packages of a target is put into the directory, and recorded. -/
theorem packageTarget_of_some (hpkg : run.package t = some pkg) :
    ∃ cfg, packageTarget sha256 run (dir, targets) t =
        some (stock dir t pkg, assign targets t.key cfg) ∧ RecordsAll sha256 cfg t pkg := by
  rw [Run.package] at hpkg
  by_cases hsample : run.generateSample = true
  · rw [if_pos hsample] at hpkg
    obtain rfl := Option.some.inj hpkg
    obtain ⟨images, heq, hrecords⟩ := createSampleBinaries_spec run.urandom dir t
    exact ⟨_, by rw [packageTarget, if_pos hsample, heq], hrecords⟩
  · rw [if_neg hsample] at hpkg
    rw [packageTarget, if_neg hsample]
    split at hpkg
    · next app boot part _ _ _ =>
      obtain rfl := Option.some.inj hpkg
      refine ⟨_, rfl, _, _, _, rfl, ⟨rfl, rfl, ?_⟩, ⟨rfl, rfl, ?_⟩, ⟨rfl, rfl, ?_⟩⟩
      · exact congrArg (some ∘ computeSHA256 sha256 ∘ (Option.getD · []))
          (stock_bootName dir t ⟨boot, part, app⟩)
      · exact congrArg (some ∘ computeSHA256 sha256 ∘ (Option.getD · []))
          (stock_partName dir t ⟨boot, part, app⟩)
      · exact congrArg (some ∘ computeSHA256 sha256 ∘ (Option.getD · []))
          (stock_appName dir t ⟨boot, part, app⟩)
    · cases hpkg

theorem packageTarget_of_none (hpkg : run.package t = none) :
    packageTarget sha256 run (dir, targets) t = none := by
  rw [Run.package] at hpkg
  split_ifs at hpkg with hsample
  rw [packageTarget, if_neg hsample]
  split at hpkg
  · cases hpkg
  · rfl

/-! ## The directory and the manifest -/

/-- Keys that mean a target are its text. -/
def Canonical (targets : List (String × TargetConfig)) : Prop :=
  ∀ e ∈ targets, ∀ t : Target, normalized e.1 = normalized t.key → e.1 = t.key

/-- The entry of a target, as it is found by the flasher. -/
def entry (targets : List (String × TargetConfig)) (t : Target) : Option (String × TargetConfig) :=
  targets.find? fun e => decide (normalized e.1 = normalized t.key)

/-- What has been packaged is in the directory and in the manifest, except for the tables of
    partitions that have been replaced. -/
structure Stocked (sha256 : List UInt8 → List UInt8) (s : Shelf) (dir : Directory)
    (targets : List (String × TargetConfig)) : Prop where
  canonical : Canonical targets
  table : dir partName = s.table
  shared : ∀ t pkg, s.packages t = some pkg → ∃ table, s.table = some table
  boot : ∀ t pkg, s.packages t = some pkg → dir (bootName t) = some pkg.boot
  app : ∀ t pkg, s.packages t = some pkg → dir (appName t) = some pkg.app
  records : ∀ t pkg, s.packages t = some pkg →
    ∃ cfg, entry targets t = some (t.key, cfg) ∧ RecordsAll sha256 cfg t pkg

theorem Canonical.assign (h : Canonical targets) (t : Target) (cfg : TargetConfig) :
    Canonical (assign targets t.key cfg) := by
  rintro ⟨key, cfg'⟩ he t' hnorm
  obtain heq | ⟨cfg'', hmem⟩ := exists_mem_assign ⟨cfg', he⟩
  · obtain rfl : key = t.key := heq
    rw [normalized_key_inj t t' hnorm]
  · exact h (key, cfg'') hmem t' hnorm

/-- An iteration keeps the directory and the manifest as the shelf has them. -/
theorem Stocked.put (h : Stocked sha256 s dir targets) (hrecords : RecordsAll sha256 cfg t pkg) :
    Stocked sha256 (s.put t pkg) (stock dir t pkg) (assign targets t.key cfg) where
  canonical := h.canonical.assign t cfg
  table := stock_partName dir t pkg
  shared _ _ _ := ⟨_, rfl⟩
  boot t' pkg' hpkg' := by
    rcases eq_or_ne t' t with rfl | hne
    · obtain rfl : pkg = pkg' := by simpa [Shelf.put] using hpkg'
      exact stock_bootName dir t' pkg
    · rw [stock_of_ne (fun heq => hne (bootName_inj t' t heq)) (bootName_ne_partName t')
        (bootName_ne_appName t' t)]
      exact h.boot t' pkg' (by simpa [Shelf.put, hne] using hpkg')
  app t' pkg' hpkg' := by
    rcases eq_or_ne t' t with rfl | hne
    · obtain rfl : pkg = pkg' := by simpa [Shelf.put] using hpkg'
      exact stock_appName dir t' pkg
    · rw [stock_of_ne (bootName_ne_appName t t').symm (appName_ne_partName t')
        (fun heq => hne (appName_inj t' t heq))]
      exact h.app t' pkg' (by simpa [Shelf.put, hne] using hpkg')
  records t' pkg' hpkg' := by
    rcases eq_or_ne t' t with rfl | hne
    · obtain rfl : pkg = pkg' := by simpa [Shelf.put] using hpkg'
      refine ⟨cfg, ?_, hrecords⟩
      refine find?_assign_self (P := fun key => decide (normalized key = normalized t'.key))
        (decide_eq_true rfl) fun e he hP => ?_
      exact h.canonical e he t' (of_decide_eq_true hP)
    · obtain ⟨cfg', hentry, hrecords'⟩ := h.records t' pkg' (by simpa [Shelf.put, hne] using hpkg')
      refine ⟨cfg', ?_, hrecords'⟩
      rw [← hentry]
      refine find?_assign_of_not (P := fun key => decide (normalized key = normalized t'.key))
        (decide_eq_false fun hnorm => hne ?_)
      exact (normalized_key_inj t t' hnorm).symm

/-- The loop over the targets does what is done to the shelf. -/
theorem Stocked.foldlM (h : Stocked sha256 s dir targets) (run : Run) (ts : List Target) :
    match ts.foldlM (packageTarget sha256 run) (dir, targets),
      ts.foldlM (fun s t => (run.package t).map (s.put t)) s with
    | some (dir', targets'), some s' => Stocked sha256 s' dir' targets'
    | none, none => True
    | _, _ => False := by
  induction ts generalizing s dir targets with
  | nil => exact h
  | cons t ts ih =>
    rw [List.foldlM_cons, List.foldlM_cons]
    cases hpkg : run.package t with
    | none =>
      rw [packageTarget_of_none hpkg]
      trivial
    | some pkg =>
      obtain ⟨cfg, heq, hrecords⟩ := packageTarget_of_some hpkg
      rw [heq]
      exact ih (h.put hrecords)

/-! ## The disk -/

/-- The first release of a manifest is the latest one, and its targets have their own keys. -/
def Regular (m : Manifest) : Prop :=
  ∃ release rest, m.releases = release :: rest ∧ release.version = m.latest ∧
    Canonical (release.targets.getD [])

/-- The targets of the first release. -/
def Disk.entries (d : Disk) : List (String × TargetConfig) :=
  ((d.manifest.bind fun m => m.releases.head?).bind Release.targets).getD []

/-- The disk has what is on the shelf, and its manifest is published once something is. -/
structure Disk.Holds (sha256 : List UInt8 → List UInt8) (d : Disk) (s : Shelf) : Prop where
  regular : ∀ m, d.manifest = some m → Regular m
  stocked : Stocked sha256 s d.flasherDest d.entries
  published : ∀ t pkg, s.packages t = some pkg → ∃ m, d.manifest = some m ∧ d.published = some m

/-- The manifest that a run starts from. -/
theorem manifestData_spec (h : ∀ m, d.manifest = some m → Regular m) (version : String) :
    ∃ release rest, (d.manifest.getD ⟨version, [⟨version, some []⟩]⟩).releases = release :: rest ∧
      release.version = (d.manifest.getD ⟨version, [⟨version, some []⟩]⟩).latest ∧
      release.targets.getD [] = d.entries := by
  cases hm : d.manifest with
  | none => exact ⟨_, [], rfl, rfl, by rw [Disk.entries, hm]; rfl⟩
  | some m =>
    obtain ⟨release, rest, hreleases, hlatest, -⟩ := h m hm
    refine ⟨release, rest, hreleases, hlatest, ?_⟩
    rw [Disk.entries, hm, Option.bind_some, hreleases]
    rfl

/-- A run does to the disk what it does to the shelf. -/
theorem Disk.Holds.after (h : d.Holds sha256 s) (run : Run) :
    ((main sha256 d run).getD d).Holds sha256 (s.after run) := by
  obtain ⟨release, rest, hreleases, hlatest, htargets⟩ := manifestData_spec h.regular run.version
  have hloop := h.stocked.foldlM run run.targetsToBuild
  rw [main, hreleases]
  dsimp only
  rw [htargets, Shelf.after]
  revert hloop
  cases run.targetsToBuild.foldlM (packageTarget sha256 run) (d.flasherDest, d.entries) with
  | none =>
    cases run.targetsToBuild.foldlM (fun s t => (run.package t).map (s.put t)) s with
    | none => exact fun _ => h
    | some s' => exact False.elim
  | some x =>
    cases run.targetsToBuild.foldlM (fun s t => (run.package t).map (s.put t)) s with
    | none => exact False.elim
    | some s' =>
      intro hstocked
      refine ⟨?_, hstocked, fun _ _ _ => ⟨_, rfl, rfl⟩⟩
      intro m hm
      obtain rfl := Option.some.inj hm
      exact ⟨_, rest, rfl, hlatest, hstocked.canonical⟩

open FirmwareManager Click

variable {img : ManifestImage} {k : ℕ} {data data' : List UInt8} {images : List PreparedImage}
  {p q : WebSerialPort}

/-- The images of a target, with the offsets they go to. -/
def placed (t : Target) (pkg : Package) (table : List UInt8) : List (Option ℤ × List UInt8) :=
  [(some (offsetBoot t : ℤ), pkg.boot), (some (offsetPart : ℤ), table),
    (some (offsetApp t : ℤ), pkg.app)]

end SliverOS.Packaging
