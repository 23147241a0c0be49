import SliverOS.Streams.Run
import SliverOS.Vfs.Names

/-!
# A table of files

What the file system is, without a flash: sixteen files, each a name and a list of bytes, and
eight descriptors, each a position in a file. Nothing is stored in sectors, and no superblock
is written.

Two properties of the flash are left to see. The bytes of a file are at most those of a sector
(`Store.write`); and a sector is erased to be written or to be given up, so that `0xFF` is read
where nothing was written since (`overwrite`, `Store.remove`).
-/

namespace SliverOS

/-! ## Contents -/

/-- The byte of an erased sector. -/
def erasedByte : UInt8 := 0xFF

/-- Contents of which the bytes from a position on are written: those before it are kept, and
    those after the bytes written are erased. -/
def overwrite (contents : List UInt8) (position : ℕ) (bytes : List UInt8) : List UInt8 :=
  ((contents.take position).rightpad position erasedByte ++ bytes).rightpad contents.length
    erasedByte

theorem length_overwrite (contents : List UInt8) (position : ℕ) (bytes : List UInt8) :
    (overwrite contents position bytes).length =
      max contents.length (position + bytes.length) := by
  rw [overwrite, List.length_rightpad, List.length_append, List.length_rightpad,
    List.length_take]
  omega

/-! ## Files and descriptors -/

/-- A file of the table. -/
structure StoredFile where
  name : List UInt8
  contents : List UInt8
  flags : UInt32
  inUse : Bool
  deriving DecidableEq

/-- A descriptor of the table. -/
structure Descriptor where
  file : Fin 16
  position : ℕ
  flags : UInt32
  isOpen : Bool
  deriving DecidableEq

/-- The table. Its files may outlast the power. -/
@[ext]
structure Store where
  persistent : Bool
  files : Fin 16 → StoredFile
  descriptors : Fin 8 → Descriptor

/-- What a call of the file system returns. -/
inductive Reply
  | status (status : MkStatus)
  | opened (result : Except MkStatus (Fin 8))
  | bytes (result : Except MkStatus (List UInt8))
  | count (result : Except MkStatus ℕ)
  deriving DecidableEq

namespace Store

variable (t : Store)

/-- The table with another file in a slot. -/
def setFile (i : Fin 16) (f : StoredFile) : Store := { t with files := Function.update t.files i f }

/-- The table with a descriptor changed. -/
def setDescriptor (d : Fin 8) (e : Descriptor) : Store :=
  { t with descriptors := Function.update t.descriptors d e }

/-- The file that a descriptor is on. -/
def fileOf (d : Fin 8) : StoredFile := t.files (t.descriptors d).file

/-- No descriptor is open. -/
def closed : Fin 8 → Descriptor := fun _ => ⟨0, 0, 0, false⟩

/-- The files of a file system just formatted. -/
def defaultFiles (i : Fin 16) : StoredFile :=
  if i = 0 then ⟨ascii "macro.txt", Vfs.defaultMacro, 0, true⟩
  else if i = 1 then ⟨ascii "wifi_audit.log", [], 0, true⟩
  else ⟨[], [], 0, false⟩

/-- A file system just formatted. -/
def formatted (persistent : Bool) : Store := ⟨persistent, defaultFiles, closed⟩

/-- The table after the power was off. -/
def mounted : Store := if t.persistent then { t with descriptors := closed } else formatted false

/-! ## Names -/

/-- The first file in use with a name. -/
def find (name : List UInt8) : Option (Fin 16) :=
  (List.finRange 16).find? fun i => (t.files i).inUse ∧ (t.files i).name = (cString name).take 32

/-- The first slot not in use. -/
def freeSlot : Option (Fin 16) := (List.finRange 16).find? fun i => (t.files i).inUse = false

/-- The first descriptor not open. -/
def freeDescriptor : Option (Fin 8) :=
  (List.finRange 8).find? fun d => (t.descriptors d).isOpen = false

/-- The file that is opened, or created to be, with an empty one in its slot. -/
def target (name : List UInt8) (flags : UInt32) : Except MkStatus (Fin 16) × Store :=
  match t.find name with
  | some i => (.ok i, t)
  | none =>
    if flags &&& oCreat = 0 then (.error .notFound, t)
    else match t.freeSlot with
      | some i => (.ok i, t.setFile i ⟨(cString name).take 31, [], flags, true⟩)
      | none => (.error .noMemory, t)

/-! ## Calls -/

/-- A descriptor is opened on a file, at its start or at its end, and the file may be emptied. -/
def openOn (i : Fin 16) (d : Fin 8) (flags : UInt32) : Store :=
  if flags &&& oTrunc ≠ 0 then
    (t.setFile i { t.files i with contents := [] }).setDescriptor d ⟨i, 0, flags, true⟩
  else
    t.setDescriptor d
      ⟨i, if flags &&& oAppend ≠ 0 then (t.files i).contents.length else 0, flags, true⟩

/-- A file is opened. -/
def openFile (path : List UInt8) (flags : UInt32) : Except MkStatus (Fin 8) × Store :=
  match t.target (fname path) flags with
  | (.error status, t) => (.error status, t)
  | (.ok i, t) => match t.freeDescriptor with
    | none => (.error .busy, t)
    | some d => (.ok d, t.openOn i d flags)

/-- Bytes are read from the position of a descriptor on. -/
def read (fd : ℤ) (size : ℕ) : Except MkStatus (List UInt8) × Store :=
  match Vfs.fd? fd with
  | none => (.error .invalidArg, t)
  | some d =>
    let e := t.descriptors d
    if !e.isOpen then (.error .invalidState, t)
    else
      let bytes := ((t.fileOf d).contents.drop e.position).take size
      (.ok bytes, t.setDescriptor d { e with position := e.position + bytes.length })

/-- Bytes are written from the position of a descriptor on. -/
def write (fd : ℤ) (bytes : List UInt8) : Except MkStatus ℕ × Store :=
  match Vfs.fd? fd with
  | none => (.error .invalidArg, t)
  | some d =>
    let e := t.descriptors d
    if !e.isOpen ∨ e.flags &&& oRdonly ≠ 0 then (.error .invalidState, t)
    else if sectorSize < e.position + bytes.length then (.error .noMemory, t)
    else
      let f := t.fileOf d
      let t := t.setFile e.file { f with contents := overwrite f.contents e.position bytes }
      (.ok bytes.length, t.setDescriptor d { e with position := e.position + bytes.length })

variable {t} {d : Fin 8} {size : ℕ} {bytes : List UInt8}

theorem read_of_closed (h : ¬(t.descriptors d).isOpen = true) :
    t.read (d : ℕ) size = (.error .invalidState, t) := by
  rw [read, Vfs.fd?_eq]
  exact if_pos (by simpa using h)

theorem read_of_open (h : (t.descriptors d).isOpen = true) :
    t.read (d : ℕ) size =
      let bytes := ((t.fileOf d).contents.drop (t.descriptors d).position).take size
      (.ok bytes, t.setDescriptor d
        { t.descriptors d with position := (t.descriptors d).position + bytes.length }) := by
  rw [read, Vfs.fd?_eq]
  exact if_neg (by simp [h])

/-- A descriptor is open, for writing. -/
def Writable (t : Store) (d : Fin 8) : Prop :=
  (t.descriptors d).isOpen = true ∧ (t.descriptors d).flags &&& oRdonly = 0

theorem write_of_not_writable (h : ¬t.Writable d) :
    t.write (d : ℕ) bytes = (.error .invalidState, t) := by
  rw [write, Vfs.fd?_eq]
  refine if_pos ?_
  rcases not_and_or.1 h with hclosed | hflags
  · exact .inl (by simpa using hclosed)
  · exact .inr hflags

theorem write_of_writable (h : t.Writable d) : t.write (d : ℕ) bytes =
    if sectorSize < (t.descriptors d).position + bytes.length then (.error .noMemory, t)
    else
      let contents := overwrite (t.fileOf d).contents (t.descriptors d).position bytes
      (.ok bytes.length,
        (t.setFile (t.descriptors d).file { t.fileOf d with contents }).setDescriptor d
          { t.descriptors d with position := (t.descriptors d).position + bytes.length }) := by
  rw [write, Vfs.fd?_eq]
  exact if_neg (by simp [h.1, h.2])

variable (t)

/-- A descriptor is closed. -/
def close (fd : ℤ) : MkStatus × Store :=
  match Vfs.fd? fd with
  | none => (.invalidArg, t)
  | some d =>
    if !(t.descriptors d).isOpen then (.invalidArg, t)
    else (.ok, t.setDescriptor d { t.descriptors d with isOpen := false })

/-- The slot of a file is given up. -/
def remove (i : Fin 16) : Store :=
  t.setFile i { t.files i with
    contents := List.replicate (t.files i).contents.length erasedByte
    inUse := false }

/-- A file is deleted. -/
def delete (path : List UInt8) : MkStatus × Store :=
  match t.find (fname path) with
  | none => (.notFound, t)
  | some i => (.ok, t.remove i)

/-- The size and the flags of a file. -/
def stat (path : List UInt8) : Except MkStatus MkVfsStat :=
  match t.find (fname path) with
  | none => .error .notFound
  | some i => .ok ⟨(t.files i).contents.length, (t.files i).flags, 0, 0⟩

/-- A call, with what it returns. -/
def exec : Vfs.Call → Reply × Store
  | .vfsInit => (.status .ok, t.mounted)
  | .vfsOpen path flags => (.opened (t.openFile path flags).1, (t.openFile path flags).2)
  | .vfsRead fd size => (.bytes (t.read fd size).1, (t.read fd size).2)
  | .vfsWrite fd bytes => (.count (t.write fd bytes).1, (t.write fd bytes).2)
  | .vfsClose fd => (.status (t.close fd).1, (t.close fd).2)
  | .vfsDelete path => (.status (t.delete path).1, (t.delete path).2)

/-- The table after some calls. -/
def run (calls : List Vfs.Call) : Store := calls.foldl (fun t c => (t.exec c).2) t

/-- What some calls return, one after the other. -/
def replies (calls : List Vfs.Call) : List Reply :=
  Streams.collect (fun t c => (exec t c).2) (fun t c => [(exec t c).1]) t calls

end Store

end SliverOS
