import SliverOS.Bytes.Memory
import SliverOS.Kernel.Types

/-!
# The arena allocator

`os/kernel/memory_manager.c`: a heap in a static arena, over the bytes of the
memory. A pointer is an address, `NULL` is zero, and the header of a block is
the structure stored at its address, read and written as a whole: an assignment
to a field writes the others back as they were.

The width of pointers and the place of the arena are those of a `Platform`.
-/

namespace SliverOS

open Bytes

/-- `MK_ARENA_SIZE`. -/
def arenaSize : ℕ := 128 * 1024

/-- The width of pointers and of `size_t`, and the address of `s_arena_buffer`. -/
structure Platform where
  ptrBytes : ℕ
  arenaStart : ℕ
  ptrBytes_eq : ptrBytes = 4 ∨ ptrBytes = 8
  arenaStart_pos : 0 < arenaStart
  arenaStart_aligned : 8 ∣ arenaStart
  arenaEnd_lt : arenaStart + arenaSize < 256 ^ ptrBytes

namespace Platform

variable (pl : Platform)

/-- One past the last address of the arena. -/
def arenaEnd : ℕ := pl.arenaStart + arenaSize

/-- `sizeof(mk_mem_block_t)`. -/
def headerSize : ℕ := 16 + 2 * pl.ptrBytes

/-- Arithmetic in `size_t`. -/
def wrap (n : ℕ) : ℕ := n % 256 ^ pl.ptrBytes

end Platform

/-- `MK_BLOCK_MAGIC_ALLOC`. -/
def blockMagicAlloc : ℕ := 0x55AA55AA

/-- `MK_BLOCK_MAGIC_FREE`. -/
def blockMagicFree : ℕ := 0xAA55AA55

/-- `MK_ALIGN`: a size rounded up to a multiple of `MK_ALIGNMENT`. -/
def align (n : ℕ) : ℕ := (n + 7) / 8 * 8

/-- `MK_MIN_PAYLOAD`. -/
def minPayload : ℕ := 8

/-! ## Headers -/

/-- `mk_mem_block_t`. -/
structure MkMemBlock where
  magic : ℕ
  size : ℕ
  prev : ℕ
  next : ℕ
  isFree : ℕ
  padding : ℕ
  deriving DecidableEq

namespace Platform

variable (pl : Platform)

/-- The widths of the fields of a header. -/
def headerWidths : List ℕ := [4, 4, pl.ptrBytes, pl.ptrBytes, 4, 4]

/-- The header stored at an address. -/
def header (m : Memory) (p : ℕ) : MkMemBlock :=
  match unpack pl.headerWidths (slice m p pl.headerSize) with
  | [magic, size, prev, next, isFree, padding] => ⟨magic, size, prev, next, isFree, padding⟩
  | _ => ⟨0, 0, 0, 0, 0, 0⟩

/-- The memory with a header stored at an address. -/
def setHeader (m : Memory) (p : ℕ) (h : MkMemBlock) : Memory :=
  blit m p (pack (pl.headerWidths.zip [h.magic, h.size, h.prev, h.next, h.isFree, h.padding]))

/-- Assignments to fields of the header at an address. -/
def modify (m : Memory) (p : ℕ) (f : MkMemBlock → MkMemBlock) : Memory :=
  pl.setHeader m p (f (pl.header m p))

end Platform

/-! ## The code -/

/-- `mk_mem_stats_t`. -/
structure MkMemStats where
  totalCapacity : ℕ
  usedBytes : ℕ
  freeBytes : ℕ
  peakUsedBytes : ℕ
  allocationCount : UInt32
  freeCount : UInt32
  failedAllocations : UInt32
  corruptionCount : UInt32
  doubleFreeAttempts : UInt32
  invalidPtrAttempts : UInt32
  deriving DecidableEq

/-- The memory, the static variables of the allocator, and the faults it reports. -/
structure MemoryManager where
  mem : Memory
  headBlock : ℕ
  initialized : Bool
  stats : MkMemStats
  faults : List MkFault

namespace MemoryManager

variable (pl : Platform)

/-- `mk_memory_init`. -/
def mkMemoryInit (s : MemoryManager) : MemoryManager :=
  let size := arenaSize - pl.headerSize
  { s with
    mem := pl.modify s.mem pl.arenaStart fun _ => ⟨blockMagicFree, size, 0, 0, 1, 0⟩
    headBlock := pl.arenaStart
    initialized := true
    stats := ⟨size, 0, size, 0, 0, 0, 0, 0, 0, 0⟩ }

/-- A fault of the subsystem. -/
def fault (s : MemoryManager) (code : MkFaultCode) (severity : MkFaultSeverity)
    (errorCode context : UInt32) : MemoryManager :=
  { s with faults := s.faults ++ [⟨code, .memory, severity, errorCode, context⟩] }

/-- What the first-fit search of `my_malloc` ends with. -/
inductive Search
  | found (curr : ℕ)
  | corrupted (curr : ℕ)
  | exhausted
  deriving DecidableEq

/-- The loop of `my_malloc` from the block `curr` on, for at most as many blocks
    as `fuel`. -/
def search (m : Memory) (alignedSize : ℕ) : ℕ → ℕ → Search
  | 0, _ => .exhausted
  | fuel + 1, curr =>
    if curr = 0 then .exhausted
    else
      let h := pl.header m curr
      if h.magic ≠ blockMagicFree ∧ h.magic ≠ blockMagicAlloc then .corrupted curr
      else if h.isFree ≠ 0 ∧ alignedSize ≤ h.size then .found curr
      else search m alignedSize fuel h.next

/-- The block `curr` split, when its excess can be another block. -/
def split (m : Memory) (curr alignedSize : ℕ) : Memory :=
  let excess := (pl.header m curr).size - alignedSize
  if pl.headerSize + minPayload ≤ excess then
    let newBlock := curr + pl.headerSize + alignedSize
    let next := (pl.header m curr).next
    let m := pl.modify m newBlock fun _ =>
      { magic := blockMagicFree
        size := excess - pl.headerSize
        isFree := 1
        padding := 0
        prev := curr
        next }
    let m := if next ≠ 0 then pl.modify m next ({ · with prev := newBlock }) else m
    pl.modify m curr ({ · with next := newBlock, size := alignedSize })
  else m

/-- The counts of `my_malloc` for an allocated block of `size` bytes. -/
def countAlloc (st : MkMemStats) (size : ℕ) : MkMemStats :=
  let usedBytes := pl.wrap (st.usedBytes + size)
  { st with
    usedBytes
    freeBytes := if size + pl.headerSize ≤ st.freeBytes then st.freeBytes - size else 0
    peakUsedBytes := max st.peakUsedBytes usedBytes
    allocationCount := st.allocationCount + 1 }

/-- `my_malloc`: the allocator after it, and the pointer returned. There are
    fewer blocks to search than bytes in the arena. -/
def myMalloc (s : MemoryManager) (size : ℕ) : MemoryManager × ℕ :=
  let s := if s.initialized then s else s.mkMemoryInit pl
  if size = 0 ∨ arenaSize - pl.headerSize < size then
    ({ s with stats := { s.stats with failedAllocations := s.stats.failedAllocations + 1 } }, 0)
  else
    let alignedSize := align size
    match search pl s.mem alignedSize arenaSize s.headBlock with
    | .corrupted curr =>
      let s := { s with stats := { s.stats with
        corruptionCount := s.stats.corruptionCount + 1
        failedAllocations := s.stats.failedAllocations + 1 } }
      (s.fault .memoryCorruption .critical 0xBAD00001 (UInt32.ofNat curr), 0)
    | .found curr =>
      let m := split pl s.mem curr alignedSize
      let m := pl.modify m curr ({ · with magic := blockMagicAlloc, isFree := 0 })
      ({ s with mem := m, stats := countAlloc pl s.stats (pl.header m curr).size },
        curr + pl.headerSize)
    | .exhausted =>
      let s := { s with stats := { s.stats with
        failedAllocations := s.stats.failedAllocations + 1 } }
      (s.fault .memoryExhausted .warning (UInt32.ofNat alignedSize) 0, 0)

/-- The block `x` coalesced with `y`, the one after it. -/
def coalesce (m : Memory) (x y : ℕ) : Memory :=
  let next := (pl.header m y).next
  let m := pl.modify m x fun h =>
    { h with size := h.size + (pl.headerSize + (pl.header m y).size), next }
  if next ≠ 0 then pl.modify m next ({ · with prev := x }) else m

/-- The condition of the forward coalescing of `my_free`. -/
def nextIsFree (m : Memory) (block : ℕ) : Bool :=
  (pl.header m block).next ≠ 0 ∧ (pl.header m (pl.header m block).next).isFree ≠ 0

/-- The condition of the backward coalescing. -/
def prevIsFree (m : Memory) (block : ℕ) : Bool :=
  (pl.header m block).prev ≠ 0 ∧ (pl.header m (pl.header m block).prev).isFree ≠ 0

/-- The forward coalescing, with the next block. -/
def coalesceNext (m : Memory) (block : ℕ) : Memory :=
  if nextIsFree pl m block then coalesce pl m block (pl.header m block).next else m

/-- The backward coalescing, with the previous block. -/
def coalescePrev (m : Memory) (block : ℕ) : Memory :=
  if prevIsFree pl m block then coalesce pl m (pl.header m block).prev block else m

/-- The release of a block, in `my_free`. Each coalescing gains a header. -/
def freeBlock (s : MemoryManager) (block : ℕ) : MemoryManager :=
  let marked := pl.modify s.mem block ({ · with magic := blockMagicFree, isFree := 1 })
  let size := (pl.header marked block).size
  let joined := coalesceNext pl marked block
  let freeBytes := pl.wrap (s.stats.freeBytes + size)
  let freeBytes :=
    if nextIsFree pl marked block then pl.wrap (freeBytes + pl.headerSize) else freeBytes
  let freeBytes :=
    if prevIsFree pl joined block then pl.wrap (freeBytes + pl.headerSize) else freeBytes
  { s with
    mem := coalescePrev pl joined block
    stats := { s.stats with
      usedBytes := if size ≤ s.stats.usedBytes then s.stats.usedBytes - size else 0
      freeBytes
      freeCount := s.stats.freeCount + 1 } }

/-- `my_free`. -/
def myFree (s : MemoryManager) (ptr : ℕ) : MemoryManager :=
  if ptr = 0 ∨ s.initialized = false then s
  else if ptr < pl.arenaStart + pl.headerSize ∨ pl.arenaEnd ≤ ptr then
    { s with stats := { s.stats with invalidPtrAttempts := s.stats.invalidPtrAttempts + 1 } }.fault
      .memoryInvalidPtr .warning 0xBAD00002 (UInt32.ofNat ptr)
  else if ptr % 8 ≠ 0 then
    { s with stats := { s.stats with invalidPtrAttempts := s.stats.invalidPtrAttempts + 1 } }.fault
      .memoryInvalidPtr .warning 0xBAD00003 (UInt32.ofNat ptr)
  else
    let block := ptr - pl.headerSize
    let h := pl.header s.mem block
    if h.magic = blockMagicFree ∨ h.isFree ≠ 0 then
      { s with stats := { s.stats with
        doubleFreeAttempts := s.stats.doubleFreeAttempts + 1 } }.fault
          .memoryDoubleFree .warning 0xBAD00004 (UInt32.ofNat ptr)
    else if h.magic ≠ blockMagicAlloc then
      { s with stats := { s.stats with
        corruptionCount := s.stats.corruptionCount + 1
        invalidPtrAttempts := s.stats.invalidPtrAttempts + 1 } }.fault
          .memoryCorruption .critical 0xBAD00005 (UInt32.ofNat ptr)
    else s.freeBlock pl block

end MemoryManager

end SliverOS
