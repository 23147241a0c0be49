import SliverOS.Heap.Linked
import SliverOS.Kernel.Types

/-!
# The pool allocator

`os/kernel/memory_pool.c`: blocks of five sizes, those of each size in a buffer,
each with a header before it. The blocks that are not in use are in a free list for
each size. A pointer is an address, `NULL` is zero, and a header is the structure
stored at its address.

A header has 16 bytes: it has a pointer, and `_Static_assert` asks for a multiple
of 8, so that pointers have 8 bytes. The places of the buffers are those of a
`PoolBuffers`.
-/

namespace SliverOS

/-- `s_block_sizes`. -/
def blockSizes : Fin 5 → ℕ := ![16, 32, 64, 128, 256]

/-- `s_class_counts`. -/
def classCounts : Fin 5 → ℕ := ![32, 32, 32, 16, 8]

/-- `sizeof(mk_pool_node_t)`. -/
def nodeSize : ℕ := 16

/-- `slot_size`: a header and its block. -/
def slotSize (c : Fin 5) : ℕ := nodeSize + blockSizes c

/-- The addresses of `s_pool_buffers`, which do not overlap. -/
structure PoolBuffers where
  base : Fin 5 → ℕ
  base_pos : ∀ c, 0 < base c
  apart : ∀ c d, c ≠ d → base c + classCounts c * slotSize c ≤ base d ∨
    base d + classCounts d * slotSize d ≤ base c

/-- The address of a header of a class. -/
def PoolBuffers.nodeAt (B : PoolBuffers) (c : Fin 5) (i : ℕ) : ℕ := B.base c + i * slotSize c

/-- `MK_POOL_MAGIC_ALLOC`. -/
def poolMagicAlloc : UInt32 := 0x504F4F4C

/-- `MK_POOL_MAGIC_FREE`. -/
def poolMagicFree : UInt32 := 0x46524545

/-- `mk_pool_node_t`. -/
structure MkPoolNode where
  magic : UInt32
  classIdx : UInt8
  inUse : UInt8
  reserved : UInt16
  nextFree : ℕ
  deriving DecidableEq

/-- `mk_pool_class_stats_t`. -/
structure MkPoolClassStats where
  blockSize : ℕ
  totalBlocks : UInt32
  allocatedBlocks : UInt32
  peakAllocated : UInt32
  allocationFailures : UInt32
  deriving DecidableEq

/-- `mk_pool_stats_t`. -/
structure MkPoolStats where
  totalCapacityBytes : ℕ
  totalUsedBytes : ℕ
  classes : Fin 5 → MkPoolClassStats

/-- The headers at their addresses, the static variables, and the faults reported. -/
structure MemoryPool where
  nodes : ℕ → MkPoolNode
  freeHeads : Fin 5 → ℕ
  stats : MkPoolStats
  initialized : Bool
  faults : List MkFault

namespace MemoryPool

variable (B : PoolBuffers)

/-- The headers and the static variables before any call. -/
def zero : MemoryPool :=
  ⟨fun _ => ⟨0, 0, 0, 0, 0⟩, fun _ => 0, ⟨0, 0, fun _ => ⟨0, 0, 0, 0, 0⟩⟩, false, []⟩

/-- Assignments to fields of the statistics of a class. -/
def setClass (s : MemoryPool) (c : Fin 5) (st : MkPoolClassStats) : MemoryPool :=
  { s with stats := { s.stats with classes := Function.update s.stats.classes c st } }

/-- A fault of the subsystem. -/
def fault (s : MemoryPool) (code : MkFaultCode) (severity : MkFaultSeverity)
    (errorCode context : UInt32) : MemoryPool :=
  { s with faults := s.faults ++ [⟨code, .memory, severity, errorCode, context⟩] }

/-- A pass of the inner loop of `mk_pool_init`: a node is put in the free list. -/
def initNode (c : Fin 5) (s : MemoryPool) (i : ℕ) : MemoryPool :=
  let node := B.nodeAt c i
  { s with
    nodes := Function.update s.nodes node
      ⟨poolMagicFree, UInt8.ofNat c, 0, 0, s.freeHeads c⟩
    freeHeads := Function.update s.freeHeads c node }

/-- The start of a pass of the outer loop of `mk_pool_init`: a class without nodes. -/
def initStats (s : MemoryPool) (c : Fin 5) : MemoryPool :=
  let s := s.setClass c { s.stats.classes c with
    blockSize := blockSizes c
    totalBlocks := UInt32.ofNat (classCounts c) }
  { s with
    stats := { s.stats with
      totalCapacityBytes := s.stats.totalCapacityBytes + classCounts c * blockSizes c }
    freeHeads := Function.update s.freeHeads c 0 }

/-- A pass of the outer loop of `mk_pool_init`: a class. -/
def initClass (s : MemoryPool) (c : Fin 5) : MemoryPool :=
  (List.range (classCounts c)).foldl (initNode B c) (s.initStats c)

/-- `mk_pool_init`. -/
def mkPoolInit (s : MemoryPool) : MemoryPool :=
  let s := { s with stats := ⟨0, 0, fun _ => ⟨0, 0, 0, 0, 0⟩⟩ }
  { (List.finRange 5).foldl (initClass B) s with initialized := true }

/-- The smallest class that fits a size. -/
def targetClass (size : ℕ) : Option (Fin 5) :=
  (List.finRange 5).find? fun c => size ≤ blockSizes c

/-- The end of `mk_pool_alloc`: the first node of the free list of a class. -/
def take (s : MemoryPool) (c : Fin 5) : MemoryPool :=
  let node := s.freeHeads c
  let s := { s with
    freeHeads := Function.update s.freeHeads c (s.nodes node).nextFree
    nodes := Function.update s.nodes node { s.nodes node with
      nextFree := 0
      magic := poolMagicAlloc
      inUse := 1 } }
  let st := s.stats.classes c
  let allocated := st.allocatedBlocks + 1
  let s := s.setClass c { st with
    allocatedBlocks := allocated
    peakAllocated := if st.peakAllocated < allocated then allocated else st.peakAllocated }
  { s with stats := { s.stats with
    totalUsedBytes := s.stats.totalUsedBytes + blockSizes c } }

/-- `mk_pool_alloc`: the pointer. -/
def mkPoolAlloc (s : MemoryPool) (size : ℕ) : ℕ × MemoryPool :=
  let s := if s.initialized then s else s.mkPoolInit B
  if size = 0 ∨ blockSizes 4 < size then (0, s)
  else match targetClass size with
    | none => (0, s)
    | some c =>
      if s.freeHeads c = 0 then
        let st := s.stats.classes c
        let s := s.setClass c { st with allocationFailures := st.allocationFailures + 1 }
        (0, s.fault .memoryExhausted .warning (UInt32.ofNat size) (UInt32.ofNat c))
      else (s.freeHeads c + nodeSize, s.take c)

/-- The end of `mk_pool_free`: a node is put in the free list of a class. -/
def putBack (s : MemoryPool) (node : ℕ) (c : Fin 5) : MemoryPool :=
  let s := { s with
    nodes := Function.update s.nodes node { s.nodes node with
      magic := poolMagicFree
      inUse := 0
      nextFree := s.freeHeads c }
    freeHeads := Function.update s.freeHeads c node }
  let st := s.stats.classes c
  let s := s.setClass c { st with
    allocatedBlocks := if 0 < st.allocatedBlocks then st.allocatedBlocks - 1
      else st.allocatedBlocks }
  { s with stats := { s.stats with
    totalUsedBytes :=
      if blockSizes c ≤ s.stats.totalUsedBytes then s.stats.totalUsedBytes - blockSizes c
      else s.stats.totalUsedBytes } }

/-- `mk_pool_free`. -/
def mkPoolFree (s : MemoryPool) (ptr : ℕ) : MemoryPool :=
  if ptr = 0 ∨ !s.initialized then s
  else
    let node := ptr - nodeSize
    if (s.nodes node).magic ≠ poolMagicAlloc ∨ (s.nodes node).inUse ≠ 1 then
      s.fault .memoryDoubleFree .warning 0xBAD10001 (UInt32.ofNat ptr)
    else if h : (s.nodes node).classIdx.toNat < 5 then
      s.putBack node ⟨(s.nodes node).classIdx.toNat, h⟩
    else s.fault .memoryCorruption .critical 0xBAD10002 0

end MemoryPool

/-! ## Headers -/

namespace PoolBuffers

variable {B : PoolBuffers} {c d : Fin 5} {p i j : ℕ}

/-- An address is that of a header of a class. -/
def IsNode (B : PoolBuffers) (c : Fin 5) (p : ℕ) : Prop := ∃ i < classCounts c, p = B.nodeAt c i

theorem slotSize_pos (c : Fin 5) : 0 < slotSize c := Nat.add_pos_left (by decide) _

theorem nodeAt_injective (B : PoolBuffers) (c : Fin 5) : Function.Injective (B.nodeAt c) :=
  fun _ _ h => Nat.eq_of_mul_eq_mul_right (slotSize_pos c) (Nat.add_left_cancel h)

theorem IsNode.ne_zero (h : B.IsNode c p) : p ≠ 0 := by
  obtain ⟨i, -, rfl⟩ := h
  exact Nat.ne_of_gt (Nat.add_pos_left (B.base_pos c) _)

/-- A header is that of one class. -/
theorem IsNode.class_eq (h : B.IsNode c p) (h' : B.IsNode d p) : c = d := by
  by_contra hne
  obtain ⟨i, hi, rfl⟩ := h
  obtain ⟨j, hj, heq⟩ := h'
  have hin : (i + 1) * slotSize c ≤ classCounts c * slotSize c := Nat.mul_le_mul_right _ hi
  have hjn : (j + 1) * slotSize d ≤ classCounts d * slotSize d := Nat.mul_le_mul_right _ hj
  have hc := slotSize_pos c
  have hd := slotSize_pos d
  rw [Nat.succ_mul] at hin hjn
  rw [nodeAt, nodeAt] at heq
  rcases B.apart c d hne with hapart | hapart
  · omega
  · omega

/-- Some different headers of a class are no more than it has. -/
theorem length_le_of_nodes {ps : List ℕ} (hnodup : ps.Nodup) (h : ∀ p ∈ ps, B.IsNode c p) :
    ps.length ≤ classCounts c := by
  have hsub : ps ⊆ (List.range (classCounts c)).map (B.nodeAt c) := fun p hp => by
    obtain ⟨i, hi, rfl⟩ := h p hp
    exact List.mem_map.2 ⟨i, List.mem_range.2 hi, rfl⟩
  have hlen := (List.subperm_of_subset hnodup hsub).length_le
  rwa [List.length_map, List.length_range] at hlen

end PoolBuffers

end SliverOS
