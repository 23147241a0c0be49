import SliverOS.Kernel.MemoryPool

/-!
# Runs of the pool allocator

A run starts with `mk_pool_init`; then blocks are allocated, and pointers returned
before are freed, also more than once (`Run`). For each class there is a free list
of the headers that are not in use, and the headers say what they are
(`ClassOk`). An allocation takes the first node of the list of its class, and a free
puts one back, and both leave the other classes alone (`ClassOk.congr`).
-/

namespace SliverOS

open Heap

namespace MemoryPool

/-- What a header of a class says: it is allocated and in use, or neither. -/
def Tagged (c : Fin 5) (node : MkPoolNode) : Prop :=
  node.classIdx.toNat = c ∧ (node.magic = poolMagicAlloc ∧ node.inUse = 1 ∨
    node.magic = poolMagicFree ∧ node.inUse = 0)

/-- The numbers in the statistics of a class that are about its blocks. -/
def blockNumbers (s : MemoryPool) (c : Fin 5) : ℕ × UInt32 × UInt32 :=
  ((s.stats.classes c).blockSize, (s.stats.classes c).totalBlocks,
    (s.stats.classes c).allocatedBlocks)

/-- The free list of a class has the headers that are not in use. -/
structure ClassOk (B : PoolBuffers) (s : MemoryPool) (c : Fin 5) (ps : List ℕ) : Prop where
  links : Links 0 (fun p => (s.nodes p).nextFree) (s.freeHeads c) ps
  mem_iff : ∀ p, p ∈ ps ↔ B.IsNode c p ∧ (s.nodes p).inUse = 0
  tagged : ∀ p, B.IsNode c p → Tagged c (s.nodes p)
  blockSize : (s.stats.classes c).blockSize = blockSizes c
  totalBlocks : (s.stats.classes c).totalBlocks.toNat = classCounts c
  blocks : (s.stats.classes c).allocatedBlocks.toNat + ps.length = classCounts c

/-- The bytes in the blocks allocated, by the statistics of the classes. -/
def usedBytes (s : MemoryPool) : ℕ :=
  ∑ c, (s.stats.classes c).allocatedBlocks.toNat * blockSizes c

/-- What holds in a run. -/
structure Inv (B : PoolBuffers) (s : MemoryPool) : Prop where
  initialized : s.initialized = true
  classOk : ∀ c, ∃ ps, ClassOk B s c ps
  used : s.stats.totalUsedBytes = s.usedBytes

variable {B : PoolBuffers} {s t : MemoryPool} {c d : Fin 5} {p : ℕ} {ps : List ℕ}

theorem classCounts_le (c : Fin 5) : classCounts c ≤ 32 := by
  fin_cases c <;> decide

/-- A class is as before when its headers, its list and its numbers are. -/
theorem ClassOk.congr (h : ClassOk B s c ps) (hnodes : ∀ p, B.IsNode c p → t.nodes p = s.nodes p)
    (hhead : t.freeHeads c = s.freeHeads c) (hnumbers : t.blockNumbers c = s.blockNumbers c) :
    ClassOk B t c ps where
  links := by
    rw [hhead]
    exact h.links.congr fun p hp => by rw [hnodes p ((h.mem_iff p).1 hp).1]
  mem_iff p := by
    rw [h.mem_iff]
    exact and_congr_right fun hp => by rw [hnodes p hp]
  tagged p hp := hnodes p hp ▸ h.tagged p hp
  blockSize := (congrArg Prod.fst hnumbers).trans h.blockSize
  totalBlocks := (congrArg (·.2.1.toNat) hnumbers).trans h.totalBlocks
  blocks := (congrArg (·.2.2.toNat + ps.length) hnumbers).trans h.blocks

/-- An assignment to a header changes its link. -/
theorem nextFree_update (nodes : ℕ → MkPoolNode) (p : ℕ) (node : MkPoolNode) :
    (fun q => (Function.update nodes p node q).nextFree) =
      Function.update (fun q => (nodes q).nextFree) p node.nextFree :=
  Function.comp_update MkPoolNode.nextFree nodes p node

/-! ## Initialisation -/

/-- The inner loop links the first nodes of a class, the last one first. -/
theorem initNodes_spec (B : PoolBuffers) (s : MemoryPool) (c : Fin 5) (hhead : s.freeHeads c = 0)
    (n : ℕ) :
    let t := (List.range n).foldl (initNode B c) s
    Links 0 (fun p => (t.nodes p).nextFree) (t.freeHeads c)
        ((List.range n).map (B.nodeAt c)).reverse ∧
      (∀ i < n, (t.nodes (B.nodeAt c i)).magic = poolMagicFree ∧
        (t.nodes (B.nodeAt c i)).classIdx = UInt8.ofNat c ∧
        (t.nodes (B.nodeAt c i)).inUse = 0) ∧
      (∀ p, (∀ i < n, p ≠ B.nodeAt c i) → t.nodes p = s.nodes p) ∧
      (∀ d, d ≠ c → t.freeHeads d = s.freeHeads d) ∧ t.stats = s.stats := by
  induction n with
  | zero =>
    exact ⟨hhead, fun _ hi => absurd hi (Nat.not_lt_zero _), fun _ _ => rfl, fun _ _ => rfl, rfl⟩
  | succ n ih =>
    obtain ⟨hlinks, hnew, hold, hheads, hstats⟩ := ih
    simp only [List.range_succ, List.foldl_append, List.foldl_cons, List.foldl_nil,
      List.map_append, List.map_singleton, List.reverse_append, List.reverse_singleton,
      List.singleton_append]
    generalize (List.range n).foldl (initNode B c) s = t at hlinks hnew hold hheads hstats ⊢
    have hpos : B.nodeAt c n ≠ 0 := Nat.ne_of_gt (Nat.add_pos_left (B.base_pos c) _)
    have hnot : B.nodeAt c n ∉ ((List.range n).map (B.nodeAt c)).reverse := by
      rw [List.mem_reverse, List.mem_map]
      rintro ⟨i, hi, heq⟩
      exact Nat.ne_of_lt (List.mem_range.1 hi) (B.nodeAt_injective c heq)
    refine ⟨?_, fun i hi => ?_, fun p hp => ?_, fun d hd => ?_, hstats⟩
    · -- The header is pushed on the list, which does not have it.
      simp only [initNode, nextFree_update, Function.update_self]
      exact hlinks.push hpos hnot
    · -- A header written before, or the last one.
      rw [initNode]
      rcases Nat.lt_succ_iff_lt_or_eq.1 hi with hlt | rfl
      · have hne : B.nodeAt c i ≠ B.nodeAt c n := fun heq =>
          Nat.ne_of_lt hlt (B.nodeAt_injective c heq)
        simp only [Function.update_of_ne hne]
        exact hnew i hlt
      · simp only [Function.update_self]
        exact ⟨trivial, trivial, trivial⟩
    · rw [initNode]
      simp only [Function.update_of_ne (hp n (Nat.lt_succ_self n))]
      exact hold p fun i hi => hp i (Nat.lt_succ_of_lt hi)
    · rw [initNode]
      simp only [Function.update_of_ne hd]
      exact hheads d hd

/-- No block is allocated yet. -/
def Unused (s : MemoryPool) : Prop :=
  s.stats.totalUsedBytes = 0 ∧ ∀ c, (s.stats.classes c).allocatedBlocks = 0

/-- The outer loop initialises a class, and leaves the others alone. -/
theorem Unused.initClass (h : Unused s) (B : PoolBuffers) (c : Fin 5) :
    Unused (s.initClass B c) ∧ (∃ ps, ClassOk B (s.initClass B c) c ps) ∧
      ∀ d ps, d ≠ c → ClassOk B s d ps → ClassOk B (s.initClass B c) d ps := by
  obtain ⟨hused, hallocated⟩ := h
  obtain ⟨hlinks, hnew, hold, hheads, hstats⟩ :=
    initNodes_spec B (s.initStats c) c (Function.update_self ..) (classCounts c)
  have hcode : s.initClass B c =
    (List.range (classCounts c)).foldl (initNode B c) (s.initStats c) := rfl
  rw [← hcode] at hlinks hnew hold hheads hstats
  have hself : (s.initStats c).stats.classes c = { s.stats.classes c with
      blockSize := blockSizes c
      totalBlocks := UInt32.ofNat (classCounts c) } := Function.update_self ..
  have hother {d : Fin 5} (hd : d ≠ c) : (s.initStats c).stats.classes d = s.stats.classes d :=
    Function.update_of_ne hd ..
  refine ⟨⟨?_, fun d => ?_⟩, ⟨_, hlinks, fun p => ?_, fun p hp => ?_, ?_, ?_, ?_⟩,
    fun d ps hd hok => ?_⟩
  · rw [hstats]
    exact hused
  · rw [hstats]
    by_cases hd : d = c
    · rw [hd, hself]
      exact hallocated c
    · rw [hother hd]
      exact hallocated d
  · -- The list has the headers of the class, all of them free.
    rw [List.mem_reverse, List.mem_map]
    constructor
    · rintro ⟨i, hi, rfl⟩
      have hlt := List.mem_range.1 hi
      exact ⟨⟨i, hlt, rfl⟩, (hnew i hlt).2.2⟩
    · rintro ⟨⟨i, hi, rfl⟩, -⟩
      exact ⟨i, List.mem_range.2 hi, rfl⟩
  · obtain ⟨i, hi, rfl⟩ := hp
    obtain ⟨hmagic, hclass, huse⟩ := hnew i hi
    have hc := c.isLt
    refine ⟨?_, .inr ⟨hmagic, huse⟩⟩
    rw [hclass, UInt8.toNat_ofNat_of_lt' (hc.trans (by decide))]
  · rw [hstats, hself]
  · rw [hstats, hself]
    exact UInt32.toNat_ofNat_of_lt' ((classCounts_le c).trans_lt (by decide))
  · rw [hstats, hself, hallocated c, List.length_reverse, List.length_map, List.length_range]
    exact Nat.zero_add _
  · -- Another class has none of the headers written.
    refine hok.congr (fun p hp => hold p fun i hi heq => ?_) ?_ ?_
    · exact hd (hp.class_eq ⟨i, hi, heq⟩)
    · exact (hheads d hd).trans (Function.update_of_ne hd ..)
    · rw [blockNumbers, blockNumbers, hstats, hother hd]

/-- After some classes are initialised, they are in order. -/
theorem Unused.initClasses (h : Unused s) (B : PoolBuffers) (cs : List (Fin 5)) :
    Unused (cs.foldl (MemoryPool.initClass B) s) ∧
      ∀ c, (c ∈ cs ∨ ∃ ps, ClassOk B s c ps) →
        ∃ ps, ClassOk B (cs.foldl (MemoryPool.initClass B) s) c ps := by
  induction cs generalizing s with
  | nil => exact ⟨h, fun c hc => hc.resolve_left List.not_mem_nil⟩
  | cons d cs ih =>
    obtain ⟨hunused, hself, hother⟩ := h.initClass B d
    obtain ⟨hrest, hall⟩ := ih hunused
    refine ⟨hrest, fun c hc => hall c ?_⟩
    by_cases hcd : c = d
    · exact .inr (hcd ▸ hself)
    · refine (hc.imp_left fun hmem => ?_).imp_right fun ⟨ps, hok⟩ => ⟨ps, hother c ps hcd hok⟩
      exact (List.mem_cons.1 hmem).resolve_left hcd

theorem inv_mkPoolInit (B : PoolBuffers) (s : MemoryPool) : Inv B (s.mkPoolInit B) := by
  obtain ⟨⟨hused, hallocated⟩, hall⟩ := Unused.initClasses
    (s := { s with stats := ⟨0, 0, fun _ => ⟨0, 0, 0, 0, 0⟩⟩ }) ⟨rfl, fun _ => rfl⟩ B
    (List.finRange 5)
  refine ⟨rfl, fun c => ?_, ?_⟩
  · obtain ⟨ps, hok⟩ := hall c (.inl (List.mem_finRange c))
    exact ⟨ps, hok.congr (fun _ _ => rfl) rfl rfl⟩
  · refine hused.trans (Eq.symm (Finset.sum_eq_zero fun c _ => ?_))
    exact (congrArg (·.toNat * blockSizes c) (hallocated c)).trans (Nat.zero_mul _)

/-! ## Allocation -/

/-- The bytes used when the number of blocks of a class changes. -/
theorem usedBytes_eq (s : MemoryPool) (c : Fin 5) : s.usedBytes =
    (s.stats.classes c).allocatedBlocks.toNat * blockSizes c +
      ∑ d ∈ Finset.univ.erase c, (s.stats.classes d).allocatedBlocks.toNat * blockSizes d :=
  (Finset.add_sum_erase Finset.univ _ (Finset.mem_univ c)).symm

theorem sum_erase_congr (h : ∀ d, d ≠ c → t.stats.classes d = s.stats.classes d) :
    ∑ d ∈ Finset.univ.erase c, (t.stats.classes d).allocatedBlocks.toNat * blockSizes d =
      ∑ d ∈ Finset.univ.erase c, (s.stats.classes d).allocatedBlocks.toNat * blockSizes d :=
  Finset.sum_congr rfl fun d hd => by rw [h d (Finset.ne_of_mem_erase hd)]

/-- The first free node of a class is not in use. -/
theorem ClassOk.head (h : ClassOk B s c ps) (hhead : s.freeHeads c ≠ 0) :
    ∃ qs, ps = s.freeHeads c :: qs ∧ B.IsNode c (s.freeHeads c) ∧
      (s.nodes (s.freeHeads c)).inUse = 0 := by
  cases ps with
  | nil => exact absurd (h.links.eq_nil_iff.2 rfl) hhead
  | cons p qs =>
    obtain ⟨hp, huse⟩ := (h.mem_iff p).1 List.mem_cons_self
    rw [h.links.1]
    exact ⟨qs, rfl, hp, huse⟩

/-- A class has a free node unless all of its blocks are allocated. -/
theorem ClassOk.head_eq_zero_iff (h : ClassOk B s c ps) : s.freeHeads c = 0 ↔
    (s.stats.classes c).allocatedBlocks = (s.stats.classes c).totalBlocks := by
  have hblocks := h.blocks
  rw [h.links.eq_nil_iff, ← UInt32.toNat_inj, h.totalBlocks, ← List.length_eq_zero_iff]
  omega

theorem stats_take_self (s : MemoryPool) (c : Fin 5) :
    (s.take c).stats.classes c = { s.stats.classes c with
      allocatedBlocks := (s.stats.classes c).allocatedBlocks + 1
      peakAllocated :=
        if (s.stats.classes c).peakAllocated < (s.stats.classes c).allocatedBlocks + 1 then
          (s.stats.classes c).allocatedBlocks + 1
        else (s.stats.classes c).peakAllocated } :=
  Function.update_self ..

theorem stats_take_of_ne (s : MemoryPool) (hd : d ≠ c) :
    (s.take c).stats.classes d = s.stats.classes d :=
  Function.update_of_ne hd ..

/-- The first node is taken off the list of its class. -/
theorem ClassOk.take {qs : List ℕ} (h : ClassOk B s c (s.freeHeads c :: qs)) :
    ClassOk B (s.take c) c qs := by
  obtain ⟨hp, huse⟩ := (h.mem_iff _).1 List.mem_cons_self
  have hblocks := h.blocks
  have hcount := classCounts_le c
  rw [List.length_cons] at hblocks
  refine ⟨?_, fun q => ?_, fun q hq => ?_, ?_, ?_, ?_⟩
  · have hhead : (s.take c).freeHeads c = (s.nodes (s.freeHeads c)).nextFree :=
      Function.update_self ..
    rw [hhead]
    simp only [MemoryPool.take, setClass, nextFree_update]
    exact h.links.pop 0
  · -- The header taken is in use, and was on the list once.
    by_cases hq : q = s.freeHeads c
    · have hnot := (List.nodup_cons.1 h.links.nodup).1
      rw [hq]
      simp only [MemoryPool.take, setClass, Function.update_self]
      exact iff_of_false hnot fun hand => absurd hand.2 (by decide)
    · simp only [MemoryPool.take, setClass, Function.update_of_ne hq]
      rw [← h.mem_iff, List.mem_cons, or_iff_right hq]
  · by_cases hne : q = s.freeHeads c
    · rw [hne]
      simp only [MemoryPool.take, setClass, Function.update_self]
      exact ⟨(h.tagged _ hp).1, .inl ⟨rfl, rfl⟩⟩
    · simp only [MemoryPool.take, setClass, Function.update_of_ne hne]
      exact h.tagged q hq
  · rw [stats_take_self]
    exact h.blockSize
  · rw [stats_take_self]
    exact h.totalBlocks
  · rw [stats_take_self]
    simp only [UInt32.toNat_add, UInt32.toNat_one]
    omega

/-- The node taken was that of no other class. -/
theorem ClassOk.take_of_ne (h : ClassOk B s d ps) (hd : d ≠ c) (hp : B.IsNode c (s.freeHeads c)) :
    ClassOk B (s.take c) d ps := by
  refine h.congr (fun q hq => ?_) (Function.update_of_ne hd ..) ?_
  · refine Function.update_of_ne ?_ ..
    rintro rfl
    exact hd (hq.class_eq hp)
  · rw [blockNumbers, stats_take_of_ne s hd]
    rfl

theorem Inv.take (h : Inv B s) (hhead : s.freeHeads c ≠ 0) : Inv B (s.take c) := by
  obtain ⟨ps, hok⟩ := h.classOk c
  obtain ⟨qs, rfl, hp, -⟩ := hok.head hhead
  refine ⟨h.initialized, fun d => ?_, ?_⟩
  · by_cases hd : d = c
    · rw [hd]
      exact ⟨qs, hok.take⟩
    · obtain ⟨rs, hd'⟩ := h.classOk d
      exact ⟨rs, hd'.take_of_ne hd hp⟩
  · have hblocks := hok.blocks
    have hcount := classCounts_le c
    have hsucc : ((s.stats.classes c).allocatedBlocks + 1).toNat =
        (s.stats.classes c).allocatedBlocks.toNat + 1 := by
      rw [UInt32.toNat_add, UInt32.toNat_one, Nat.mod_eq_of_lt (by omega)]
    have hused : (s.take c).stats.totalUsedBytes = s.stats.totalUsedBytes + blockSizes c := rfl
    rw [hused, h.used, usedBytes_eq s c, usedBytes_eq (s.take c) c, stats_take_self,
      sum_erase_congr fun d hd => stats_take_of_ne s hd]
    simp only [hsucc, Nat.succ_mul]
    omega

/-- The smallest class that fits. -/
theorem targetClass_eq {n : ℕ} (hle : n ≤ 256) :
    ∃ c, targetClass n = some c ∧ n ≤ blockSizes c ∧ ∀ d < c, blockSizes d < n := by
  cases hfind : targetClass n with
  | none =>
    have hnot := List.find?_eq_none.1 hfind 4 (List.mem_finRange 4)
    exact absurd (decide_eq_true hle) hnot
  | some c =>
    obtain ⟨hfits, i, hi, rfl, hbefore⟩ := List.find?_eq_some_iff_getElem.1 hfind
    refine ⟨_, rfl, of_decide_eq_true hfits, fun d hd => ?_⟩
    rw [List.getElem_finRange] at hd
    have hnot := hbefore d hd
    simp only [List.getElem_finRange, Fin.cast_mk, Fin.eta, Bool.not_eq_true',
      decide_eq_false_iff_not] at hnot
    exact Nat.lt_of_not_le hnot

/-- An allocation fails, and changes nothing but a counter and the faults, or takes the
    first free node of the smallest class that fits. -/
theorem Inv.mkPoolAlloc_eq (h : Inv B s) {n : ℕ} (hpos : 1 ≤ n) (hle : n ≤ 256)
    (hc : targetClass n = some c) :
    s.freeHeads c = 0 ∧ (s.mkPoolAlloc B n).1 = 0 ∧
        (∃ st faults, st.blockSize = (s.stats.classes c).blockSize ∧
          st.totalBlocks = (s.stats.classes c).totalBlocks ∧
          st.allocatedBlocks = (s.stats.classes c).allocatedBlocks ∧
          (s.mkPoolAlloc B n).2 = { s.setClass c st with faults }) ∨
      s.freeHeads c ≠ 0 ∧ s.mkPoolAlloc B n = (s.freeHeads c + nodeSize, s.take c) := by
  have hrange : ¬(n = 0 ∨ blockSizes 4 < n) := by
    have h256 : blockSizes 4 = 256 := rfl
    omega
  simp only [mkPoolAlloc, h.initialized, if_true, if_neg hrange, hc]
  by_cases hhead : s.freeHeads c = 0
  · rw [if_pos hhead]
    exact .inl ⟨hhead, rfl, { s.stats.classes c with
      allocationFailures := (s.stats.classes c).allocationFailures + 1 }, _, rfl, rfl, rfl, rfl⟩
  · rw [if_neg hhead]
    exact .inr ⟨hhead, rfl⟩

theorem mkPoolAlloc_of_not (h : Inv B s) {n : ℕ} (hn : ¬(1 ≤ n ∧ n ≤ 256)) :
    s.mkPoolAlloc B n = (0, s) := by
  have hrange : n = 0 ∨ blockSizes 4 < n := by
    have h256 : blockSizes 4 = 256 := rfl
    omega
  simp only [mkPoolAlloc, h.initialized, if_true, if_pos hrange]

/-- Other changes of the statistics and of the faults. -/
theorem Inv.setClass (h : Inv B s) {st : MkPoolClassStats} {faults : List MkFault}
    (hsize : st.blockSize = (s.stats.classes c).blockSize)
    (htotal : st.totalBlocks = (s.stats.classes c).totalBlocks)
    (hallocated : st.allocatedBlocks = (s.stats.classes c).allocatedBlocks) :
    Inv B { s.setClass c st with faults } := by
  have hnumbers (d : Fin 5) :
      blockNumbers { s.setClass c st with faults } d = s.blockNumbers d := by
    rw [blockNumbers, blockNumbers]
    by_cases hd : d = c
    · rw [hd]
      simp only [MemoryPool.setClass, Function.update_self, hsize, htotal, hallocated]
    · simp only [MemoryPool.setClass, Function.update_of_ne hd]
  refine ⟨h.initialized, fun d => ?_, ?_⟩
  · obtain ⟨ps, hok⟩ := h.classOk d
    exact ⟨ps, hok.congr (fun _ _ => rfl) rfl (hnumbers d)⟩
  · refine h.used.trans (Finset.sum_congr rfl fun d _ => ?_)
    exact (congrArg (·.2.2.toNat * blockSizes d) (hnumbers d)).symm

theorem Inv.mkPoolAlloc (h : Inv B s) (n : ℕ) : Inv B (s.mkPoolAlloc B n).2 := by
  by_cases hn : 1 ≤ n ∧ n ≤ 256
  · obtain ⟨c, hc, -, -⟩ := targetClass_eq hn.2
    rcases h.mkPoolAlloc_eq hn.1 hn.2 hc with
      ⟨-, -, st, faults, hsize, htotal, hallocated, heq⟩ | ⟨hhead, heq⟩
    · rw [heq]
      exact h.setClass hsize htotal hallocated
    · rw [heq]
      exact h.take hhead
  · rw [mkPoolAlloc_of_not h hn]
    exact h

/-! ## Release -/

theorem stats_putBack_self (s : MemoryPool) (p : ℕ) (c : Fin 5) :
    (s.putBack p c).stats.classes c = { s.stats.classes c with
      allocatedBlocks := if 0 < (s.stats.classes c).allocatedBlocks then
        (s.stats.classes c).allocatedBlocks - 1 else (s.stats.classes c).allocatedBlocks } :=
  Function.update_self ..

theorem stats_putBack_of_ne (s : MemoryPool) (p : ℕ) (hd : d ≠ c) :
    (s.putBack p c).stats.classes d = s.stats.classes d :=
  Function.update_of_ne hd ..

/-- A node in use is not in the free list, so that not all blocks are there. -/
theorem ClassOk.of_inUse (h : ClassOk B s c ps) (hp : B.IsNode c p)
    (huse : (s.nodes p).inUse ≠ 0) :
    p ∉ ps ∧ 0 < (s.stats.classes c).allocatedBlocks.toNat := by
  have hnot : p ∉ ps := fun hmem => huse ((h.mem_iff p).1 hmem).2
  have hlen : (p :: ps).length ≤ classCounts c :=
    PoolBuffers.length_le_of_nodes (List.nodup_cons.2 ⟨hnot, h.links.nodup⟩)
      (List.forall_mem_cons.2 ⟨hp, fun q hq => ((h.mem_iff q).1 hq).1⟩)
  have hblocks := h.blocks
  rw [List.length_cons] at hlen
  exact ⟨hnot, by omega⟩

theorem toNat_sub_one {n : UInt32} (hpos : 0 < n.toNat) :
    (if 0 < n then n - 1 else n).toNat = n.toNat - 1 := by
  have hlt : 0 < n := UInt32.lt_iff_toNat_lt.2 hpos
  rw [if_pos hlt]
  exact UInt32.toNat_sub_of_le _ _ (UInt32.le_iff_toNat_le.2 hpos)

/-- The node is put in front of the list of its class. -/
theorem ClassOk.putBack (h : ClassOk B s c ps) (hp : B.IsNode c p)
    (huse : (s.nodes p).inUse ≠ 0) : ClassOk B (s.putBack p c) c (p :: ps) := by
  obtain ⟨hnot, hpos⟩ := h.of_inUse hp huse
  have hblocks := h.blocks
  refine ⟨?_, fun q => ?_, fun q hq => ?_, ?_, ?_, ?_⟩
  · have hhead : (s.putBack p c).freeHeads c = p := Function.update_self ..
    rw [hhead]
    simp only [MemoryPool.putBack, MemoryPool.setClass, nextFree_update]
    exact h.links.push hp.ne_zero hnot
  · -- The header put back is free, and was not on the list.
    by_cases hq : q = p
    · rw [hq]
      simp only [MemoryPool.putBack, MemoryPool.setClass, Function.update_self]
      exact iff_of_true List.mem_cons_self ⟨hp, trivial⟩
    · simp only [MemoryPool.putBack, MemoryPool.setClass, Function.update_of_ne hq]
      rw [List.mem_cons, or_iff_right hq, h.mem_iff]
  · by_cases hne : q = p
    · rw [hne]
      simp only [MemoryPool.putBack, MemoryPool.setClass, Function.update_self]
      exact ⟨(h.tagged _ hp).1, .inr ⟨rfl, rfl⟩⟩
    · simp only [MemoryPool.putBack, MemoryPool.setClass, Function.update_of_ne hne]
      exact h.tagged q hq
  · rw [stats_putBack_self]
    exact h.blockSize
  · rw [stats_putBack_self]
    exact h.totalBlocks
  · rw [stats_putBack_self]
    simp only [toNat_sub_one hpos, List.length_cons]
    omega

theorem ClassOk.putBack_of_ne (h : ClassOk B s d ps) (hd : d ≠ c) (hp : B.IsNode c p) :
    ClassOk B (s.putBack p c) d ps := by
  refine h.congr (fun q hq => ?_) (Function.update_of_ne hd ..) ?_
  · refine Function.update_of_ne ?_ ..
    rintro rfl
    exact hd (hq.class_eq hp)
  · rw [blockNumbers, stats_putBack_of_ne s p hd]
    rfl

theorem Inv.putBack (h : Inv B s) (hp : B.IsNode c p) (huse : (s.nodes p).inUse ≠ 0) :
    Inv B (s.putBack p c) := by
  obtain ⟨ps, hok⟩ := h.classOk c
  refine ⟨h.initialized, fun d => ?_, ?_⟩
  · by_cases hd : d = c
    · rw [hd]
      exact ⟨_, hok.putBack hp huse⟩
    · obtain ⟨rs, hd'⟩ := h.classOk d
      exact ⟨rs, hd'.putBack_of_ne hd hp⟩
  · obtain ⟨-, hpos⟩ := hok.of_inUse hp huse
    obtain ⟨k, hk⟩ := Nat.exists_eq_succ_of_ne_zero (Nat.ne_of_gt hpos)
    have hold := h.used
    rw [usedBytes_eq s c, hk, Nat.succ_mul] at hold
    have hused : (s.putBack p c).stats.totalUsedBytes =
        if blockSizes c ≤ s.stats.totalUsedBytes then s.stats.totalUsedBytes - blockSizes c
        else s.stats.totalUsedBytes := rfl
    rw [hused, if_pos (by omega), usedBytes_eq (s.putBack p c) c, stats_putBack_self,
      sum_erase_congr fun d hd => stats_putBack_of_ne s p hd]
    simp only [toNat_sub_one hpos, hk, Nat.succ_sub_one]
    omega

/-- A free of a block puts its node back if it is in use, and otherwise changes
    nothing but the faults. -/
theorem Inv.mkPoolFree_eq (h : Inv B s) (hp : B.IsNode c p) :
    (s.nodes p).inUse ≠ 0 ∧ s.mkPoolFree (p + nodeSize) = s.putBack p c ∨
      (s.nodes p).inUse = 0 ∧ ∃ faults, s.mkPoolFree (p + nodeSize) = { s with faults } := by
  obtain ⟨ps, hok⟩ := h.classOk c
  have hnull : ¬(p + nodeSize = 0 ∨ (!s.initialized) = true) := by
    have hsize : nodeSize = 16 := rfl
    simp [h.initialized, hsize]
  obtain ⟨hclass, htag⟩ := hok.tagged p hp
  rw [mkPoolFree, if_neg hnull]
  simp only [Nat.add_sub_cancel]
  rcases htag with ⟨hmagic, huse⟩ | ⟨hmagic, huse⟩
  · refine .inl ⟨by rw [huse]; decide, ?_⟩
    have hlt : (s.nodes p).classIdx.toNat < 5 := hclass ▸ c.isLt
    rw [if_neg (by simp [hmagic, huse]), dif_pos hlt]
    exact congrArg (s.putBack p) (Fin.ext hclass)
  · refine .inr ⟨huse, _, if_pos (.inr ?_)⟩
    rw [huse]
    decide

/-- What `mk_pool_alloc` returns. -/
def Returnable (B : PoolBuffers) (ptr : ℕ) : Prop :=
  ptr = 0 ∨ ∃ c p, B.IsNode c p ∧ ptr = p + nodeSize

theorem Inv.mkPoolFree (h : Inv B s) {ptr : ℕ} (hptr : Returnable B ptr) :
    Inv B (s.mkPoolFree ptr) := by
  rcases hptr with rfl | ⟨c, p, hp, rfl⟩
  · rw [MemoryPool.mkPoolFree, if_pos (.inl rfl)]
    exact h
  · rcases h.mkPoolFree_eq hp with ⟨huse, heq⟩ | ⟨-, faults, heq⟩
    · rw [heq]
      exact h.putBack hp huse
    · rw [heq]
      exact ⟨h.initialized, fun d => (h.classOk d).imp fun ps hok =>
        hok.congr (fun _ _ => rfl) rfl rfl, h.used⟩

/-! ## Runs -/

/-- The runs of the allocator, with the pointers returned. -/
inductive Run (B : PoolBuffers) : MemoryPool → List ℕ → Prop
  | init (s : MemoryPool) : Run B (s.mkPoolInit B) []
  | alloc {s : MemoryPool} {returned : List ℕ} (h : Run B s returned) (size : ℕ) :
      Run B (s.mkPoolAlloc B size).2 ((s.mkPoolAlloc B size).1 :: returned)
  | free {s : MemoryPool} {returned : List ℕ} (h : Run B s returned) {ptr : ℕ}
      (hptr : ptr ∈ returned) : Run B (s.mkPoolFree ptr) returned

variable {returned : List ℕ}

/-- An allocation of a size that fits. -/
theorem Inv.mkPoolAlloc_spec (h : Inv B s) {n : ℕ} (hpos : 1 ≤ n) (hle : n ≤ 256) :
    ∃ c, n ≤ blockSizes c ∧ (∀ d < c, blockSizes d < n) ∧
      ((s.mkPoolAlloc B n).1 = 0 ↔
        (s.stats.classes c).allocatedBlocks = (s.stats.classes c).totalBlocks) ∧
      ((s.mkPoolAlloc B n).1 ≠ 0 → ∃ p, B.IsNode c p ∧ (s.nodes p).inUse = 0 ∧
        (s.mkPoolAlloc B n).1 = p + nodeSize) := by
  obtain ⟨c, hc, hfits, hsmallest⟩ := targetClass_eq hle
  obtain ⟨ps, hok⟩ := h.classOk c
  refine ⟨c, hfits, hsmallest, ?_⟩
  rw [← hok.head_eq_zero_iff]
  rcases h.mkPoolAlloc_eq hpos hle hc with ⟨hhead, hnull, -⟩ | ⟨hhead, heq⟩
  · exact ⟨iff_of_true hnull hhead, fun hne => absurd hnull hne⟩
  · obtain ⟨-, -, hp, huse⟩ := hok.head hhead
    rw [heq]
    refine ⟨iff_of_false (fun hnull => hhead ?_) hhead, fun _ => ⟨_, hp, huse, rfl⟩⟩
    exact (Nat.add_eq_zero_iff.1 hnull).1

theorem Inv.returnable_mkPoolAlloc (h : Inv B s) (n : ℕ) :
    Returnable B (s.mkPoolAlloc B n).1 := by
  by_cases hn : 1 ≤ n ∧ n ≤ 256
  · obtain ⟨c, -, -, -, hblock⟩ := h.mkPoolAlloc_spec hn.1 hn.2
    by_cases hnull : (s.mkPoolAlloc B n).1 = 0
    · exact .inl hnull
    · obtain ⟨p, hp, -, heq⟩ := hblock hnull
      exact .inr ⟨c, p, hp, heq⟩
  · rw [mkPoolAlloc_of_not h hn]
    exact .inl rfl

theorem Run.inv (h : Run B s returned) : Inv B s ∧ ∀ ptr ∈ returned, Returnable B ptr := by
  induction h with
  | init s => exact ⟨inv_mkPoolInit B s, fun _ hptr => absurd hptr List.not_mem_nil⟩
  | alloc _ size ih =>
    exact ⟨ih.1.mkPoolAlloc size,
      List.forall_mem_cons.2 ⟨ih.1.returnable_mkPoolAlloc size, ih.2⟩⟩
  | free _ hptr ih => exact ⟨ih.1.mkPoolFree (ih.2 _ hptr), ih.2⟩

/-- After any run, the free list of each class is a list that ends, without a node
    twice, of the headers that are not in use; it has the blocks that are not allocated,
    and the bytes used are those of the others. A free of a pointer returned before
    changes nothing if its block is not in use, and an allocation returns a block of
    the smallest class that fits, not in use, unless there is none. -/
theorem pool_invariant (h : Run B s returned) :
    (∀ c, ∃ ps, Links 0 (fun p => (s.nodes p).nextFree) (s.freeHeads c) ps ∧ ps.Nodup ∧
      (∀ p, p ∈ ps ↔ B.IsNode c p ∧ (s.nodes p).inUse = 0) ∧
      (s.stats.classes c).allocatedBlocks.toNat + ps.length =
        (s.stats.classes c).totalBlocks.toNat) ∧
    s.stats.totalUsedBytes =
      ∑ c, (s.stats.classes c).allocatedBlocks.toNat * (s.stats.classes c).blockSize ∧
    (∀ ptr ∈ returned, (s.nodes (ptr - nodeSize)).inUse = 0 →
      ∃ faults, s.mkPoolFree ptr = { s with faults }) ∧
    ∀ n, 1 ≤ n → n ≤ 256 → ∃ c, n ≤ blockSizes c ∧ (∀ d < c, blockSizes d < n) ∧
      ((s.mkPoolAlloc B n).1 = 0 ↔
        (s.stats.classes c).allocatedBlocks = (s.stats.classes c).totalBlocks) ∧
      ((s.mkPoolAlloc B n).1 ≠ 0 → ∃ p, B.IsNode c p ∧ (s.nodes p).inUse = 0 ∧
        (s.mkPoolAlloc B n).1 = p + nodeSize) := by
  obtain ⟨hinv, hreturned⟩ := h.inv
  refine ⟨fun c => ?_, ?_, fun ptr hptr huse => ?_,
    fun n hpos hle => hinv.mkPoolAlloc_spec hpos hle⟩
  · obtain ⟨ps, hok⟩ := hinv.classOk c
    exact ⟨ps, hok.links, hok.links.nodup, hok.mem_iff, hok.blocks.trans hok.totalBlocks.symm⟩
  · refine hinv.used.trans (Finset.sum_congr rfl fun c _ => ?_)
    obtain ⟨ps, hok⟩ := hinv.classOk c
    rw [hok.blockSize]
  · -- A pointer returned is `NULL`, or after a header, which is free already.
    rcases hreturned ptr hptr with rfl | ⟨c, p, hp, rfl⟩
    · exact ⟨s.faults, if_pos (.inl rfl)⟩
    · rw [Nat.add_sub_cancel] at huse
      rcases hinv.mkPoolFree_eq hp with ⟨hne, -⟩ | ⟨-, hfree⟩
      · exact absurd huse hne
      · exact hfree

/-- The buffers one after the other. -/
def adjacent : PoolBuffers := ⟨![8, 1032, 2568, 5128, 7432], by decide, by decide⟩

/-- The pointer to a block of 12 bytes, and the allocator after it is allocated. -/
def block : ℕ × MemoryPool := (zero.mkPoolInit adjacent).mkPoolAlloc adjacent 12

/-- The block is freed twice. -/
theorem pool_invariant_freed : ∃ faults,
    (block.2.mkPoolFree block.1).mkPoolFree block.1 =
      { block.2.mkPoolFree block.1 with faults } := by
  have hblock : Run adjacent block.2 [block.1] := .alloc (.init zero) 12
  have hfreed := hblock.free (List.mem_singleton_self block.1)
  exact (pool_invariant hfreed).2.2.1 _ (List.mem_singleton_self block.1) (by decide +kernel)

end MemoryPool

end SliverOS
