import SliverOS.Kernel.ArenaRefinement

/-!
# The invariant of the arena

A run of the allocator is a sequence of calls of `my_malloc`, with any sizes,
and of `my_free` on the pointers returned and not freed since, the live ones,
while their owners store bytes in the payloads (`Reachable`).

After any run, the allocated blocks are those of the live pointers (`Accounts`).
So the headers partition the arena (`Partition`), and the live payloads are
apart from each other, aligned, in the arena and large enough
(`arena_invariant`).
-/

namespace SliverOS

open Bytes Heap Platform

namespace MemoryManager

/-- The allocators and the live pointers, each with the size asked for, that
    some run ends with. -/
inductive Reachable (pl : Platform) : MemoryManager → (ℕ → Option ℕ) → Prop
  | init (s : MemoryManager) : Reachable pl (s.mkMemoryInit pl) fun _ => none
  | malloc {s : MemoryManager} {live : ℕ → Option ℕ} (h : Reachable pl s live) (size : ℕ) :
      Reachable pl (s.myMalloc pl size).1
        (if (s.myMalloc pl size).2 = 0 then live
          else Function.update live (s.myMalloc pl size).2 (some size))
  | free {s : MemoryManager} {live : ℕ → Option ℕ} (h : Reachable pl s live) {ptr size : ℕ}
      (hptr : live ptr = some size) : Reachable pl (s.myFree pl ptr) (Function.update live ptr none)
  | store {s : MemoryManager} {live : ℕ → Option ℕ} (h : Reachable pl s live) {ptr size i : ℕ}
      {data : List UInt8} (hptr : live ptr = some size) (hsize : i + data.length ≤ size) :
      Reachable pl { s with mem := blit s.mem (ptr + i) data } live

/-! ## What is allocated is live -/

/-- Some payloads are those of the live pointers, each as large as asked for. -/
structure Accounts (live : ℕ → Option ℕ) (payloads : List (ℕ × ℕ)) : Prop where
  granted : ∀ p k, (p, k) ∈ payloads → ∃ size, live p = some size ∧ size ≤ k
  known : ∀ p size, live p = some size → ∃ k, (p, k) ∈ payloads

section

variable {pl : Platform} {live : ℕ → Option ℕ} {xs ys : List (ℕ × ℕ)} {p k size : ℕ}

/-- Payloads apart from each other have different addresses. -/
theorem ne_of_pairwise (h : (xs ++ (p, k) :: ys).Pairwise fun x y =>
    x.1 + x.2 + pl.headerSize ≤ y.1) {q n : ℕ} (hq : (q, n) ∈ xs ++ ys) : q ≠ p := by
  have hsize := pl.headerSize_eq
  obtain ⟨_, hys, hcross⟩ := List.pairwise_append.1 h
  rcases List.mem_append.1 hq with hq | hq
  · have := hcross _ hq _ (List.mem_cons_self ..)
    simp only at this
    omega
  · have := (List.pairwise_cons.1 hys).1 _ hq
    simp only at this
    omega

/-- A payload more, for a pointer more. -/
theorem Accounts.insert (h : Accounts live (xs ++ ys))
    (hp : ∀ q n, (q, n) ∈ xs ++ ys → q ≠ p) (hk : size ≤ k) :
    Accounts (Function.update live p (some size)) (xs ++ (p, k) :: ys) where
  granted q n hq := by
    rcases List.mem_cons.1 (List.perm_middle.mem_iff.1 hq) with heq | hq
    · obtain ⟨rfl, rfl⟩ := Prod.mk.inj heq
      exact ⟨size, Function.update_self .., hk⟩
    · rw [Function.update_of_ne (hp q n hq)]
      exact h.granted q n hq
  known q n hq := by
    by_cases hqp : q = p
    · exact ⟨k, by simp [hqp]⟩
    · rw [Function.update_of_ne hqp] at hq
      obtain ⟨k', hk'⟩ := h.known q n hq
      exact ⟨k', List.perm_middle.mem_iff.2 (List.mem_cons_of_mem _ hk')⟩

/-- A payload less, for a pointer less. -/
theorem Accounts.erase (h : Accounts live (xs ++ (p, k) :: ys))
    (hp : ∀ q n, (q, n) ∈ xs ++ ys → q ≠ p) :
    Accounts (Function.update live p none) (xs ++ ys) where
  granted q n hq := by
    rw [Function.update_of_ne (hp q n hq)]
    exact h.granted q n (List.perm_middle.mem_iff.2 (List.mem_cons_of_mem _ hq))
  known q n hq := by
    have hqp : q ≠ p := by
      rintro rfl
      simp at hq
    rw [Function.update_of_ne hqp] at hq
    obtain ⟨k', hk'⟩ := h.known q n hq
    rcases List.mem_cons.1 (List.perm_middle.mem_iff.1 hk') with heq | hk'
    · exact absurd (Prod.mk.inj heq).1 hqp
    · exact ⟨k', hk'⟩

end

/-! ## The invariant of a run -/

/-- The allocator has the headers of some blocks, those of the live pointers
    allocated. -/
def Inv (pl : Platform) (s : MemoryManager) (live : ℕ → Option ℕ) : Prop :=
  ∃ bs, Represents pl s bs ∧ Accounts live (allocs pl.headerSize pl.arenaStart bs)

section

variable {pl : Platform} {s : MemoryManager} {live : ℕ → Option ℕ} {ptr size : ℕ}

theorem inv_mkMemoryInit (pl : Platform) (s : MemoryManager) :
    Inv pl (s.mkMemoryInit pl) fun _ => none :=
  ⟨_, represents_mkMemoryInit pl s, ⟨by simp [initial, allocs], by simp⟩⟩

/-- The pointer returned was not live, and its payload is one more allocated. -/
theorem Inv.myMalloc (h : Inv pl s live) (size : ℕ) :
    ((s.myMalloc pl size).2 ≠ 0 → live (s.myMalloc pl size).2 = none) ∧
      Inv pl (s.myMalloc pl size).1
        (if (s.myMalloc pl size).2 = 0 then live
          else Function.update live (s.myMalloc pl size).2 (some size)) := by
  obtain ⟨bs, hbs, haccounts⟩ := h
  rcases myMalloc_spec hbs size with ⟨_, hret, hnew⟩ | ⟨pre, b, post, _, hfit, hret, hnew⟩
  · rw [if_pos hret]
    exact ⟨fun hne => absurd hret hne, bs, hnew, haccounts⟩
  have hpos := pl.arenaStart_pos
  obtain ⟨rfl, hb⟩ := firstFit?_eq_some hfit
  obtain ⟨hfree, hle⟩ : b.free = true ∧ align size ≤ b.size := by simpa [Block.fits] using hb
  obtain ⟨k, hk, hplace⟩ := allocs_place pl.headerSize (m := minPayload)
    (pl.arenaStart + span pl.headerSize pre) hle
  -- The payloads are those before the block, those after it, and now its own.
  have hold : allocs pl.headerSize pl.arenaStart (pre ++ b :: post) =
      allocs pl.headerSize pl.arenaStart pre ++ allocs pl.headerSize
        (pl.arenaStart + span pl.headerSize pre + (pl.headerSize + b.size)) post := by
    rw [allocs_append, allocs, if_pos hfree, List.nil_append, Nat.add_assoc _ pl.headerSize]
  have hallocs : allocs pl.headerSize pl.arenaStart
      (pre ++ (place pl.headerSize minPayload (align size) b ++ post)) =
        allocs pl.headerSize pl.arenaStart pre ++
          (pl.arenaStart + span pl.headerSize pre + pl.headerSize, k) :: allocs pl.headerSize
            (pl.arenaStart + span pl.headerSize pre + (pl.headerSize + b.size)) post := by
    rw [allocs_append, allocs_append, hplace, span_place pl.headerSize hle]
    rfl
  have hpair := pairwise_allocs pl.headerSize pl.arenaStart
    (pre ++ (place pl.headerSize minPayload (align size) b ++ post))
  rw [hallocs] at hpair
  rw [hold] at haccounts
  rw [hret, if_neg (by omega)]
  refine ⟨fun _ => ?_, _, hnew, ?_⟩
  · by_contra hlive
    obtain ⟨n, hn⟩ := Option.ne_none_iff_exists'.1 hlive
    obtain ⟨k', hk'⟩ := haccounts.known _ n hn
    exact ne_of_pairwise hpair hk' rfl
  · rw [hallocs]
    exact haccounts.insert (fun q n => ne_of_pairwise hpair) (Nat.le_trans (le_align size) hk)

/-- A live pointer is that of an allocated block. -/
theorem Inv.exists_block (h : Inv pl s live) (hptr : live ptr = some size) :
    ∃ pre k post, Represents pl s (pre ++ ⟨k, false⟩ :: post) ∧ size ≤ k ∧
      ptr = pl.arenaStart + span pl.headerSize pre + pl.headerSize ∧
      Accounts live (allocs pl.headerSize pl.arenaStart (pre ++ ⟨k, false⟩ :: post)) := by
  obtain ⟨bs, hbs, haccounts⟩ := h
  obtain ⟨k, hk⟩ := haccounts.known ptr size hptr
  obtain ⟨n, hn, hle⟩ := haccounts.granted ptr k hk
  obtain ⟨pre, post, rfl, hpre⟩ := exists_of_mem_allocs pl.headerSize hk
  obtain rfl : size = n := Option.some.inj (hptr.symm.trans hn)
  exact ⟨pre, k, post, hbs, hle, hpre, haccounts⟩

theorem Inv.myFree (h : Inv pl s live) (hptr : live ptr = some size) :
    Inv pl (s.myFree pl ptr) (Function.update live ptr none) := by
  obtain ⟨pre, k, post, hbs, _, rfl, haccounts⟩ := h.exists_block hptr
  have hpair := pairwise_allocs pl.headerSize pl.arenaStart (pre ++ ⟨k, false⟩ :: post)
  refine ⟨_, myFree_spec hbs rfl, ?_⟩
  rw [allocs_append, allocs] at haccounts hpair
  rw [allocs_release]
  exact haccounts.erase fun q n => ne_of_pairwise hpair

theorem Inv.store (h : Inv pl s live) {i : ℕ} {data : List UInt8} (hptr : live ptr = some size)
    (hsize : i + data.length ≤ size) : Inv pl { s with mem := blit s.mem (ptr + i) data } live := by
  obtain ⟨pre, k, post, hbs, hle, rfl, haccounts⟩ := h.exists_block hptr
  exact ⟨_, hbs.store (by omega) (by simp only; omega), haccounts⟩

/-- The invariant holds after any run. -/
theorem Reachable.inv (h : Reachable pl s live) : Inv pl s live := by
  induction h with
  | init s => exact inv_mkMemoryInit pl s
  | malloc _ size ih => exact (ih.myMalloc size).2
  | free _ hptr ih => exact ih.myFree hptr
  | store _ hptr hsize ih => exact ih.store hptr hsize

end

/-! ## The headers of the arena -/

/-- The headers linked from the one at `p` on, at most as many as `fuel`. -/
def linked (pl : Platform) (m : Memory) : ℕ → ℕ → List ℕ
  | 0, _ => []
  | fuel + 1, p => if p = 0 then [] else p :: linked pl m fuel (pl.header m p).next

/-- The block list starting at `s_head_block`. There are fewer blocks than bytes
    in the arena. -/
def blocks (pl : Platform) (s : MemoryManager) : List ℕ := linked pl s.mem arenaSize s.headBlock

/-- The header at `q` is the one after that at `p`: it starts where the payload
    of `p` ends, they link to each other, and not both are free. -/
def Neighbours (pl : Platform) (m : Memory) (p q : ℕ) : Prop :=
  q = p + pl.headerSize + (pl.header m p).size ∧
    (pl.header m p).next = q ∧ (pl.header m q).prev = p ∧
    ((pl.header m p).isFree = 0 ∨ (pl.header m q).isFree = 0)

/-- The block list partitions the arena. -/
structure Partition (pl : Platform) (s : MemoryManager) : Prop where
  first : (s.blocks pl).head? = some pl.arenaStart ∧ (pl.header s.mem pl.arenaStart).prev = 0
  neighbours : (s.blocks pl).IsChain (Neighbours pl s.mem)
  last : ∀ p ∈ (s.blocks pl).getLast?, (pl.header s.mem p).next = 0 ∧
    p + pl.headerSize + (pl.header s.mem p).size = pl.arenaEnd
  dvd_size : ∀ p ∈ s.blocks pl, 8 ∣ (pl.header s.mem p).size
  magic : ∀ p ∈ s.blocks pl,
    (pl.header s.mem p).magic = blockMagicFree ∧ (pl.header s.mem p).isFree = 1 ∨
      (pl.header s.mem p).magic = blockMagicAlloc ∧ (pl.header s.mem p).isFree = 0

/-- The size of the payload at a pointer, by its header. -/
def payloadSize (pl : Platform) (s : MemoryManager) (ptr : ℕ) : ℕ :=
  (pl.header s.mem (ptr - pl.headerSize)).size

section

variable {pl : Platform} {m : Memory} {prev p : ℕ} {bs : List Block}

/-- The addresses of the headers of some blocks. -/
def addrs (pl : Platform) : ℕ → List Block → List ℕ
  | _, [] => []
  | p, b :: bs => p :: addrs pl (p + pl.headerSize + b.size) bs

/-- Following the links goes through the blocks. -/
theorem linked_eq {fuel : ℕ} (h : pl.Chain m prev p bs) (hp : pl.arenaStart ≤ p)
    (hend : p + span pl.headerSize bs = pl.arenaEnd) (hfuel : bs.length < fuel) :
    linked pl m fuel (pl.link p) = addrs pl p bs := by
  have hpos := pl.arenaStart_pos
  have hsize := pl.headerSize_eq
  induction bs generalizing prev p fuel with
  | nil =>
    obtain ⟨fuel, rfl⟩ := Nat.exists_eq_succ_of_ne_zero (Nat.ne_zero_of_lt hfuel)
    have hlink : pl.link p = 0 := if_pos hend
    rw [linked, hlink, if_pos rfl, addrs]
  | cons b bs ih =>
    obtain ⟨hb, hbs⟩ := h
    simp only [span] at hend
    obtain ⟨fuel, rfl⟩ := Nat.exists_eq_succ_of_ne_zero (Nat.ne_zero_of_lt hfuel)
    have hlink : pl.link p = p := if_neg (by omega)
    rw [linked, hlink, if_neg (by omega), hb.next,
      ih hbs (by omega) (by omega) (by simpa using hfuel), addrs]

/-- The header at an address is that of its block. -/
theorem exists_of_mem_addrs (h : pl.Chain m prev p bs) {q : ℕ} (hq : q ∈ addrs pl p bs) :
    ∃ b ∈ bs, ∃ prev, pl.Holds m prev q b := by
  induction bs generalizing prev p with
  | nil => simp [addrs] at hq
  | cons b bs ih =>
    obtain ⟨hb, hbs⟩ := h
    rcases List.mem_cons.1 hq with rfl | hq
    · exact ⟨b, List.mem_cons_self .., prev, hb⟩
    · obtain ⟨c, hc, hhold⟩ := ih hbs hq
      exact ⟨c, List.mem_cons_of_mem _ hc, hhold⟩

/-- Headers of a chain are neighbours. -/
theorem isChain_addrs (h : pl.Chain m prev p bs)
    (hend : p + span pl.headerSize bs = pl.arenaEnd) (hsep : bs.IsChain Separated) :
    (addrs pl p bs).IsChain (Neighbours pl m) := by
  induction bs generalizing prev p with
  | nil => exact .nil
  | cons b bs ih =>
    obtain ⟨hb, hbs⟩ := h
    rw [addrs, List.isChain_cons]
    refine ⟨fun q hq => ?_,
      ih hbs (by simp only [span] at hend; omega) (List.isChain_cons.1 hsep).2⟩
    cases bs with
    | nil => simp [addrs] at hq
    | cons c bs =>
      obtain rfl : p + pl.headerSize + b.size = q := by simpa [addrs] using hq
      have hsize := pl.headerSize_eq
      have hlink : pl.link (p + pl.headerSize + b.size) = p + pl.headerSize + b.size :=
        if_neg (by simp only [span] at hend; omega)
      refine ⟨by rw [hb.size], by rw [hb.next, hlink], hbs.1.prev, ?_⟩
      have hbc : Separated b c := (List.isChain_cons_cons.1 hsep).1
      rw [hb.isFree, hbs.1.isFree]
      cases hbf : b.free <;> cases hcf : c.free <;> simp [Separated, hbf, hcf] at hbc ⊢

/-- The last header of a chain ends where the blocks do. -/
theorem last_addrs (h : pl.Chain m prev p bs) {q : ℕ} (hq : q ∈ (addrs pl p bs).getLast?) :
    q + pl.headerSize + (pl.header m q).size = p + span pl.headerSize bs ∧
      (pl.header m q).next = pl.link (p + span pl.headerSize bs) := by
  induction bs generalizing prev p with
  | nil => simp [addrs] at hq
  | cons b bs ih =>
    obtain ⟨hb, hbs⟩ := h
    simp only [span, ← Nat.add_assoc]
    cases bs with
    | nil =>
      obtain rfl : p = q := by simpa [addrs] using hq
      rw [hb.size, hb.next]
      exact ⟨rfl, rfl⟩
    | cons c bs => exact ih hbs (by simpa [addrs] using hq)

end

section

variable {pl : Platform} {s : MemoryManager} {live : ℕ → Option ℕ} {bs : List Block}

theorem Represents.blocks_eq (h : Represents pl s bs) :
    s.blocks pl = addrs pl pl.arenaStart bs := by
  have hstart : pl.link pl.arenaStart = pl.arenaStart := if_neg (by simp [arenaEnd, arenaSize])
  rw [blocks, h.headBlock, ← linked_eq h.chain (Nat.le_refl _) h.end_eq h.length_lt, hstart]

/-- The headers of valid blocks partition the arena. -/
theorem Represents.partition (h : Represents pl s bs) : Partition pl s where
  first := by
    have hspan := h.valid.span_eq
    rw [h.blocks_eq]
    cases bs with
    | nil => simp [span, arenaSize] at hspan
    | cons b bs => exact ⟨rfl, h.chain.1.prev⟩
  neighbours := by
    rw [h.blocks_eq]
    exact isChain_addrs h.chain h.end_eq h.valid.separated
  last p hp := by
    rw [h.blocks_eq] at hp
    obtain ⟨hend, hnext⟩ := last_addrs h.chain hp
    rw [h.end_eq] at hend hnext
    exact ⟨hnext.trans (if_pos rfl), hend⟩
  dvd_size p hp := by
    rw [h.blocks_eq] at hp
    obtain ⟨b, hb, _, hhold⟩ := exists_of_mem_addrs h.chain hp
    rw [hhold.size]
    exact h.valid.dvd b hb
  magic p hp := by
    rw [h.blocks_eq] at hp
    obtain ⟨b, _, _, hhold⟩ := exists_of_mem_addrs h.chain hp
    rw [hhold.magic, hhold.isFree]
    cases b.free <;> simp

/-- The payload of a live pointer is one allocated. -/
theorem Accounts.mem_allocs (hlive : Accounts live (allocs pl.headerSize pl.arenaStart bs))
    (hbs : Represents pl s bs) {ptr size : ℕ}
    (hptr : live ptr = some size) :
    (ptr, s.payloadSize pl ptr) ∈ allocs pl.headerSize pl.arenaStart bs := by
  obtain ⟨k, hk⟩ := hlive.known ptr size hptr
  obtain ⟨pre, post, rfl, rfl⟩ := exists_of_mem_allocs pl.headerSize hk
  have hhead := (chain_append.1 hbs.chain).2.1
  rw [payloadSize, Nat.add_sub_cancel, hhead.size]
  exact hk

end

/-- What holds of the live payloads. -/
structure LivePayloads (pl : Platform) (s : MemoryManager) (live : ℕ → Option ℕ) : Prop where
  disjoint : ∀ p q n k, live p = some n → live q = some k → p ≠ q →
    p + s.payloadSize pl p ≤ q ∨ q + s.payloadSize pl q ≤ p
  aligned : ∀ p n, live p = some n → 8 ∣ p
  inside : ∀ p n, live p = some n →
    pl.arenaStart ≤ p ∧ p + s.payloadSize pl p ≤ pl.arenaEnd
  large : ∀ p n, live p = some n → n ≤ s.payloadSize pl p
  /-- A pointer returned by `my_malloc` is not one of those live. -/
  fresh : ∀ size, (s.myMalloc pl size).2 ≠ 0 → live (s.myMalloc pl size).2 = none

/-- After any run, the block list partitions the arena, the live payloads are
    disjoint, aligned, in the arena and large enough, and with none live, the
    list is the single free block of the initial size. -/
theorem arena_invariant {pl : Platform} {s : MemoryManager} {live : ℕ → Option ℕ}
    (h : Reachable pl s live) : Partition pl s ∧ LivePayloads pl s live ∧
      ((∀ p, live p = none) → s.blocks pl = [pl.arenaStart] ∧
        (pl.header s.mem pl.arenaStart).isFree = 1 ∧
        (pl.header s.mem pl.arenaStart).size = arenaSize - pl.headerSize) := by
  obtain ⟨bs, hbs, hlive⟩ := h.inv
  have hsize := pl.headerSize_eq
  refine ⟨hbs.partition, ⟨fun p q n k hp hq hne => ?_, fun p n hp => ?_, fun p n hp => ?_,
    fun p n hp => ?_, fun size => (h.inv.myMalloc size).1⟩, fun hnone => ?_⟩
  · exact disjoint_of_mem_allocs pl.headerSize (hlive.mem_allocs hbs hp)
      (hlive.mem_allocs hbs hq) hne
  · obtain ⟨pre, k, post, hrep, _, rfl, _⟩ := h.inv.exists_block hp
    exact Nat.dvd_add (Nat.dvd_add pl.arenaStart_aligned (dvd_span pl.headerSize dvd_headerSize
      fun c hc => hrep.valid.dvd c (by simp [hc]))) dvd_headerSize
  · have hbounds := mem_allocs_bounds pl.headerSize (hlive.mem_allocs hbs hp)
    rw [hbs.end_eq] at hbounds
    omega
  · obtain ⟨k, hk, hle⟩ := hlive.granted p _ (hlive.mem_allocs hbs hp)
    rw [hp] at hk
    cases hk
    exact hle
  · have hempty : allocs pl.headerSize pl.arenaStart bs = [] := by
      refine List.eq_nil_iff_forall_not_mem.2 fun ⟨p, k⟩ hpk => ?_
      obtain ⟨n, hn, _⟩ := hlive.granted p k hpk
      rw [hnone p] at hn
      exact Option.some_ne_none n hn.symm
    -- With no block allocated, adjacent free ones would have been joined.
    have hinit := hbs.valid.eq_initial pl.headerSize (by decide) hempty
    have hhold := (hinit ▸ hbs.chain).1
    rw [hbs.blocks_eq, hhold.isFree, hhold.size, hinit]
    exact ⟨rfl, rfl, rfl⟩

/-- A platform with pointers of 32 bits. -/
def esp32 : Platform where
  ptrBytes := 4
  arenaStart := 0x3FC90000
  ptrBytes_eq := .inl rfl
  arenaStart_pos := by decide
  arenaStart_aligned := by decide
  arenaEnd_lt := by decide

/-- The allocator before it is initialised, in a memory of zeros. -/
def zeroed : MemoryManager where
  mem := fun _ => 0
  headBlock := 0
  initialized := false
  stats := ⟨0, 0, 0, 0, 0, 0, 0, 0, 0, 0⟩
  faults := []

/-- A payload of 100 bytes allocated and freed again. -/
theorem arena_invariant_freed :
    ((((zeroed.mkMemoryInit esp32).myMalloc esp32 100).1.myFree esp32 0x3FC90018).blocks esp32) =
      [0x3FC90000] := by
  have hrun : Reachable esp32
      (((zeroed.mkMemoryInit esp32).myMalloc esp32 100).1.myFree esp32 0x3FC90018) _ :=
    .free (.malloc (.init zeroed) 100) (by decide +kernel : _ = some 100)
  refine ((arena_invariant hrun).2.2 fun p => ?_).1
  by_cases hp : p = 0x3FC90018
  · rw [hp, Function.update_self]
  · have hret : ((zeroed.mkMemoryInit esp32).myMalloc esp32 100).2 = 0x3FC90018 := by
      decide +kernel
    rw [Function.update_of_ne hp, hret, if_neg (by decide), Function.update_of_ne hp]

end MemoryManager

end SliverOS
