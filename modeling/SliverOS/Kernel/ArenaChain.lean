import SliverOS.Heap.Blocks
import SliverOS.Kernel.Arena

/-!
# The headers of the arena as a list of blocks

`Chain` reads a list of blocks off the headers in memory, from an address on:
each header has the magic, the size and the flag of its block, and links to the
headers of the blocks before and after it. It says what splitting a block
(`chain_split`) and coalescing two (`chain_coalesce`) do to the headers, as
operations on this list.
-/

namespace SliverOS

open Bytes Heap

namespace Platform

variable (pl : Platform)

/-! ## Headers -/

/-- The fields of a header are in the ranges of their widths. -/
structure Fits (h : MkMemBlock) : Prop where
  magic : h.magic < 256 ^ 4
  size : h.size < 256 ^ 4
  prev : h.prev < 256 ^ pl.ptrBytes
  next : h.next < 256 ^ pl.ptrBytes
  isFree : h.isFree < 256 ^ 4
  padding : h.padding < 256 ^ 4

variable {pl} {m : Memory} {p q : ℕ} {h : MkMemBlock}

theorem length_packed_header : (pack (pl.headerWidths.zip
    [h.magic, h.size, h.prev, h.next, h.isFree, h.padding])).length = pl.headerSize := by
  rw [length_pack]
  simp only [headerWidths, headerSize, List.zip_cons_cons, List.zip_nil_right, List.map_cons,
    List.map_nil, List.sum_cons, List.sum_nil]
  omega

/-- The header stored is read back. -/
theorem header_setHeader_self (hf : pl.Fits h) : pl.header (pl.setHeader m p h) p = h := by
  obtain ⟨magic, size, prev, next, isFree, padding⟩ := h
  obtain ⟨h₁, h₂, h₃, h₄, h₅, h₆⟩ := hf
  have hslice := slice_blit_self m p (pack (pl.headerWidths.zip
    [magic, size, prev, next, isFree, padding]))
  have hlen : (pack (pl.headerWidths.zip [magic, size, prev, next, isFree, padding])).length =
      pl.headerSize := length_packed_header (h := ⟨magic, size, prev, next, isFree, padding⟩)
  have hunpack := unpack_pack (pl.headerWidths.zip [magic, size, prev, next, isFree, padding])
  rw [hlen] at hslice
  rw [header, setHeader, hslice]
  simp only [headerWidths, List.zip_cons_cons, List.zip_nil_right, List.map_cons, List.map_nil,
    Nat.mod_eq_of_lt h₁, Nat.mod_eq_of_lt h₂, Nat.mod_eq_of_lt h₃, Nat.mod_eq_of_lt h₄,
    Nat.mod_eq_of_lt h₅, Nat.mod_eq_of_lt h₆] at hunpack ⊢
  rw [hunpack]

/-- A header apart from some bytes stored is read as before. -/
theorem header_blit_of_apart {a : ℕ} {data : List UInt8}
    (h : q + pl.headerSize ≤ a ∨ a + data.length ≤ q) :
    pl.header (blit m a data) q = pl.header m q := by
  rw [header, header, slice_blit_of_apart h.symm]

/-- A header apart from the one stored is read as before. -/
theorem header_setHeader_of_apart (hpq : q + pl.headerSize ≤ p ∨ p + pl.headerSize ≤ q) :
    pl.header (pl.setHeader m q h) p = pl.header m p := by
  refine header_blit_of_apart ?_
  rw [length_packed_header]
  exact hpq.symm

/-- What is read from memory fits. -/
theorem fits_header : pl.Fits (pl.header m p) :=
  ⟨ofLE_take_lt _ _, ofLE_take_lt _ _, ofLE_take_lt _ _, ofLE_take_lt _ _, ofLE_take_lt _ _,
    ofLE_take_lt _ _⟩

theorem header_modify_self {f : MkMemBlock → MkMemBlock} (hf : pl.Fits (f (pl.header m p))) :
    pl.header (pl.modify m p f) p = f (pl.header m p) := header_setHeader_self hf

theorem header_modify_of_apart {f : MkMemBlock → MkMemBlock}
    (hpq : q + pl.headerSize ≤ p ∨ p + pl.headerSize ≤ q) :
    pl.header (pl.modify m q f) p = pl.header m p := header_setHeader_of_apart hpq

theorem headerSize_eq : pl.headerSize = 24 ∨ pl.headerSize = 32 := by
  have := pl.ptrBytes_eq
  simp only [headerSize]
  omega

theorem dvd_headerSize : 8 ∣ pl.headerSize := by
  rcases pl.headerSize_eq with h | h <;> rw [h] <;> decide

/-! ## Chains of headers -/

variable (pl) in
/-- The pointer to the header at an address, there being none at the end of the arena. -/
def link (a : ℕ) : ℕ := if a = pl.arenaEnd then 0 else a

variable (pl) in
/-- The header of the block `b` is stored at `p`, the one before it at `prev`. -/
structure Holds (m : Memory) (prev p : ℕ) (b : Block) : Prop where
  magic : (pl.header m p).magic = if b.free then blockMagicFree else blockMagicAlloc
  size : (pl.header m p).size = b.size
  prev : (pl.header m p).prev = prev
  next : (pl.header m p).next = pl.link (p + pl.headerSize + b.size)
  isFree : (pl.header m p).isFree = if b.free then 1 else 0

variable (pl) in
/-- The headers of some blocks are stored from the address `p` on, the header
    before the first of them being at `prev`. -/
def Chain (m : Memory) : ℕ → ℕ → List Block → Prop
  | _, _, [] => True
  | prev, p, b :: bs => pl.Holds m prev p b ∧ Chain m p (p + pl.headerSize + b.size) bs

variable (pl) in
/-- The address of the last of some blocks, or `prev` when there is none. -/
def lastAddr : ℕ → ℕ → List Block → ℕ
  | prev, _, [] => prev
  | _, p, b :: bs => lastAddr p (p + pl.headerSize + b.size) bs

variable {m m' : Memory} {prev p : ℕ} {bs pre post : List Block} {b : Block}

theorem Holds.congr (h : pl.Holds m prev p b) (hm : pl.header m' p = pl.header m p) :
    pl.Holds m' prev p b := by
  refine ⟨?_, ?_, ?_, ?_, ?_⟩ <;> rw [hm]
  exacts [h.magic, h.size, h.prev, h.next, h.isFree]

/-- A chain is in the headers of its blocks only. -/
theorem Chain.congr (h : pl.Chain m prev p bs) (hm : ∀ q, p ≤ q →
    q + pl.headerSize ≤ p + span pl.headerSize bs → pl.header m' q = pl.header m q) :
    pl.Chain m' prev p bs := by
  induction bs generalizing prev p with
  | nil => trivial
  | cons b bs ih =>
    obtain ⟨hb, hbs⟩ := h
    simp only [span] at hm
    exact ⟨hb.congr (hm p (Nat.le_refl _) (by omega)),
      ih hbs fun q hq hqe => hm q (by omega) (by omega)⟩

theorem chain_append : pl.Chain m prev p (pre ++ post) ↔
    pl.Chain m prev p pre ∧
      pl.Chain m (pl.lastAddr prev p pre) (p + span pl.headerSize pre) post := by
  induction pre generalizing prev p with
  | nil => simp [Chain, lastAddr, span]
  | cons b pre ih =>
    simp only [List.cons_append, Chain, lastAddr, span, ih, and_assoc, Nat.add_assoc]

/-- The memory changed from `p` on, where the blocks `bs` are now. -/
def Rewritten (pl : Platform) (m m' : Memory) (prev p : ℕ) (bs : List Block) : Prop :=
  pl.Chain m' prev p bs ∧ ∀ q, q + pl.headerSize ≤ p → pl.header m' q = pl.header m q

theorem Rewritten.trans {m'' : Memory} {bs' : List Block} (h : Rewritten pl m m' prev p bs)
    (h' : Rewritten pl m' m'' prev p bs') : Rewritten pl m m'' prev p bs' :=
  ⟨h'.1, fun q hq => (h'.2 q hq).trans (h.2 q hq)⟩

/-- A change after some blocks leaves these as they were. -/
theorem Chain.rewrite {bs' : List Block} (h : pl.Chain m prev p (pre ++ bs))
    (hr : Rewritten pl m m' (pl.lastAddr prev p pre) (p + span pl.headerSize pre) bs') :
    pl.Chain m' prev p (pre ++ bs') :=
  chain_append.2 ⟨(chain_append.1 h).1.congr fun q _ hq => hr.2 q hq, hr.1⟩

/-- The block after some address is made to link back to `x`. -/
theorem chain_relink {a x : ℕ} (h : pl.Chain m prev a bs) (ha : pl.arenaStart ≤ a)
    (hend : a + span pl.headerSize bs = pl.arenaEnd) (hx : x < 256 ^ pl.ptrBytes) :
    Rewritten pl m (if pl.link a ≠ 0 then pl.modify m (pl.link a) ({ · with prev := x }) else m)
      x a bs := by
  cases bs with
  | nil =>
    have hlink : pl.link a = 0 := if_pos hend
    rw [hlink, if_neg (by simp)]
    exact ⟨trivial, fun q _ => rfl⟩
  | cons b bs =>
    obtain ⟨hb, hbs⟩ := h
    have hsize := pl.headerSize_eq
    have hpos := pl.arenaStart_pos
    simp only [span] at hend
    have hlink : pl.link a = a := if_neg (by omega)
    rw [hlink, if_pos (by omega)]
    have hself : pl.header (pl.modify m a ({ · with prev := x })) a =
        { pl.header m a with prev := x } :=
      header_modify_self { fits_header with prev := hx }
    refine ⟨⟨⟨?_, ?_, ?_, ?_, ?_⟩, hbs.congr fun q hq _ => header_modify_of_apart (by omega)⟩,
      fun q hq => header_modify_of_apart (by omega)⟩ <;> rw [hself]
    exacts [hb.magic, hb.size, hb.next, hb.isFree]

end Platform

/-! ## The operations on headers -/

namespace MemoryManager

open Platform

variable {pl : Platform} {m : Memory} {prev p n : ℕ} {bs pre post : List Block} {b x y : Block}

/-- A block of the arena has its size and address in the ranges of their fields. -/
theorem lt_of_span (hend : p + span pl.headerSize (b :: post) = pl.arenaEnd)
    (hp : pl.arenaStart ≤ p) : p + pl.headerSize + b.size < 256 ^ pl.ptrBytes ∧
      b.size + pl.headerSize ≤ arenaSize := by
  have := pl.arenaEnd_lt
  simp only [span, arenaEnd] at hend
  omega

theorem magic_lt (free : Bool) : (if free then blockMagicFree else blockMagicAlloc) < 256 ^ 4 := by
  cases free <;> decide

theorem flag_lt (free : Bool) : (if free then 1 else 0) < 256 ^ 4 := by
  cases free <;> decide

/-- A block marked as free or allocated. -/
theorem chain_mark (free : Bool) (h : pl.Chain m prev p (b :: post)) :
    Rewritten pl m
      (pl.modify m p ({ · with
        magic := if free then blockMagicFree else blockMagicAlloc
        isFree := if free then 1 else 0 })) prev p (⟨b.size, free⟩ :: post) := by
  obtain ⟨hb, hpost⟩ := h
  have hself : pl.header (pl.modify m p ({ · with
      magic := if free then blockMagicFree else blockMagicAlloc
      isFree := if free then 1 else 0 })) p = { pl.header m p with
        magic := if free then blockMagicFree else blockMagicAlloc
        isFree := if free then 1 else 0 } :=
    header_modify_self { fits_header with
      magic := magic_lt free
      isFree := flag_lt free }
  refine ⟨⟨⟨?_, ?_, ?_, ?_, ?_⟩, hpost.congr fun q hq _ => header_modify_of_apart (by omega)⟩,
    fun q hq => header_modify_of_apart (by omega)⟩ <;> rw [hself]
  exacts [hb.size, hb.prev, hb.next]

/-- A block split: its header is shortened, and the header of the block split
    off stored after its payload, when there is room for it. -/
theorem chain_split (h : pl.Chain m prev p (b :: post)) (hn : n ≤ b.size)
    (hp : pl.arenaStart ≤ p) (hend : p + span pl.headerSize (b :: post) = pl.arenaEnd) :
    Rewritten pl m (split pl m p n) prev p
      (if pl.headerSize + minPayload ≤ b.size - n then
        ⟨n, b.free⟩ :: ⟨b.size - n - pl.headerSize, true⟩ :: post else b :: post) := by
  obtain ⟨hb, hpost⟩ := id h
  have hlt := lt_of_span hend hp
  have hfits : pl.Fits (pl.header m p) := fits_header
  have hsize : b.size < 256 ^ 4 := hb.size ▸ hfits.size
  simp only [span] at hend
  rw [split]
  simp only [hb.size]
  by_cases hroom : pl.headerSize + minPayload ≤ b.size - n
  swap
  · rw [if_neg hroom, if_neg hroom]
    exact ⟨h, fun q _ => rfl⟩
  rw [if_pos hroom, if_pos hroom, hb.next]
  simp only [minPayload] at hroom
  -- The header of the block split off.
  have hnew : pl.Fits ⟨blockMagicFree, b.size - n - pl.headerSize, p,
      pl.link (p + pl.headerSize + b.size), 1, 0⟩ :=
    ⟨magic_lt true, by simp only; omega, by simp only; omega, hb.next ▸ hfits.next, flag_lt true,
      flag_lt false⟩
  generalize hm₁ : pl.modify m (p + pl.headerSize + n) (fun _ => _) = m₁
  have hself₁ : pl.header m₁ (p + pl.headerSize + n) = _ := hm₁ ▸ header_modify_self hnew
  have hapart₁ {q : ℕ} (hq : q + pl.headerSize ≤ p + pl.headerSize + n ∨
      p + pl.headerSize + b.size ≤ q) : pl.header m₁ q = pl.header m q :=
    hm₁ ▸ header_modify_of_apart (by omega)
  -- The block after it links back to it.
  have hrel := chain_relink (x := p + pl.headerSize + n)
    (hpost.congr fun q hq _ => hapart₁ (.inr hq)) (by omega) (by omega) (by omega)
  generalize (if pl.link (p + pl.headerSize + b.size) ≠ 0 then _ else m₁) = m₂ at hrel ⊢
  have hself₂ : pl.header m₂ (p + pl.headerSize + n) = _ := (hrel.2 _ (by omega)).trans hself₁
  have hhead₂ : pl.header m₂ p = pl.header m p :=
    (hrel.2 p (by omega)).trans (hapart₁ (by omega))
  -- The block itself is shortened and links to it.
  have hself : pl.header (pl.modify m₂ p ({ · with
      next := p + pl.headerSize + n, size := n })) p =
        { pl.header m p with next := p + pl.headerSize + n, size := n } := by
    rw [← hhead₂]
    refine header_modify_self { fits_header with size := ?_, next := ?_ } <;> simp only <;> omega
  have hapart {q : ℕ} (hq : q + pl.headerSize ≤ p ∨ p + pl.headerSize ≤ q) :
      pl.header (pl.modify m₂ p ({ · with next := p + pl.headerSize + n, size := n })) q =
        pl.header m₂ q := header_modify_of_apart (by omega)
  generalize pl.modify m₂ p ({ · with next := p + pl.headerSize + n, size := n }) = m₃
    at hself hapart ⊢
  have hself₃ : pl.header m₃ (p + pl.headerSize + n) = _ := (hapart (by omega)).trans hself₂
  have hlink : pl.link (p + pl.headerSize + n) = p + pl.headerSize + n := if_neg (by omega)
  have haddr : p + pl.headerSize + n + pl.headerSize + (b.size - n - pl.headerSize) =
      p + pl.headerSize + b.size := by omega
  refine ⟨⟨⟨?_, ?_, ?_, ?_, ?_⟩, ⟨?_, ?_, ?_, ?_, ?_⟩, ?_⟩, fun q hq => ?_⟩
  · rw [hself, hb.magic]
  · rw [hself]
  · rw [hself, hb.prev]
  · rw [hself, hlink]
  · rw [hself, hb.isFree]
  · rw [hself₃]
    rfl
  · rw [hself₃]
  · rw [hself₃]
  · rw [hself₃, haddr]
  · rw [hself₃]
    rfl
  · rw [haddr]
    exact hrel.1.congr fun q hq _ => hapart (by omega)
  · rw [hapart (by omega), hrel.2 q (by omega), hapart₁ (by omega)]

/-- Two blocks coalesced: the header of the first is that of both. -/
theorem chain_coalesce (h : pl.Chain m prev p (x :: y :: post)) (hp : pl.arenaStart ≤ p)
    (hend : p + span pl.headerSize (x :: y :: post) = pl.arenaEnd) :
    Rewritten pl m (coalesce pl m p (p + pl.headerSize + x.size)) prev p
      (⟨x.size + (pl.headerSize + y.size), x.free⟩ :: post) := by
  obtain ⟨hx, hy, hpost⟩ := h
  have hlt := lt_of_span hend hp
  simp only [span, arenaEnd, arenaSize] at hend
  have haddr : p + pl.headerSize + (x.size + (pl.headerSize + y.size)) =
      p + pl.headerSize + x.size + pl.headerSize + y.size := by omega
  rw [coalesce]
  simp only [hy.next, hy.size]
  -- The header of the first block, with the size of both and the link of the second.
  generalize hf : (fun h : MkMemBlock => { h with
    size := h.size + (pl.headerSize + y.size)
    next := pl.link (p + pl.headerSize + x.size + pl.headerSize + y.size) }) = f
  have hself : pl.header (pl.modify m p f) p = f (pl.header m p) := by
    subst hf
    exact header_modify_self { fits_header with
      size := by simp only [hx.size]; omega
      next := hy.next ▸ fits_header.next }
  have hapart {q : ℕ} (hq : q + pl.headerSize ≤ p ∨ p + pl.headerSize ≤ q) :
      pl.header (pl.modify m p f) q = pl.header m q := header_modify_of_apart (by omega)
  generalize pl.modify m p f = m₁ at hself hapart ⊢
  subst hf
  -- The block after both links back to the first.
  have hrel := chain_relink (x := p) (hpost.congr fun q hq _ => hapart (by omega)) (by omega)
    (by simp only [arenaEnd, arenaSize]; omega) (by omega)
  generalize (if pl.link (p + pl.headerSize + x.size + pl.headerSize + y.size) ≠ 0 then _
    else m₁) = m₂ at hrel ⊢
  have hself₂ : pl.header m₂ p = { pl.header m p with
      size := (pl.header m p).size + (pl.headerSize + y.size)
      next := pl.link (p + pl.headerSize + x.size + pl.headerSize + y.size) } :=
    (hrel.2 p (by omega)).trans hself
  refine ⟨⟨⟨?_, ?_, ?_, ?_, ?_⟩, ?_⟩, fun q hq => ?_⟩
  · rw [hself₂, hx.magic]
  · rw [hself₂, hx.size]
  · rw [hself₂, hx.prev]
  · rw [hself₂, haddr]
  · rw [hself₂, hx.isFree]
  · rw [haddr]
    exact hrel.1
  · rw [hrel.2 q (by omega), hapart (by omega)]

end MemoryManager

end SliverOS
