import Mathlib

/-!
# Heaps as lists of blocks

A heap is a run of blocks, allocated or free, each a header of `H` bytes and a
payload. It is seen here as the list of its blocks, by payload size.

An allocation takes the first free block that is large enough (`firstFit?`) and
gives away the end of it when there is room for a block there (`place`); a release
joins the block with the free ones next to it (`release`). Both keep a heap
valid (`Valid`): its blocks fill it, their sizes are multiples of a granule, not
zero, and no two free ones are next to each other. Both change the list of the allocated
payloads (`allocs`) by the one payload they are about.
-/

namespace Heap

/-- A block of a heap, by the size of its payload. -/
structure Block where
  size : ℕ
  free : Bool
  deriving DecidableEq

variable (H : ℕ)

/-- The number of bytes some blocks take up, headers included. -/
def span : List Block → ℕ
  | [] => 0
  | b :: bs => H + b.size + span bs

/-- The payloads allocated in the blocks from the address `a` on: their
    addresses and sizes. -/
def allocs (a : ℕ) : List Block → List (ℕ × ℕ)
  | [] => []
  | b :: bs => (if b.free then [] else [(a + H, b.size)]) ++ allocs (a + H + b.size) bs

/-- The number of payload bytes allocated in some blocks. -/
def used (bs : List Block) : ℕ := ((bs.filter fun b => !b.free).map Block.size).sum

/-- The number of payload bytes free in some blocks. -/
def unused (bs : List Block) : ℕ := ((bs.filter Block.free).map Block.size).sum

@[simp] theorem used_append (xs ys : List Block) : used (xs ++ ys) = used xs + used ys := by
  simp [used]

@[simp] theorem used_cons (b : Block) (bs : List Block) :
    used (b :: bs) = (if b.free then 0 else b.size) + used bs := by
  cases hb : b.free <;> simp [used, hb]

@[simp] theorem unused_append (xs ys : List Block) :
    unused (xs ++ ys) = unused xs + unused ys := by
  simp [unused]

@[simp] theorem unused_cons (b : Block) (bs : List Block) :
    unused (b :: bs) = (if b.free then b.size else 0) + unused bs := by
  cases hb : b.free <;> simp [unused, hb]

theorem used_le_span (bs : List Block) : used bs ≤ span H bs := by
  induction bs with
  | nil => exact Nat.le_refl _
  | cons b bs ih =>
    rw [used_cons, span]
    split <;> omega

@[simp] theorem span_append (xs ys : List Block) : span H (xs ++ ys) = span H xs + span H ys := by
  induction xs with
  | nil => simp [span]
  | cons b xs ih => simp [span, ih, Nat.add_assoc]

theorem allocs_append (a : ℕ) (xs ys : List Block) :
    allocs H a (xs ++ ys) = allocs H a xs ++ allocs H (a + span H xs) ys := by
  induction xs generalizing a with
  | nil => simp [allocs, span]
  | cons b xs ih => simp [allocs, span, ih, Nat.add_assoc]

/-- Allocated payloads lie within the blocks. -/
theorem mem_allocs_bounds {a : ℕ} {bs : List Block} {p n : ℕ} (h : (p, n) ∈ allocs H a bs) :
    a + H ≤ p ∧ p + n ≤ a + span H bs := by
  induction bs generalizing a with
  | nil => simp [allocs] at h
  | cons b bs ih =>
    simp only [allocs, List.mem_append] at h
    rcases h with h | h
    · split at h
      · simp at h
      · obtain ⟨rfl, rfl⟩ := Prod.mk.inj (List.mem_singleton.1 h)
        simp only [span]
        omega
    · have := ih h
      simp only [span]
      omega

/-- Allocated payloads do not overlap, a header being between any two of them. -/
theorem pairwise_allocs (a : ℕ) (bs : List Block) :
    (allocs H a bs).Pairwise fun x y => x.1 + x.2 + H ≤ y.1 := by
  induction bs generalizing a with
  | nil => exact .nil
  | cons b bs ih =>
    rw [allocs, List.pairwise_append]
    refine ⟨by split <;> simp, ih _, fun x hx y hy => ?_⟩
    split at hx
    · simp at hx
    · rw [List.mem_singleton.1 hx]
      exact (mem_allocs_bounds H hy).1

/-- Allocated payloads at different addresses do not overlap. -/
theorem disjoint_of_mem_allocs {a p q n k : ℕ} {bs : List Block} (hp : (p, n) ∈ allocs H a bs)
    (hq : (q, k) ∈ allocs H a bs) (hne : p ≠ q) : p + n ≤ q ∨ q + k ≤ p := by
  let Apart (x y : ℕ × ℕ) : Prop := x.1 + x.2 ≤ y.1 ∨ y.1 + y.2 ≤ x.1
  have : Std.Symm Apart := ⟨fun _ _ h => h.symm⟩
  have hpair : (allocs H a bs).Pairwise Apart :=
    (pairwise_allocs H a bs).imp fun h => .inl (by omega)
  exact hpair.forall hp hq fun heq => hne (Prod.mk.inj heq).1

/-- An allocated payload is the one of an allocated block. -/
theorem exists_of_mem_allocs {a : ℕ} {bs : List Block} {p n : ℕ} (h : (p, n) ∈ allocs H a bs) :
    ∃ pre post, bs = pre ++ ⟨n, false⟩ :: post ∧ p = a + span H pre + H := by
  induction bs generalizing a with
  | nil => simp [allocs] at h
  | cons b bs ih =>
    simp only [allocs, List.mem_append] at h
    rcases h with h | h
    · obtain ⟨size, free⟩ := b
      cases free with
      | true => simp at h
      | false =>
        obtain ⟨rfl, rfl⟩ := Prod.mk.inj (List.mem_singleton.1 h)
        exact ⟨[], bs, rfl, rfl⟩
    · obtain ⟨pre, post, rfl, rfl⟩ := ih h
      exact ⟨b :: pre, post, rfl, by simp only [span]; omega⟩

theorem dvd_span {g : ℕ} {bs : List Block} (hH : g ∣ H) (h : ∀ b ∈ bs, g ∣ b.size) :
    g ∣ span H bs := by
  induction bs with
  | nil => exact Nat.dvd_zero _
  | cons b bs ih =>
    exact Nat.dvd_add (Nat.dvd_add hH (h b (by simp))) (ih fun c hc => h c (by simp [hc]))

theorem length_mul_le_span (bs : List Block) : bs.length * H ≤ span H bs := by
  induction bs with
  | nil => simp [span]
  | cons b bs ih =>
    simp only [List.length_cons, span, Nat.succ_mul]
    omega

/-! ## Valid heaps -/

/-- Two blocks next to each other, not both free. -/
def Separated (b c : Block) : Prop := ¬(b.free = true ∧ c.free = true)

/-- Around an allocated block, nothing is asked. -/
theorem separated_allocated {pre post : List Block} {b : Block} (hb : b.free = false) :
    (pre ++ b :: post).IsChain Separated ↔ pre.IsChain Separated ∧ post.IsChain Separated := by
  simp [List.isChain_append, List.isChain_cons, Separated, hb]

/-- The blocks next to a free one are not free. -/
theorem separated_free {pre post : List Block} {b : Block} (hb : b.free = true) :
    (pre ++ b :: post).IsChain Separated ↔
      (pre.IsChain Separated ∧ ∀ c ∈ pre.getLast?, c.free = false) ∧
        post.IsChain Separated ∧ ∀ c ∈ post.head?, c.free = false := by
  simp only [List.isChain_append, List.isChain_cons, Separated, hb, List.head?_cons,
    Option.mem_some_iff, forall_eq', and_true, true_and, Bool.not_eq_true]
  tauto

/-- Blocks filling `total` bytes, of sizes that are multiples of the granule
    `g` and not zero, no two free ones next to each other. -/
structure Valid (g total : ℕ) (bs : List Block) : Prop where
  span_eq : span H bs = total
  pos : ∀ b ∈ bs, 0 < b.size
  dvd : ∀ b ∈ bs, g ∣ b.size
  separated : bs.IsChain Separated

/-- The heap with nothing allocated. -/
def initial (total : ℕ) : List Block := [⟨total - H, true⟩]

theorem valid_initial {g total : ℕ} (hH : g ∣ H) (ht : g ∣ total) (hlt : H < total) :
    Valid H g total (initial H total) where
  span_eq := by
    simp only [initial, span]
    omega
  pos b hb := by
    rw [List.mem_singleton.1 hb]
    exact Nat.sub_pos_of_lt hlt
  dvd b hb := by
    rw [List.mem_singleton.1 hb]
    exact Nat.dvd_sub ht hH
  separated := .singleton _

/-- A valid heap with nothing allocated is the initial one. -/
theorem Valid.eq_initial {g total a : ℕ} {bs : List Block} (h : Valid H g total bs)
    (hpos : 0 < total) (hnone : allocs H a bs = []) : bs = initial H total := by
  have hspan := h.span_eq
  match bs, h.separated with
  | [], _ =>
    simp only [span] at hspan
    omega
  | [⟨size, free⟩], _ =>
    cases free with
    | true =>
      simp only [span] at hspan
      rw [initial, ← hspan]
      simp
    | false => simp [allocs] at hnone
  | ⟨size, free⟩ :: ⟨size', free'⟩ :: bs, hsep =>
    -- Of two blocks next to each other, one is allocated.
    have hfirst : Separated ⟨size, free⟩ ⟨size', free'⟩ := (List.isChain_cons_cons.1 hsep).1
    cases free <;> cases free' <;> simp [allocs, Separated] at hnone hfirst

/-! ## Allocation -/

/-- A block large enough and free. -/
def Block.fits (n : ℕ) (b : Block) : Bool := b.free && n ≤ b.size

/-- The first block that fits, between those before and those after it. -/
def firstFit? (n : ℕ) : List Block → Option (List Block × Block × List Block)
  | [] => none
  | b :: bs =>
    if b.fits n then some ([], b, bs)
    else (firstFit? n bs).map fun r => (b :: r.1, r.2.1, r.2.2)

theorem firstFit?_eq_some {n : ℕ} {bs pre post : List Block} {b : Block}
    (h : firstFit? n bs = some (pre, b, post)) : bs = pre ++ b :: post ∧ b.fits n := by
  induction bs generalizing pre with
  | nil => simp [firstFit?] at h
  | cons c bs ih =>
    rw [firstFit?] at h
    split at h
    · cases h
      exact ⟨rfl, by assumption⟩
    · obtain ⟨⟨pre', b', post'⟩, hr, heq⟩ := Option.map_eq_some_iff.1 h
      cases heq
      obtain ⟨hbs, hfits⟩ := ih hr
      exact ⟨by rw [hbs, List.cons_append], hfits⟩

theorem firstFit?_eq_none_iff {n : ℕ} {bs : List Block} :
    firstFit? n bs = none ↔ ∀ b ∈ bs, ¬b.fits n := by
  induction bs with
  | nil => simp [firstFit?]
  | cons c bs ih =>
    rw [firstFit?, List.forall_mem_cons]
    split
    · rename_i hfits
      simp [hfits]
    · rename_i hfits
      rw [Option.map_eq_none_iff, ih]
      exact (and_iff_right hfits).symm

/-- No block before the first one that fits does. -/
theorem not_fits_of_firstFit? {n : ℕ} {bs pre post : List Block} {b : Block}
    (h : firstFit? n bs = some (pre, b, post)) : ∀ c ∈ pre, ¬c.fits n := by
  induction bs generalizing pre with
  | nil => simp [firstFit?] at h
  | cons c bs ih =>
    rw [firstFit?] at h
    split at h
    · cases h
      simp
    · rename_i hfits
      obtain ⟨⟨pre', b', post'⟩, hr, heq⟩ := Option.map_eq_some_iff.1 h
      cases heq
      exact List.forall_mem_cons.2 ⟨hfits, ih hr⟩

/-- A free block with `n` bytes of it allocated: the rest of it is a free block,
    when it can hold `m` bytes at least. -/
def place (m n : ℕ) (b : Block) : List Block :=
  if H + m ≤ b.size - n then [⟨n, false⟩, ⟨b.size - n - H, true⟩] else [⟨b.size, false⟩]

section

variable {g total m n : ℕ} {pre post : List Block} {b : Block}

theorem span_place (h : n ≤ b.size) : span H (place H m n b) = H + b.size := by
  rw [place]
  split <;> simp only [span] <;> omega

/-- The payload allocated in a block is at its start, and large enough. -/
theorem allocs_place (a : ℕ) (h : n ≤ b.size) :
    ∃ k, n ≤ k ∧ allocs H a (place H m n b) = [(a + H, k)] := by
  rw [place]
  split
  · exact ⟨n, Nat.le_refl _, by simp [allocs]⟩
  · exact ⟨b.size, h, by simp [allocs]⟩

/-- The size of the payload allocated in a block. -/
def placed (m n : ℕ) (b : Block) : ℕ := if H + m ≤ b.size - n then n else b.size

/-- An allocation uses the payload placed. -/
theorem used_place : used (place H m n b) = placed H m n b := by
  rw [place, placed]
  split <;> simp [used]

/-- An allocation keeps a heap valid. -/
theorem Valid.place (h : Valid H g total (pre ++ b :: post)) (hH : g ∣ H) (hn : g ∣ n)
    (hpos : 0 < n) (hm : 0 < m) (hb : b.fits n) :
    Valid H g total (pre ++ (Heap.place H m n b ++ post)) := by
  obtain ⟨hfree, hle⟩ : b.free = true ∧ n ≤ b.size := by
    simpa [Block.fits] using hb
  obtain ⟨⟨hpre, _⟩, hpost, hhead⟩ := (separated_free hfree).1 h.separated
  -- A block is one of those there were, or one of those placed.
  have hmem (c : Block) (hc : c ∈ pre ++ (Heap.place H m n b ++ post)) :
      c ∈ pre ++ b :: post ∨ c ∈ Heap.place H m n b := by
    simp only [List.mem_append, List.mem_cons] at hc ⊢
    tauto
  refine ⟨?_, fun c hc => ?_, fun c hc => ?_, ?_⟩
  · have := h.span_eq
    simp only [span_append, span, span_place H hle] at this ⊢
    exact this
  · rcases hmem c hc with hc | hc
    · exact h.pos c hc
    rw [Heap.place] at hc
    split at hc <;> simp only [List.mem_cons, List.not_mem_nil, or_false] at hc
    · rcases hc with rfl | rfl <;> simp only <;> omega
    · rw [hc]
      simp only
      omega
  · rcases hmem c hc with hc | hc
    · exact h.dvd c hc
    have hsize : g ∣ b.size := h.dvd b (by simp)
    rw [Heap.place] at hc
    split at hc <;> simp only [List.mem_cons, List.not_mem_nil, or_false] at hc
    · rcases hc with rfl | rfl
      · exact hn
      · exact Nat.dvd_sub (Nat.dvd_sub hsize hn) hH
    · rw [hc]
      exact hsize
  · rw [Heap.place]
    split
    · refine (separated_allocated rfl).2 ⟨hpre, List.isChain_cons.2 ⟨fun c hc => ?_, hpost⟩⟩
      simp [Separated, hhead c hc]
    · exact (separated_allocated rfl).2 ⟨hpre, hpost⟩

end

/-! ## Release -/

/-- What a free first block gives to the one before it, and what is left. -/
def absorbFirst : List Block → ℕ × List Block
  | [] => (0, [])
  | b :: bs => if b.free then (H + b.size, bs) else (0, b :: bs)

/-- What a free last block gives to the one after it, and what is left. -/
def absorbLast (bs : List Block) : ℕ × List Block :=
  match bs.getLast? with
  | none => (0, [])
  | some b => if b.free then (b.size + H, bs.dropLast) else (0, bs)

/-- A release of the block `b`: it is joined with the free blocks next to it. -/
def release (pre : List Block) (b : Block) (post : List Block) : List Block :=
  (absorbLast H pre).2 ++
    ⟨(absorbLast H pre).1 + b.size + (absorbFirst H post).1, true⟩ :: (absorbFirst H post).2

section

variable {g total : ℕ} {pre post : List Block} {b : Block}

theorem span_absorbFirst (bs : List Block) :
    (absorbFirst H bs).1 + span H (absorbFirst H bs).2 = span H bs := by
  cases bs with
  | nil => rfl
  | cons b bs => cases hb : b.free <;> simp [absorbFirst, hb, span]

theorem allocs_absorbFirst (a : ℕ) (bs : List Block) :
    allocs H (a + (absorbFirst H bs).1) (absorbFirst H bs).2 = allocs H a bs := by
  cases bs with
  | nil => rfl
  | cons b bs => cases hb : b.free <;> simp [absorbFirst, hb, allocs, Nat.add_assoc]

/-- A list that is not empty, by its last element. -/
theorem absorbLast_cases (bs : List Block) :
    absorbLast H bs = (0, bs) ∧ (∀ b ∈ bs.getLast?, b.free = false) ∨
      ∃ bs' b, bs = bs' ++ [b] ∧ b.free = true ∧ absorbLast H bs = (b.size + H, bs') := by
  rw [absorbLast]
  cases bs using List.reverseRecOn with
  | nil => exact .inl ⟨rfl, by simp⟩
  | append_singleton bs b =>
    cases hb : b.free with
    | true => exact .inr ⟨bs, b, rfl, hb, by simp [hb]⟩
    | false => exact .inl ⟨by simp [hb], by simp [hb]⟩

theorem span_absorbLast (bs : List Block) :
    span H (absorbLast H bs).2 + (absorbLast H bs).1 = span H bs := by
  rcases absorbLast_cases H bs with ⟨h, _⟩ | ⟨bs', b, rfl, _, h⟩
  · rw [h]
    rfl
  · rw [h]
    simp only [span_append, span]
    omega

theorem allocs_absorbLast (a : ℕ) (bs : List Block) :
    allocs H a (absorbLast H bs).2 = allocs H a bs := by
  rcases absorbLast_cases H bs with ⟨h, _⟩ | ⟨bs', b, rfl, hb, h⟩
  · rw [h]
  · rw [h, allocs_append]
    simp [allocs, hb]

/-- A release takes the payload of the block out of those allocated. -/
theorem allocs_release (a : ℕ) : allocs H a (release H pre b post) =
    allocs H a pre ++ allocs H (a + span H pre + H + b.size) post := by
  rw [release, allocs_append, allocs, allocs_absorbLast, if_pos rfl, List.nil_append]
  have haddr : a + span H (absorbLast H pre).2 + H +
      ((absorbLast H pre).1 + b.size + (absorbFirst H post).1) =
        a + span H pre + H + b.size + (absorbFirst H post).1 := by
    have := span_absorbLast H pre
    omega
  rw [haddr, allocs_absorbFirst]

/-- A release gives the payload back. -/
theorem used_release (hb : b.free = false) :
    used (release H pre b post) + b.size = used (pre ++ b :: post) := by
  have hlast : used (absorbLast H pre).2 = used pre := by
    rcases absorbLast_cases H pre with ⟨h, _⟩ | ⟨bs, a, rfl, ha, h⟩
    · rw [h]
    · rw [h]
      simp [ha, used]
  have hfirst : used (absorbFirst H post).2 = used post := by
    cases post with
    | nil => rfl
    | cons c bs => cases hc : c.free <;> simp [absorbFirst, hc]
  simp only [release, used_append, used_cons, hlast, hfirst, hb, if_true, Bool.false_eq_true,
    if_false]
  omega

/-- What is left of the blocks before is separated, and ends in an allocated block. -/
theorem absorbLast_separated (hH : g ∣ H) (hdvd : ∀ c ∈ pre, g ∣ c.size)
    (h : pre.IsChain Separated) :
    g ∣ (absorbLast H pre).1 ∧ (∀ c ∈ (absorbLast H pre).2, c ∈ pre) ∧
      (absorbLast H pre).2.IsChain Separated ∧
        ∀ c ∈ (absorbLast H pre).2.getLast?, c.free = false := by
  rcases absorbLast_cases H pre with ⟨heq, hfree⟩ | ⟨bs, a, rfl, ha, heq⟩
  · rw [heq]
    exact ⟨Nat.dvd_zero _, fun c hc => hc, h, hfree⟩
  · obtain ⟨⟨hbs, hfree⟩, _⟩ := (separated_free ha).1 h
    rw [heq]
    exact ⟨Nat.dvd_add (hdvd a (by simp)) hH, fun c hc => List.mem_append_left _ hc, hbs, hfree⟩

/-- What is left of the blocks after is separated, and starts with an allocated block. -/
theorem absorbFirst_separated (hH : g ∣ H) (hdvd : ∀ c ∈ post, g ∣ c.size)
    (h : post.IsChain Separated) :
    g ∣ (absorbFirst H post).1 ∧ (∀ c ∈ (absorbFirst H post).2, c ∈ post) ∧
      (absorbFirst H post).2.IsChain Separated ∧
        ∀ c ∈ (absorbFirst H post).2.head?, c.free = false := by
  cases post with
  | nil => simp [absorbFirst]
  | cons a bs =>
    cases ha : a.free with
    | true =>
      have hchain : ([] ++ a :: bs).IsChain Separated := h
      obtain ⟨_, hbs, hfree⟩ := (separated_free ha).1 hchain
      simp only [absorbFirst, ha, if_true]
      exact ⟨Nat.dvd_add hH (hdvd a (by simp)), fun c hc => List.mem_cons_of_mem _ hc, hbs, hfree⟩
    | false =>
      simp only [absorbFirst, ha, Bool.false_eq_true, if_false]
      exact ⟨Nat.dvd_zero _, fun c hc => hc, h, by simp [ha]⟩

/-- A release keeps a heap valid. -/
theorem Valid.release (h : Valid H g total (pre ++ b :: post)) (hH : g ∣ H)
    (hb : b.free = false) : Valid H g total (Heap.release H pre b post) := by
  obtain ⟨hpre, hpost⟩ := (separated_allocated hb).1 h.separated
  obtain ⟨hdl, hal, hcl, hfl⟩ :=
    absorbLast_separated H hH (fun c hc => h.dvd c (List.mem_append_left _ hc)) hpre
  obtain ⟨hdf, haf, hcf, hff⟩ := absorbFirst_separated H hH
    (fun c hc => h.dvd c (List.mem_append_right _ (List.mem_cons_of_mem _ hc))) hpost
  -- The blocks are those before, and the one that was joined.
  have hmem (c : Block) (hc : c ∈ Heap.release H pre b post) : c ∈ pre ++ b :: post ∨
      c = ⟨(absorbLast H pre).1 + b.size + (absorbFirst H post).1, true⟩ := by
    rcases List.mem_append.1 hc with hc | hc
    · exact .inl (List.mem_append_left _ (hal c hc))
    rcases List.mem_cons.1 hc with hc | hc
    · exact .inr hc
    · exact .inl (List.mem_append_right _ (List.mem_cons_of_mem _ (haf c hc)))
  refine ⟨?_, fun c hc => ?_, fun c hc => ?_, (separated_free rfl).2 ⟨⟨hcl, hfl⟩, hcf, hff⟩⟩
  · have h₁ := span_absorbLast H pre
    have h₂ := span_absorbFirst H post
    have h₃ := h.span_eq
    simp only [Heap.release, span_append, span] at h₃ ⊢
    omega
  · rcases hmem c hc with hc | rfl
    · exact h.pos c hc
    · have := h.pos b (by simp)
      simp only
      omega
  · rcases hmem c hc with hc | rfl
    · exact h.dvd c hc
    · exact Nat.dvd_add (Nat.dvd_add hdl (h.dvd b (by simp))) hdf

end

end Heap
