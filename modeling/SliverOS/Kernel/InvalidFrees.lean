import SliverOS.Kernel.FirstFit

/-!
# Invalid frees

`my_free` goes by the tag in front of the pointer. A tag is four bytes at a multiple of 8, so
that it never straddles a header, and no field of a header but the tag reads as one. Where a
tag says "allocated" there is thus an allocated block, or a byte that an owner stored in its
payload (`Guarded`): what is left of older headers says "free" or nothing. A pointer that is
not live is rejected, but where an owner has forged a header (`myFree_rejects`).
-/

namespace SliverOS

open Bytes Heap Platform

namespace MemoryManager

variable {pl : Platform} {s : MemoryManager} {m m' m'' : Memory} {bs bs' pre post : List Block}
  {b : Block} {prev a p q x n : ℕ}

/-! ## Tags -/

theorem magic_eq (pl : Platform) (m : Memory) (a : ℕ) :
    (pl.header m a).magic = ofLE (slice m a 4) := by
  change ofLE ((slice m a pl.headerSize).take 4) = _
  rw [take_slice, Nat.min_eq_left (by simp only [headerSize]; omega)]

theorem prev_eq (m : Memory) (q : ℕ) :
    (pl.header m q).prev = ofLE (slice m (q + 8) pl.ptrBytes) := by
  change ofLE ((((slice m q pl.headerSize).drop 4).drop 4).take pl.ptrBytes) = _
  rw [drop_slice, drop_slice, take_slice, Nat.min_eq_left (by simp only [headerSize]; omega)]

theorem next_eq (m : Memory) (q : ℕ) :
    (pl.header m q).next = ofLE (slice m (q + 8 + pl.ptrBytes) pl.ptrBytes) := by
  change ofLE (((((slice m q pl.headerSize).drop 4).drop 4).drop pl.ptrBytes).take
    pl.ptrBytes) = _
  rw [drop_slice, drop_slice, drop_slice, take_slice,
    Nat.min_eq_left (by simp only [headerSize]; omega)]

theorem isFree_eq (m : Memory) (q : ℕ) :
    (pl.header m q).isFree = ofLE (slice m (q + 8 + pl.ptrBytes + pl.ptrBytes) 4) := by
  change ofLE ((((((slice m q pl.headerSize).drop 4).drop 4).drop pl.ptrBytes).drop
    pl.ptrBytes).take 4) = _
  rw [drop_slice, drop_slice, drop_slice, drop_slice, take_slice,
    Nat.min_eq_left (by simp only [headerSize]; omega)]

/-- A pointer to a multiple of 8 does not read as the tag of an allocated block. -/
theorem magic_ne_of_dvd {w : ℕ} (hw : 4 ≤ w) (h : 8 ∣ ofLE (slice m a w)) :
    (pl.header m a).magic ≠ blockMagicAlloc := by
  intro heq
  obtain ⟨k, rfl⟩ := Nat.exists_eq_add_of_le hw
  rw [slice_append, ofLE_append, length_slice, ← magic_eq pl, heq, blockMagicAlloc] at h
  omega

/-- The fields of a header, but for its tag, do not read as the tag of an allocated block. -/
theorem magic_inside (hprev : 8 ∣ (pl.header m q).prev) (hnext : 8 ∣ (pl.header m q).next)
    (hfree : (pl.header m q).isFree ≤ 1) {k : ℕ} (hk : 8 ∣ k) (hpos : 0 < k)
    (hlt : k < pl.headerSize) : (pl.header m (q + k)).magic ≠ blockMagicAlloc := by
  have hflag : (pl.header m (q + 8 + pl.ptrBytes + pl.ptrBytes)).magic ≠ blockMagicAlloc := by
    rw [magic_eq, ← isFree_eq, blockMagicAlloc]
    omega
  rw [prev_eq] at hprev
  rw [next_eq] at hnext
  rcases pl.ptrBytes_eq with hw | hw <;> simp only [headerSize, hw] at hlt hprev hnext hflag
  · obtain rfl | rfl : k = 8 ∨ k = 16 := by omega
    · exact magic_ne_of_dvd (Nat.le_refl _) hprev
    · exact hflag
  · obtain rfl | rfl | rfl : k = 8 ∨ k = 16 ∨ k = 24 := by omega
    · exact magic_ne_of_dvd (by decide) hprev
    · exact magic_ne_of_dvd (by decide) hnext
    · exact hflag

/-! ## Headers of a chain -/

theorem exists_append_of_mem_addrs (h : q ∈ addrs pl p bs) :
    ∃ pre b post, bs = pre ++ b :: post ∧ q = p + span pl.headerSize pre := by
  induction bs generalizing p with
  | nil => simp [addrs] at h
  | cons b bs ih =>
    rcases List.mem_cons.1 h with rfl | h
    · exact ⟨[], b, bs, rfl, rfl⟩
    · obtain ⟨pre, c, post, rfl, rfl⟩ := ih h
      exact ⟨b :: pre, c, post, rfl, by simp only [span]; omega⟩

/-- An allocated block has a header. -/
theorem mem_addrs_of_mem_allocs (h : (q + pl.headerSize, n) ∈ allocs pl.headerSize p bs) :
    q ∈ addrs pl p bs := by
  obtain ⟨pre, post, rfl, hq⟩ := exists_of_mem_allocs pl.headerSize h
  obtain rfl : q = p + span pl.headerSize pre := by omega
  rw [addrs_append]
  exact List.mem_append_right _ (List.mem_cons_self ..)

/-- Headers and links are at multiples of 8. -/
theorem dvd_of_mem_addrs (h : pl.Chain m 0 pl.arenaStart bs) (hdvd : ∀ b ∈ bs, 8 ∣ b.size)
    (hq : q ∈ addrs pl pl.arenaStart bs) :
    8 ∣ q ∧ 8 ∣ (pl.header m q).prev ∧ 8 ∣ (pl.header m q).next ∧
      (pl.header m q).isFree ≤ 1 ∧ ((pl.header m q).magic = blockMagicAlloc →
        ∃ n, (q + pl.headerSize, n) ∈ allocs pl.headerSize pl.arenaStart bs) := by
  obtain ⟨pre, b, post, rfl, rfl⟩ := exists_append_of_mem_addrs hq
  have hhold := (chain_append.1 h).2.1
  have haddr {bs : List Block} (hbs : ∀ b ∈ bs, 8 ∣ b.size) :
      8 ∣ pl.arenaStart + span pl.headerSize bs :=
    Nat.dvd_add pl.arenaStart_aligned (dvd_span pl.headerSize dvd_headerSize hbs)
  have hself : 8 ∣ pl.arenaStart + span pl.headerSize pre := haddr fun c hc => hdvd c (by simp [hc])
  refine ⟨hself, ?_, ?_, ?_, fun hmagic => ⟨b.size, ?_⟩⟩
  · rw [hhold.prev]
    cases pre using List.reverseRecOn with
    | nil => exact Nat.dvd_zero _
    | append_singleton pre c =>
      rw [lastAddr_concat]
      exact haddr fun c hc => hdvd c (by simp [hc])
  · rw [hhold.next, link]
    split
    · exact Nat.dvd_zero _
    · exact Nat.dvd_add (Nat.dvd_add hself dvd_headerSize) (hdvd b (by simp))
  · rw [hhold.isFree]
    split <;> omega
  · rw [hhold.magic] at hmagic
    have hb : b.free = false := by
      cases hf : b.free with
      | true => simp [hf, blockMagicFree, blockMagicAlloc] at hmagic
      | false => rfl
    rw [allocs_append, allocs, hb]
    simp

/-- The bytes of the headers of some blocks. -/
def headerBytes (pl : Platform) (qs : List ℕ) : Set ℕ :=
  {x | ∃ q ∈ qs, q ≤ x ∧ x < q + pl.headerSize}

/-- Bytes are written in the headers at some addresses only. -/
def Frame (pl : Platform) (qs : List ℕ) (m m' : Memory) : Prop :=
  ∀ x, x ∉ headerBytes pl qs → m' x = m x

/-- Where a tag says "allocated" there is an allocated block, or a byte stored by an owner. -/
def Guarded (pl : Platform) (m : Memory) (stored : Set ℕ) (bs : List Block) : Prop :=
  ∀ a, 8 ∣ a → pl.arenaStart ≤ a → a < pl.arenaEnd →
    (pl.header m a).magic = blockMagicAlloc →
      (∃ n, (a + pl.headerSize, n) ∈ allocs pl.headerSize pl.arenaStart bs) ∨
        ∃ i < 4, a + i ∈ stored

variable {stored stored' : Set ℕ}

theorem Guarded.mono (h : Guarded pl m stored bs) (hsub : stored ⊆ stored') :
    Guarded pl m stored' bs := fun a ha hstart hend htag =>
  (h a ha hstart hend htag).imp_right fun ⟨i, hi, hmem⟩ => ⟨i, hi, hsub hmem⟩

/-- Writing headers keeps the tags guarded, when the allocated blocks keep theirs. -/
theorem Guarded.rewrite (h : Guarded pl m stored bs) (hchain : pl.Chain m' 0 pl.arenaStart bs')
    (hdvd : ∀ b ∈ bs', 8 ∣ b.size) (hframe : Frame pl (addrs pl pl.arenaStart bs') m m')
    (hkept : ∀ q n, (q + pl.headerSize, n) ∈ allocs pl.headerSize pl.arenaStart bs →
      q ∈ addrs pl pl.arenaStart bs') :
    Guarded pl m' (stored \ headerBytes pl (addrs pl pl.arenaStart bs')) bs' := by
  intro a ha hstart hend htag
  have hsize := pl.headerSize_eq
  by_cases hin : a ∈ headerBytes pl (addrs pl pl.arenaStart bs')
  · -- In a header, only its tag reads as one.
    obtain ⟨q, hq, hle, hlt⟩ := hin
    obtain ⟨hdq, hprev, hnext, hfree, halloc⟩ := dvd_of_mem_addrs hchain hdvd hq
    obtain ⟨k, rfl⟩ := Nat.exists_eq_add_of_le hle
    rcases Nat.eq_zero_or_pos k with rfl | hk
    · exact .inl (halloc htag)
    · exact absurd htag (magic_inside hprev hnext hfree ((Nat.dvd_add_right hdq).1 ha) hk
        (by omega))
  · -- Out of them, the four bytes are as they were.
    have hout (i : ℕ) (hi : i < 4) : a + i ∉ headerBytes pl (addrs pl pl.arenaStart bs') := by
      rintro ⟨q, hq, hle, hlt⟩
      have hdq := (dvd_of_mem_addrs hchain hdvd hq).1
      exact hin ⟨q, hq, by omega, by omega⟩
    have hslice : slice m' a 4 = slice m a 4 := slice_congr fun x hx hlt => by
      obtain ⟨i, rfl⟩ := Nat.exists_eq_add_of_le hx
      exact hframe _ (hout i (by omega))
    rw [magic_eq, hslice, ← magic_eq pl] at htag
    rcases h a ha hstart hend htag with ⟨n, hn⟩ | ⟨i, hi, hmem⟩
    · exact absurd ⟨a, hkept a n hn, Nat.le_refl _, by omega⟩ hin
    · exact .inr ⟨i, hi, hmem, hout i hi⟩

/-- Bytes stored by an owner. -/
theorem Guarded.store (h : Guarded pl m stored bs) (a : ℕ) (data : List UInt8) :
    Guarded pl (blit m a data) (stored ∪ Set.Ico a (a + data.length)) bs := by
  intro c hc hstart hend htag
  by_cases hmeet : ∃ i < 4, c + i ∈ Set.Ico a (a + data.length)
  · obtain ⟨i, hi, hmem⟩ := hmeet
    exact .inr ⟨i, hi, .inr hmem⟩
  · have hslice : slice (blit m a data) c 4 = slice m c 4 := slice_congr fun x hx hlt => by
      refine blit_of_notMem ?_
      by_contra hin
      exact hmeet ⟨x - c, by omega, by rw [Nat.add_sub_cancel' hx]; exact ⟨by omega, by omega⟩⟩
    rw [magic_eq, hslice, ← magic_eq pl] at htag
    exact (h c hc hstart hend htag).imp_right fun ⟨i, hi, hmem⟩ => ⟨i, hi, .inl hmem⟩

/-! ## What the operations write -/

section

variable {qs : List ℕ}

theorem Frame.refl (qs : List ℕ) (m : Memory) : Frame pl qs m m := fun _ _ => rfl

theorem Frame.trans (h : Frame pl qs m m') (h' : Frame pl qs m' m'') : Frame pl qs m m'' :=
  fun x hx => (h' x hx).trans (h x hx)

theorem frame_modify (hp : p ∈ qs) (f : MkMemBlock → MkMemBlock) :
    Frame pl qs m (pl.modify m p f) := fun x hx => by
  refine blit_of_notMem ?_
  rw [length_packed_header]
  by_contra hin
  exact hx ⟨p, hp, by omega, by omega⟩

theorem frame_relink {q : ℕ} (hq : q ≠ 0 → q ∈ qs) (f : MkMemBlock → MkMemBlock) :
    Frame pl qs m (if q ≠ 0 then pl.modify m q f else m) := by
  split
  · exact frame_modify (hq ‹_›) f
  · exact .refl qs m

theorem frame_split (hp : p ∈ qs)
    (hnew : pl.headerSize + minPayload ≤ (pl.header m p).size - n → p + pl.headerSize + n ∈ qs)
    (hnext : (pl.header m p).next ≠ 0 → (pl.header m p).next ∈ qs) :
    Frame pl qs m (split pl m p n) := by
  rw [split]
  split
  · exact ((frame_modify (hnew ‹_›) _).trans (frame_relink hnext _)).trans (frame_modify hp _)
  · exact .refl qs m

theorem frame_coalesce {x y : ℕ} (hx : x ∈ qs)
    (hnext : (pl.header m y).next ≠ 0 → (pl.header m y).next ∈ qs) :
    Frame pl qs m (coalesce pl m x y) :=
  (frame_modify hx _).trans (frame_relink hnext _)

end

/-- The block after some address, if it is not the end of the arena, has a header. -/
theorem link_mem_addrs (ha : a + span pl.headerSize bs = pl.arenaEnd) (hne : pl.link a ≠ 0) :
    pl.link a ∈ addrs pl a bs := by
  cases bs with
  | nil => exact absurd (if_pos ha) hne
  | cons b bs =>
    have hlink : pl.link a = a := by
      rw [link] at hne ⊢
      split
      · rename_i h
        exact absurd (if_pos h) hne
      · rfl
    rw [hlink]
    exact List.mem_cons_self ..

/-- An allocation writes headers of the blocks there are after it. -/
theorem frame_place (h : Represents pl s (pre ++ b :: post)) (hle : n ≤ b.size) :
    Frame pl (addrs pl pl.arenaStart (pre ++ (place pl.headerSize minPayload n b ++ post))) s.mem
      (pl.modify (split pl s.mem (pl.arenaStart + span pl.headerSize pre) n)
        (pl.arenaStart + span pl.headerSize pre)
          ({ · with magic := blockMagicAlloc, isFree := 0 })) := by
  have hhold := (chain_append.1 h.chain).2.1
  have hend := h.end_eq
  simp only [span_append, span] at hend
  have hspan := span_place pl.headerSize (m := minPayload) hle
  have hself : pl.arenaStart + span pl.headerSize pre ∈ addrs pl pl.arenaStart
      (pre ++ (place pl.headerSize minPayload n b ++ post)) := by
    rw [addrs_append, place]
    refine List.mem_append_right _ ?_
    split <;> exact List.mem_cons_self ..
  refine (frame_split hself (fun hroom => ?_) fun hne => ?_).trans (frame_modify hself _)
  · rw [hhold.size] at hroom
    rw [addrs_append, place, if_pos hroom]
    exact List.mem_append_right _ (List.mem_cons_of_mem _ (List.mem_cons_self ..))
  · rw [hhold.next] at hne ⊢
    rw [addrs_append, addrs_append, hspan, ← Nat.add_assoc]
    refine List.mem_append_right _ (List.mem_append_right _ ?_)
    exact link_mem_addrs (by omega) hne

theorem Frame.mono {qs qs' : List ℕ} (h : Frame pl qs m m') (hsub : qs ⊆ qs') :
    Frame pl qs' m m' := fun x hx => h x fun ⟨q, hq, hin⟩ => hx ⟨q, hsub hq, hin⟩

/-- The forward coalescing writes headers of the blocks there are after it. -/
theorem frame_coalesceNext (h : pl.Chain m prev p (b :: post)) (hp : pl.arenaStart ≤ p)
    (hend : p + span pl.headerSize (b :: post) = pl.arenaEnd) :
    Frame pl (addrs pl p (⟨b.size + (absorbFirst pl.headerSize post).1, b.free⟩ ::
      (absorbFirst pl.headerSize post).2)) m (coalesceNext pl m p) := by
  rcases coalesceNext_cases h hp hend with ⟨heq, _⟩ | ⟨c, post', rfl, heq, habsorb⟩
  · rw [heq]
    exact .refl _ m
  · rw [heq, habsorb]
    dsimp only
    simp only [span] at hend
    refine frame_coalesce (List.mem_cons_self ..) fun hne => List.mem_cons_of_mem _ ?_
    rw [h.2.1.next] at hne ⊢
    have haddr : p + pl.headerSize + (b.size + (pl.headerSize + c.size)) =
        p + pl.headerSize + b.size + pl.headerSize + c.size := by omega
    rw [haddr]
    exact link_mem_addrs (by omega) hne

/-- So does the backward one. -/
theorem frame_coalescePrev (h : pl.Chain m 0 pl.arenaStart (pre ++ b :: post))
    (hend : pl.arenaStart + span pl.headerSize (pre ++ b :: post) = pl.arenaEnd) :
    Frame pl (addrs pl pl.arenaStart ((absorbLast pl.headerSize pre).2 ++
      ⟨(absorbLast pl.headerSize pre).1 + b.size, true⟩ :: post)) m
        (coalescePrev pl m (pl.arenaStart + span pl.headerSize pre)) := by
  rcases coalescePrev_cases h with ⟨heq, _⟩ | ⟨pre, a, rfl, _, heq, habsorb⟩
  · rw [heq]
    exact .refl _ m
  · rw [heq, habsorb, addrs_append]
    have hhold := (chain_append.1 h).2.1
    have haddr : pl.arenaStart + span pl.headerSize (pre ++ [a]) =
        pl.arenaStart + span pl.headerSize pre + pl.headerSize + a.size := by
      simp only [span_append, span]
      omega
    rw [haddr] at hhold
    simp only [span_append, span] at hend
    refine frame_coalesce (List.mem_append_right _ (List.mem_cons_self ..)) fun hne =>
      List.mem_append_right _ (List.mem_cons_of_mem _ ?_)
    rw [hhold.next] at hne ⊢
    have haddr' : pl.arenaStart + span pl.headerSize pre + pl.headerSize +
        (a.size + pl.headerSize + b.size) = pl.arenaStart + span pl.headerSize pre +
          pl.headerSize + a.size + pl.headerSize + b.size := by omega
    rw [haddr']
    exact link_mem_addrs (by omega) hne

/-! ## The tags after a call -/

variable {stored : Set ℕ}

/-- Headers written once more. -/
theorem Guarded.rewrite_again
    (h : Guarded pl m (stored \ headerBytes pl (addrs pl pl.arenaStart bs)) bs)
    (hchain : pl.Chain m' 0 pl.arenaStart bs') (hdvd : ∀ b ∈ bs', 8 ∣ b.size)
    (hframe : Frame pl (addrs pl pl.arenaStart bs') m m')
    (hallocs : allocs pl.headerSize pl.arenaStart bs' = allocs pl.headerSize pl.arenaStart bs) :
    Guarded pl m' (stored \ headerBytes pl (addrs pl pl.arenaStart bs')) bs' :=
  (h.mono Set.sdiff_subset).rewrite hchain hdvd hframe fun _ _ hq =>
    mem_addrs_of_mem_allocs (hallocs ▸ hq)

/-- No block is written when no header is. -/
theorem Guarded.same (h : Guarded pl m stored bs) (hchain : pl.Chain m 0 pl.arenaStart bs)
    (hdvd : ∀ b ∈ bs, 8 ∣ b.size) :
    Guarded pl m (stored \ headerBytes pl (addrs pl pl.arenaStart bs)) bs :=
  h.rewrite hchain hdvd (.refl _ m) fun _ _ hq => mem_addrs_of_mem_allocs hq

/-- What `my_malloc` does to the memory when a block fits. -/
theorem Represents.mem_myMalloc (h : Represents pl s bs) {size : ℕ} (hsize : 0 < size)
    (hfit : firstFit? (align size) bs = some (pre, b, post)) :
    (s.myMalloc pl size).1.mem =
      pl.modify (split pl s.mem (pl.arenaStart + span pl.headerSize pre) (align size))
        (pl.arenaStart + span pl.headerSize pre)
          ({ · with magic := blockMagicAlloc, isFree := 0 }) := by
  have hsearch := h.search_eq (align size)
  have hinit : (if s.initialized = true then s else s.mkMemoryInit pl) = s := if_pos h.initialized
  obtain ⟨hbs, hfits⟩ := firstFit?_eq_some hfit
  have hrange := h.size_le (hbs ▸ List.mem_append_right _ (List.mem_cons_self ..)) hfits
  rw [hfit] at hsearch
  rw [myMalloc, hinit, if_neg (by omega)]
  simp only [hsearch]

/-- An allocation keeps the tags guarded. -/
theorem guarded_myMalloc (h : Represents pl s bs) (hg : Guarded pl s.mem stored bs) (size : ℕ) :
    ∃ bs', Represents pl (s.myMalloc pl size).1 bs' ∧ Guarded pl (s.myMalloc pl size).1.mem
      (stored \ headerBytes pl (addrs pl pl.arenaStart bs')) bs' := by
  rcases myMalloc_spec h size with ⟨_, hnull, hnew⟩ | ⟨pre, b, post, hsize, hfit, _, hnew⟩
  · refine ⟨bs, hnew, ?_⟩
    rw [mem_myMalloc_of_null h.initialized hnull]
    exact hg.same h.chain h.valid.dvd
  · refine ⟨_, hnew, hg.rewrite hnew.chain hnew.valid.dvd ?_ fun q n hq => ?_⟩
    · obtain ⟨rfl, hfits⟩ := firstFit?_eq_some hfit
      obtain ⟨_, hle⟩ : b.free = true ∧ align size ≤ b.size := by simpa [Block.fits] using hfits
      rw [h.mem_myMalloc hsize hfit]
      exact frame_place h hle
    · -- The block placed was free: the allocated ones are still there.
      obtain ⟨rfl, hfits⟩ := firstFit?_eq_some hfit
      obtain ⟨hfree, hle⟩ : b.free = true ∧ align size ≤ b.size := by
        simpa [Block.fits] using hfits
      rw [allocs_append, allocs, if_pos hfree, List.nil_append] at hq
      rw [addrs_append, addrs_append, span_place pl.headerSize hle, ← Nat.add_assoc]
      rcases List.mem_append.1 hq with hq | hq
      · exact List.mem_append_left _ (mem_addrs_of_mem_allocs hq)
      · exact List.mem_append_right _ (List.mem_append_right _ (mem_addrs_of_mem_allocs hq))

theorem mem_addrs_middle (pre post : List Block) (b : Block) :
    p + span pl.headerSize pre ∈ addrs pl p (pre ++ b :: post) := by
  rw [addrs_append]
  exact List.mem_append_right _ (List.mem_cons_self ..)

/-- Blocks of which one, and those after it, are others. -/
theorem dvd_middle {b' : Block} {post' : List Block} (h : ∀ c ∈ pre ++ b :: post, 8 ∣ c.size)
    (hb : 8 ∣ b'.size) (hsub : post' ⊆ post) : ∀ c ∈ pre ++ b' :: post', 8 ∣ c.size := by
  rw [List.forall_mem_append, List.forall_mem_cons] at h ⊢
  exact ⟨h.1, hb, fun c hc => h.2.2 c (hsub hc)⟩

/-- A release keeps the tags guarded: the headers of the blocks joined say "free". -/
theorem guarded_myFree (h : Represents pl s (pre ++ b :: post)) (hb : b.free = false)
    (hg : Guarded pl s.mem stored (pre ++ b :: post)) :
    Guarded pl (s.myFree pl (pl.arenaStart + span pl.headerSize pre + pl.headerSize)).mem
      (stored \ headerBytes pl (addrs pl pl.arenaStart (release pl.headerSize pre b post)))
      (release pl.headerSize pre b post) := by
  have hend := h.end_eq
  have hspan := span_absorbFirst pl.headerSize post
  have hnew := myFree_spec h hb
  rw [h.myFree_eq hb] at hnew ⊢
  rw [span_append, ← Nat.add_assoc] at hend
  obtain ⟨_, hpost⟩ := (separated_allocated hb).1 h.valid.separated
  obtain ⟨hdabsorbed, hleft, -⟩ := absorbFirst_separated pl.headerSize dvd_headerSize
    (fun c hc => h.valid.dvd c (by simp [hc])) hpost
  -- The block is marked, then joined with the one after it, then with the one before.
  have hmark := chain_mark true (chain_append.1 h.chain).2
  have hnext := chain_coalesceNext hmark.1 (Nat.le_add_right _ _) hend
  have hjoined := h.chain.rewrite (hmark.trans hnext)
  have hprev := frame_coalescePrev hjoined (by
    simp only [span_append, span] at hend ⊢
    omega)
  have hsub (bs : List Block) : addrs pl (pl.arenaStart + span pl.headerSize pre) bs ⊆
      addrs pl pl.arenaStart (pre ++ bs) := by
    rw [addrs_append]
    exact List.subset_append_right _ _
  have hallocs : allocs pl.headerSize pl.arenaStart
      (pre ++ ⟨b.size + (absorbFirst pl.headerSize post).1, true⟩ ::
        (absorbFirst pl.headerSize post).2) =
        allocs pl.headerSize pl.arenaStart pre ++ allocs pl.headerSize
          (pl.arenaStart + span pl.headerSize pre + pl.headerSize + b.size) post := by
    rw [allocs_append, allocs, if_pos rfl, List.nil_append, ← Nat.add_assoc, allocs_absorbFirst]
  have hdvd : 8 ∣ b.size := h.valid.dvd b (by simp)
  have hg₁ := hg.rewrite (h.chain.rewrite hmark)
    (dvd_middle h.valid.dvd hdvd (List.Subset.refl post))
    (frame_modify (mem_addrs_middle pre post _) _) fun q n hq => by
      have hq' := mem_addrs_of_mem_allocs hq
      rw [addrs_append] at hq' ⊢
      exact hq'
  have hg₂ := hg₁.rewrite_again hjoined
    (dvd_middle h.valid.dvd (Nat.dvd_add hdvd hdabsorbed) fun c hc => hleft c hc)
    ((frame_coalesceNext hmark.1 (Nat.le_add_right _ _) hend).mono (hsub _)) (by
      rw [hallocs, allocs_append, allocs, if_pos rfl, List.nil_append])
  rw [← Nat.add_assoc] at hprev
  exact hg₂.rewrite_again hnew.chain hnew.valid.dvd hprev
    (by rw [hallocs, allocs_release])

/-! ## Runs -/

/-- The allocator before any call: not initialised, in an arena of zeros. -/
structure Startup (pl : Platform) (s : MemoryManager) : Prop where
  initialized : s.initialized = false
  blank : ∀ a, pl.arenaStart ≤ a → a < pl.arenaEnd → s.mem a = 0

/-- What is in front of a pointer reads as the header of an allocated block, and an owner
    stored some byte of its tag. -/
def Forged (pl : Platform) (s : MemoryManager) (stored : Set ℕ) (ptr : ℕ) : Prop :=
  (pl.header s.mem (ptr - pl.headerSize)).magic = blockMagicAlloc ∧
    (pl.header s.mem (ptr - pl.headerSize)).isFree = 0 ∧
    ∃ i < 4, ptr - pl.headerSize + i ∈ stored

/-- The allocators, the live pointers and the bytes last written by owners that some run ends
    with. Owners store bytes in their payloads, and any pointer may be freed, but for those
    that are not live and have a forged header. The headers of the block list are written by
    the allocator. -/
inductive Unforged (pl : Platform) : MemoryManager → (ℕ → Option ℕ) → Set ℕ → Prop
  | startup {s : MemoryManager} (h : Startup pl s) : Unforged pl s (fun _ => none) ∅
  | init {s : MemoryManager} (h : Startup pl s) : Unforged pl (s.mkMemoryInit pl) (fun _ => none) ∅
  | malloc {s : MemoryManager} {live : ℕ → Option ℕ} {stored : Set ℕ}
      (h : Unforged pl s live stored) (size : ℕ) :
      Unforged pl (s.myMalloc pl size).1
        (if (s.myMalloc pl size).2 = 0 then live
          else Function.update live (s.myMalloc pl size).2 (some size))
        (stored \ headerBytes pl ((s.myMalloc pl size).1.blocks pl))
  | free {s : MemoryManager} {live : ℕ → Option ℕ} {stored : Set ℕ}
      (h : Unforged pl s live stored) {ptr : ℕ} (hptr : live ptr = none → ¬Forged pl s stored ptr) :
      Unforged pl (s.myFree pl ptr) (Function.update live ptr none)
        (stored \ headerBytes pl ((s.myFree pl ptr).blocks pl))
  | store {s : MemoryManager} {live : ℕ → Option ℕ} {stored : Set ℕ}
      (h : Unforged pl s live stored) {ptr size i : ℕ} {data : List UInt8}
      (hptr : live ptr = some size) (hsize : i + data.length ≤ s.payloadSize pl ptr) :
      Unforged pl { s with mem := blit s.mem (ptr + i) data } live
        (stored ∪ Set.Ico (ptr + i) (ptr + i + data.length))

/-- The blocks of the allocator are those of the live pointers, and its tags are guarded. -/
def Watched (pl : Platform) (s : MemoryManager) (live : ℕ → Option ℕ) (stored : Set ℕ) : Prop :=
  ∃ bs, Represents pl s bs ∧ Accounts live (allocs pl.headerSize pl.arenaStart bs) ∧
    Guarded pl s.mem stored bs

section

variable {live : ℕ → Option ℕ} {stored : Set ℕ} {ptr size : ℕ}

/-- In an arena of zeros there is no tag. -/
theorem Startup.guarded (h : Startup pl s) : Guarded pl s.mem ∅ [] := by
  intro a ha hstart hend htag
  have hend' : a + 4 ≤ pl.arenaEnd := by
    have := pl.arenaStart_aligned
    simp only [arenaEnd, arenaSize] at hend ⊢
    omega
  have hzero : slice s.mem a 4 = [0, 0, 0, 0] :=
    (slice_congr fun x hx hlt => h.blank x (by omega) (by omega)).trans rfl
  rw [magic_eq, hzero] at htag
  cases htag

theorem watched_mkMemoryInit (h : Startup pl s) :
    Watched pl (s.mkMemoryInit pl) (fun _ => none) ∅ := by
  have hnew := represents_mkMemoryInit pl s
  have hfirst : pl.arenaStart ∈ addrs pl pl.arenaStart (initial pl.headerSize arenaSize) := by
    rw [initial, addrs]
    exact List.mem_cons_self ..
  have hframe : Frame pl (addrs pl pl.arenaStart (initial pl.headerSize arenaSize)) s.mem
      (s.mkMemoryInit pl).mem := by
    have hmem : (s.mkMemoryInit pl).mem = pl.modify s.mem pl.arenaStart fun _ =>
        ⟨blockMagicFree, arenaSize - pl.headerSize, 0, 0, 1, 0⟩ := rfl
    rw [hmem]
    exact frame_modify hfirst _
  have hg := h.guarded.rewrite hnew.chain hnew.valid.dvd hframe fun q n hq =>
    absurd hq List.not_mem_nil
  exact ⟨_, hnew, ⟨by simp [initial, allocs], by simp⟩, hg.mono Set.sdiff_subset⟩

theorem Watched.myMalloc (h : Watched pl s live stored) (size : ℕ) :
    Watched pl (s.myMalloc pl size).1
      (if (s.myMalloc pl size).2 = 0 then live
        else Function.update live (s.myMalloc pl size).2 (some size))
      (stored \ headerBytes pl ((s.myMalloc pl size).1.blocks pl)) := by
  obtain ⟨bs, hbs, haccounts, hg⟩ := h
  obtain ⟨bs', hnew, haccounts'⟩ := (Inv.myMalloc ⟨bs, hbs, haccounts⟩ size).2
  obtain ⟨bs'', hnew', hg'⟩ := guarded_myMalloc hbs hg size
  obtain rfl := hnew.unique hnew'
  exact ⟨bs', hnew, haccounts', by rwa [hnew.blocks_eq]⟩

theorem Watched.mono {stored' : Set ℕ} (h : Watched pl s live stored) (hsub : stored ⊆ stored') :
    Watched pl s live stored' := by
  obtain ⟨bs, hbs, haccounts, hg⟩ := h
  exact ⟨bs, hbs, haccounts, hg.mono hsub⟩

/-- A live pointer freed. -/
theorem Watched.myFree (h : Watched pl s live stored) (hptr : live ptr = some size) :
    Watched pl (s.myFree pl ptr) (Function.update live ptr none)
      (stored \ headerBytes pl ((s.myFree pl ptr).blocks pl)) := by
  obtain ⟨bs, hbs, haccounts, hg⟩ := h
  obtain ⟨bs', hnew, haccounts'⟩ := Inv.myFree ⟨bs, hbs, haccounts⟩ hptr
  obtain ⟨pre, k, post, hrep, _, rfl, _⟩ := Inv.exists_block ⟨bs, hbs, haccounts⟩ hptr
  obtain rfl := hbs.unique hrep
  obtain rfl := hnew.unique (myFree_spec hrep rfl)
  exact ⟨_, hnew, haccounts', by rw [hnew.blocks_eq]; exact guarded_myFree hrep rfl hg⟩

theorem Watched.store (h : Watched pl s live stored) {i : ℕ} {data : List UInt8}
    (hptr : live ptr = some size) (hsize : i + data.length ≤ s.payloadSize pl ptr) :
    Watched pl { s with mem := blit s.mem (ptr + i) data } live
      (stored ∪ Set.Ico (ptr + i) (ptr + i + data.length)) := by
  obtain ⟨bs, hbs, haccounts, hg⟩ := h
  obtain ⟨pre, post, rfl, rfl⟩ :=
    exists_of_mem_allocs pl.headerSize (haccounts.mem_allocs hbs hptr)
  exact ⟨_, hbs.store (by omega) (by simp only; omega), haccounts, hg.store _ data⟩

/-- What a rejected free leaves: the memory, and the bytes counted. -/
structure Untouched (s t : MemoryManager) : Prop where
  mem : t.mem = s.mem
  headBlock : t.headBlock = s.headBlock
  initialized : t.initialized = s.initialized
  usedBytes : t.stats.usedBytes = s.stats.usedBytes
  freeBytes : t.stats.freeBytes = s.stats.freeBytes

theorem Untouched.blockList_eq {t : MemoryManager} (h : Untouched s t) :
    t.blockList pl = s.blockList pl := by
  rw [blockList, blockList, blocks, blocks, h.mem, h.headBlock]

/-- `my_free` rejects a pointer, but for one in the arena that follows the header of an
    allocated block. -/
theorem myFree_cases (pl : Platform) (s : MemoryManager) (ptr : ℕ) : Untouched s (s.myFree pl ptr) ∨
    s.initialized = true ∧ pl.arenaStart + pl.headerSize ≤ ptr ∧ ptr < pl.arenaEnd ∧ 8 ∣ ptr ∧
      (pl.header s.mem (ptr - pl.headerSize)).magic = blockMagicAlloc ∧
      (pl.header s.mem (ptr - pl.headerSize)).isFree = 0 := by
  rw [myFree]
  by_cases hnull : ptr = 0 ∨ s.initialized = false
  · rw [if_pos hnull]
    exact .inl ⟨rfl, rfl, rfl, rfl, rfl⟩
  rw [if_neg hnull]
  by_cases hrange : ptr < pl.arenaStart + pl.headerSize ∨ pl.arenaEnd ≤ ptr
  · rw [if_pos hrange]
    exact .inl ⟨rfl, rfl, rfl, rfl, rfl⟩
  rw [if_neg hrange]
  by_cases haligned : ptr % 8 ≠ 0
  · rw [if_pos haligned]
    exact .inl ⟨rfl, rfl, rfl, rfl, rfl⟩
  rw [if_neg haligned]
  dsimp only
  by_cases hfree : (pl.header s.mem (ptr - pl.headerSize)).magic = blockMagicFree ∨
      (pl.header s.mem (ptr - pl.headerSize)).isFree ≠ 0
  · rw [if_pos hfree]
    exact .inl ⟨rfl, rfl, rfl, rfl, rfl⟩
  rw [if_neg hfree]
  by_cases hmagic : (pl.header s.mem (ptr - pl.headerSize)).magic ≠ blockMagicAlloc
  · rw [if_pos hmagic]
    exact .inl ⟨rfl, rfl, rfl, rfl, rfl⟩
  · refine .inr ⟨by simpa using (not_or.1 hnull).2, by omega, by omega, by omega,
      not_not.1 hmagic, not_not.1 (not_or.1 hfree).2⟩

/-- A pointer that is not live is rejected, unless it is forged. -/
theorem Watched.untouched (h : Watched pl s live stored) (hlive : live ptr = none)
    (hforged : ¬Forged pl s stored ptr) : Untouched s (s.myFree pl ptr) := by
  obtain ⟨bs, hbs, haccounts, hg⟩ := h
  rcases myFree_cases pl s ptr with hrej | ⟨_, hstart, hend, hdvd, hmagic, hfree⟩
  · exact hrej
  exfalso
  have hdvd' : 8 ∣ ptr - pl.headerSize := Nat.dvd_sub hdvd dvd_headerSize
  rcases hg _ hdvd' (by omega) (by omega) hmagic with ⟨n, hn⟩ | hstored
  · rw [Nat.sub_add_cancel (by omega)] at hn
    obtain ⟨size, hsize, _⟩ := haccounts.granted ptr n hn
    rw [hlive] at hsize
    cases hsize
  · exact hforged ⟨hmagic, hfree, hstored⟩

theorem Watched.of_untouched {t : MemoryManager} (h : Watched pl s live stored)
    (ht : Untouched s t) : Watched pl t live (stored \ headerBytes pl (t.blocks pl)) := by
  obtain ⟨bs, hbs, haccounts, hg⟩ := h
  have hnew := hbs.of_mem_eq ht.mem ht.headBlock ht.initialized
  refine ⟨bs, hnew, haccounts, ?_⟩
  rw [hnew.blocks_eq, ht.mem]
  exact hg.same hbs.chain hbs.valid.dvd

theorem Startup.myFree_eq (h : Startup pl s) (ptr : ℕ) : s.myFree pl ptr = s :=
  if_pos (.inr h.initialized)

/-- The first allocation initialises the allocator. -/
theorem Startup.myMalloc_eq (h : Startup pl s) (size : ℕ) :
    s.myMalloc pl size = (s.mkMemoryInit pl).myMalloc pl size := by
  have hinit : (s.mkMemoryInit pl).initialized = true := rfl
  rw [myMalloc, myMalloc, h.initialized, hinit]
  rfl

/-- After any run, the allocator is not initialised yet, or its tags are guarded. -/
theorem Unforged.watched (h : Unforged pl s live stored) :
    (Startup pl s ∧ ∀ p, live p = none) ∨ Watched pl s live stored := by
  induction h with
  | startup h => exact .inl ⟨h, fun _ => rfl⟩
  | init h => exact .inr (watched_mkMemoryInit h)
  | @malloc s live stored h size ih =>
    rcases ih with ⟨hs, hnone⟩ | hw
    · obtain rfl : live = fun _ => none := funext hnone
      rw [hs.myMalloc_eq size]
      exact .inr (((watched_mkMemoryInit hs).mono (Set.empty_subset stored)).myMalloc size)
    · exact .inr (hw.myMalloc size)
  | @free s live stored h ptr hptr ih =>
    rcases ih with ⟨hs, hnone⟩ | hw
    · rw [Function.update_eq_self_iff.2 (hnone ptr).symm, hs.myFree_eq]
      exact .inl ⟨hs, hnone⟩
    · cases hlive : live ptr with
      | none =>
        rw [Function.update_eq_self_iff.2 hlive.symm]
        exact .inr (hw.of_untouched (hw.untouched hlive (hptr hlive)))
      | some size => exact .inr (hw.myFree hlive)
  | @store s live stored h ptr size i data hptr hsize ih =>
    rcases ih with ⟨_, hnone⟩ | hw
    · rw [hnone] at hptr
      cases hptr
    · exact .inr (hw.store hptr hsize)

/-- After any run in which no forged pointer was freed, a pointer that is neither live nor
    forged is rejected: the block list and the bytes counted are as they were. -/
theorem myFree_rejects (h : Unforged pl s live stored) (hlive : live ptr = none)
    (hforged : ¬Forged pl s stored ptr) :
    (s.myFree pl ptr).blockList pl = s.blockList pl ∧
      (s.myFree pl ptr).stats.usedBytes = s.stats.usedBytes ∧
      (s.myFree pl ptr).stats.freeBytes = s.stats.freeBytes := by
  rcases h.watched with ⟨hs, _⟩ | hw
  · rw [hs.myFree_eq]
    exact ⟨rfl, rfl, rfl⟩
  · have hrej := hw.untouched hlive hforged
    exact ⟨hrej.blockList_eq, hrej.usedBytes, hrej.freeBytes⟩

end

theorem startup_zeroed : Startup esp32 zeroed := ⟨rfl, fun _ _ _ => rfl⟩

/-- Two payloads freed, the second one first, and then once more: its header is now in the
    payload of the block there is. -/
theorem myFree_rejects_merged :
    let s := (((zeroed.myMalloc esp32 10).1.myMalloc esp32 10).1.myFree esp32 0x3FC90040).myFree
      esp32 0x3FC90018
    (s.myFree esp32 0x3FC90040).blockList esp32 = s.blockList esp32 ∧
      (s.myFree esp32 0x3FC90040).stats.usedBytes = s.stats.usedBytes ∧
      (s.myFree esp32 0x3FC90040).stats.freeBytes = s.stats.freeBytes := by
  intro s
  have hrun : Unforged esp32 s _ _ :=
    .free (.free (.malloc (.malloc (.startup startup_zeroed) 10) 10)
      fun h => absurd h (by decide +kernel)) fun h => absurd h (by decide +kernel)
  exact myFree_rejects hrun (by decide +kernel) fun ⟨_, _, _, _, hstored⟩ => hstored.1.1.1.1

/-- A header forged in a payload: the tag of an allocated block, of 8 bytes. -/
def forgedHeader : List UInt8 :=
  [0xAA, 0x55, 0xAA, 0x55, 8, 0, 0, 0, 0, 0, 0, 0, 0, 0, 0, 0, 0, 0, 0, 0, 0, 0, 0, 0]

/-- A pointer into a payload of 100 bytes, after a forged header there, is freed. -/
theorem forged_freed :
    let s := (zeroed.myMalloc esp32 100).1
    let t := { s with mem := blit s.mem 0x3FC90018 forgedHeader }
    (∃ live stored, Unforged esp32 t live stored ∧ live 0x3FC90030 = none) ∧
      (t.myFree esp32 0x3FC90030).stats.usedBytes ≠ t.stats.usedBytes := by
  intro s t
  have hrun : Unforged esp32 s _ _ := .malloc (.startup startup_zeroed) 100
  have hlive : (if (zeroed.myMalloc esp32 100).2 = 0 then fun _ => none
      else Function.update (fun _ => none) (zeroed.myMalloc esp32 100).2 (some 100)) 0x3FC90018 =
        some 100 := by decide +kernel
  have hstored : Unforged esp32 t _ _ :=
    hrun.store hlive (by decide +kernel : 0 + forgedHeader.length ≤ _)
  exact ⟨⟨_, _, hstored, by decide +kernel⟩, by decide +kernel⟩

end MemoryManager

end SliverOS
