import SliverOS.Queues.Fifo

/-!
# Ring buffers

A queue kept in an array of `n` slots, with a head, where the next item goes, a
tail, where the first one is, and the number of items (`Ring`). Positions go round
the array. The ring is a queue that rejects what comes when it is full
(`Ring.simulates_fifo`).

When items are written one after the other without regard to what the slots have,
the last `n` of them are there, each at its distance before the next slot
(`Recent.push`).
-/

namespace Queues

open Streams

variable {n : ℕ} [NeZero n] {α : Type*}

/-! ## Positions -/

/-- The position `k` slots after another one. -/
def after (i : Fin n) (k : ℕ) : Fin n := Fin.ofNat n (i + k)

/-- The position `k + 1` slots before another one. -/
def before (i : Fin n) (k : ℕ) : Fin n := Fin.ofNat n (i + (n - 1 - k))

variable {i : Fin n} {k l : ℕ}

@[simp] theorem val_after (i : Fin n) (k : ℕ) : (after i k : ℕ) = (i + k) % n := rfl

@[simp] theorem val_before (i : Fin n) (k : ℕ) : (before i k : ℕ) = (i + (n - 1 - k)) % n := rfl

theorem val_succ (i : Fin n) : ((i + 1 : Fin n) : ℕ) = (i + 1) % n := by
  rw [Fin.val_add, Fin.val_one', Nat.add_mod_mod]

@[simp] theorem after_zero (i : Fin n) : after i 0 = i :=
  Fin.ext (Nat.mod_eq_of_lt i.isLt)

theorem after_add_one (i : Fin n) (k : ℕ) : after i k + 1 = after i (k + 1) := by
  refine Fin.ext ?_
  rw [val_succ, val_after, val_after, Nat.mod_add_mod, Nat.add_assoc]

theorem after_succ (i : Fin n) (k : ℕ) : after (i + 1) k = after i (k + 1) := by
  refine Fin.ext ?_
  rw [val_after, val_after, val_succ, Nat.mod_add_mod, Nat.add_assoc, Nat.add_comm 1 k]

/-- Less than one round after a position, all positions are different. -/
theorem after_ne (hl : l < n) (hk : k < l) : after i k ≠ after i l := by
  intro heq
  have hi := i.isLt
  have hval := congrArg Fin.val heq
  rw [val_after, val_after] at hval
  rcases Nat.lt_or_ge (i + l) n with hlt | hge
  · rw [Nat.mod_eq_of_lt hlt, Nat.mod_eq_of_lt (by omega)] at hval
    omega
  · rw [Nat.mod_eq_sub_mod hge, Nat.mod_eq_of_lt (show i + l - n < n by omega)] at hval
    rcases Nat.lt_or_ge (i + k) n with hlt' | hge'
    · rw [Nat.mod_eq_of_lt hlt'] at hval
      omega
    · rw [Nat.mod_eq_sub_mod hge', Nat.mod_eq_of_lt (show i + k - n < n by omega)] at hval
      omega

theorem before_zero (i : Fin n) : before (i + 1) 0 = i := by
  have hn := Nat.pos_of_ne_zero (NeZero.ne n)
  refine Fin.ext ?_
  rw [val_before, val_succ, Nat.mod_add_mod, show (i : ℕ) + 1 + (n - 1 - 0) = i + n by omega,
    Nat.add_mod_right, Nat.mod_eq_of_lt i.isLt]

theorem before_succ (hk : k + 1 < n) : before (i + 1) (k + 1) = before i k := by
  refine Fin.ext ?_
  rw [val_before, val_before, val_succ, Nat.mod_add_mod,
    show (i : ℕ) + 1 + (n - 1 - (k + 1)) = i + (n - 1 - k) by omega]

/-- The position before another one is that one only after a whole round. -/
theorem before_ne (hk : k + 1 < n) : before i k ≠ i := by
  have hn : n - 1 - k < n := by omega
  have hne := after_ne (i := i) hn (show 0 < n - 1 - k by omega)
  rw [after_zero] at hne
  exact hne.symm

/-! ## Queues -/

/-- A queue kept in an array. -/
structure Ring (n : ℕ) (α : Type*) where
  slots : Fin n → α
  head : Fin n
  tail : Fin n
  count : ℕ

namespace Ring

/-- The items, from the tail on. -/
def contents (r : Ring n α) : List α := (List.range r.count).map fun k => r.slots (after r.tail k)

/-- The head is as many slots after the tail as there are items. -/
structure Ok (r : Ring n α) : Prop where
  count_le : r.count ≤ n
  head_eq : r.head = after r.tail r.count

/-- An item is written at the head, which moves on. -/
def push (r : Ring n α) (x : α) : Ring n α where
  slots := Function.update r.slots r.head x
  head := r.head + 1
  tail := r.tail
  count := r.count + 1

/-- The tail moves on. -/
def drop (r : Ring n α) : Ring n α where
  slots := r.slots
  head := r.head
  tail := r.tail + 1
  count := r.count - 1

variable {r : Ring n α}

@[simp] theorem length_contents (r : Ring n α) : r.contents.length = r.count := by
  simp [contents]

theorem Ok.push (h : r.Ok) (hroom : r.count < n) (x : α) : (r.push x).Ok where
  count_le := hroom
  head_eq := by
    rw [Ring.push, h.head_eq]
    exact after_add_one r.tail r.count

theorem Ok.drop (h : r.Ok) (hpos : 0 < r.count) : r.drop.Ok where
  count_le := (Nat.sub_le _ _).trans h.count_le
  head_eq := by
    rw [Ring.drop, h.head_eq]
    refine Eq.trans ?_ (after_succ r.tail (r.count - 1)).symm
    rw [Nat.sub_add_cancel hpos]

/-- The item written is the last one. -/
theorem Ok.contents_push (h : r.Ok) (hroom : r.count < n) (x : α) :
    (r.push x).contents = r.contents ++ [x] := by
  simp only [contents, Ring.push, h.head_eq]
  rw [List.range_succ, List.map_append, List.map_singleton, Function.update_self]
  congr 1
  refine List.map_congr_left fun k hk => Function.update_of_ne ?_ ..
  exact after_ne hroom (List.mem_range.1 hk)

/-- The item at the tail is the first one. -/
theorem contents_eq_cons (hpos : 0 < r.count) : r.contents = r.slots r.tail :: r.drop.contents := by
  obtain ⟨k, hk⟩ := Nat.exists_eq_succ_of_ne_zero (Nat.ne_of_gt hpos)
  rw [contents, contents, Ring.drop, hk, List.range_succ_eq_map, List.map_cons, List.map_map,
    after_zero]
  congr 1
  refine List.map_congr_left fun j _ => congrArg r.slots ?_
  exact (after_succ r.tail j).symm

theorem contents_of_count (h : r.count = 0) : r.contents = [] := by
  rw [contents, h]
  rfl

/-- The ring as a queue that rejects what comes when it is full. -/
def queue : Transducer (Ring n α) (Request α) (Exchange α)
  | r, .post x =>
    if r.count < n then (r.push x, some (.post x, .accepted)) else (r, some (.post x, .full))
  | r, .pop =>
    if r.count = 0 then (r, some (.pop, .empty)) else (r.drop, some (.pop, .item (r.slots r.tail)))
  | r, .peek =>
    (r, some (.peek, if r.count = 0 then .empty else .item (r.slots r.tail)))

/-- A ring represents a queue. -/
def Represents (r : Ring n α) (q : List α) : Prop := r.Ok ∧ r.contents = q

theorem Represents.length_eq {q : List α} (h : r.Represents q) : q.length = r.count := by
  rw [← h.2, length_contents]

/-- One request is answered as by a queue. -/
theorem Represents.step {q : List α} (h : r.Represents q) (req : Request α) :
    (queue r req).1.Represents (fifo n q req).1 ∧ (queue r req).2 = (fifo n q req).2 := by
  have hlen := h.length_eq
  obtain ⟨hok, rfl⟩ := h
  cases req with
  | post x =>
    rw [queue, fifo, hlen]
    split_ifs with hroom
    · exact ⟨⟨hok.push hroom x, hok.contents_push hroom x⟩, rfl⟩
    · exact ⟨⟨hok, rfl⟩, rfl⟩
  | pop =>
    rw [queue, fifo]
    by_cases hzero : r.count = 0
    · rw [if_pos hzero, contents_of_count hzero]
      exact ⟨⟨hok, contents_of_count hzero⟩, rfl⟩
    · -- The first item is the one at the tail.
      have hpos := Nat.pos_of_ne_zero hzero
      rw [if_neg hzero, contents_eq_cons hpos]
      exact ⟨⟨hok.drop hpos, rfl⟩, rfl⟩
  | peek =>
    rw [queue, fifo]
    by_cases hzero : r.count = 0
    · rw [if_pos hzero, contents_of_count hzero]
      exact ⟨⟨hok, contents_of_count hzero⟩, rfl⟩
    · rw [if_neg hzero]
      refine ⟨⟨hok, rfl⟩, ?_⟩
      rw [contents_eq_cons (Nat.pos_of_ne_zero hzero)]
      rfl

end Ring

/-! ## Words that count -/

theorem toNat_add_one {count : UInt32} (h : count.toNat < 2 ^ 32 - 1) :
    (count + 1).toNat = count.toNat + 1 := by
  rw [UInt32.toNat_add, UInt32.toNat_one, Nat.mod_eq_of_lt (by omega)]

theorem toNat_sub_one {count : UInt32} (h : count.toNat ≠ 0) :
    (count - 1).toNat = count.toNat - 1 :=
  UInt32.toNat_sub_of_le _ _ (UInt32.le_iff_toNat_le.2 (Nat.pos_of_ne_zero h))

/-! ## The last items written -/

/-- The last items written, the latest first, are before the next slot. -/
def Recent (slots : Fin n → α) (next : Fin n) (items : List α) : Prop :=
  ∀ k (hk : k < items.length), k < n → slots (before next k) = items[k]

theorem Recent.nil (slots : Fin n → α) (next : Fin n) : Recent slots next [] :=
  fun _ hk => absurd hk (Nat.not_lt_zero _)

/-- An item more is written, over the one of a round ago. -/
theorem Recent.push {slots : Fin n → α} {next : Fin n} {items : List α}
    (h : Recent slots next items) (x : α) :
    Recent (Function.update slots next x) (next + 1) (x :: items) := by
  intro k hk hkn
  cases k with
  | zero =>
    rw [before_zero, Function.update_self]
    rfl
  | succ k =>
    rw [before_succ hkn, Function.update_of_ne (before_ne hkn)]
    exact h k (Nat.lt_of_succ_lt_succ hk) (Nat.lt_of_succ_lt hkn)

end Queues
