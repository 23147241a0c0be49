import Mathlib

/-!
# Transducers

A transducer reads a stream one symbol at a time and may emit an item at each
symbol. Its runs are observed by the state it ends in (`Transducer.state`) and
by the items it emits, each with the number of symbols read when it is emitted
(`Transducer.emits`).

A decoder of framed items keeps, in its state, the symbols of the item it is
reading: its *pending* symbols. `Transducer.Tracks` says so, given the code of
every item: an item is emitted when the pending symbols and the one just read
are its code, and otherwise the pending symbols are the last of those read.
This one-step condition is enough for three facts about whole runs:

* `Tracks.pending_state`: the pending symbols are the last of those read;
* `Tracks.code_suffix`: the code of an emitted item is made of the last symbols
  read when it is emitted;
* `Tracks.pairwise_disjoint`: the codes of two emitted items do not overlap in
  the stream.
-/

namespace Streams

/-- A machine reading one symbol at a time: its next state, and the item it emits, if any. -/
abbrev Transducer (σ α β : Type*) := σ → α → σ × Option β

namespace Transducer

variable {σ α β : Type*} (m : Transducer σ α β)

/-- The state after reading `xs` from `s`. -/
def state (s : σ) : List α → σ
  | [] => s
  | x :: xs => state (m s x).1 xs

/-- The items emitted while reading `xs` from `s`, each with the number of
    symbols read when it is emitted, `n` of them before `xs`. -/
def emits (s : σ) (n : ℕ) : List α → List (ℕ × β)
  | [] => []
  | x :: xs => (m s x).2.toList.map (n + 1, ·) ++ emits (m s x).1 (n + 1) xs

/-- The items emitted while reading `xs` from `s`, in order. -/
def outputs (s : σ) : List α → List β
  | [] => []
  | x :: xs => (m s x).2.toList ++ outputs (m s x).1 xs

@[simp] theorem state_nil (s : σ) : m.state s [] = s := rfl

@[simp] theorem state_cons (s : σ) (x : α) (xs : List α) :
    m.state s (x :: xs) = m.state (m s x).1 xs := rfl

@[simp] theorem outputs_nil (s : σ) : m.outputs s [] = [] := rfl

@[simp] theorem outputs_cons (s : σ) (x : α) (xs : List α) :
    m.outputs s (x :: xs) = (m s x).2.toList ++ m.outputs (m s x).1 xs := rfl

/-- Reading two streams in turn ends where reading the second one does. -/
theorem state_append (s : σ) (xs ys : List α) :
    m.state s (xs ++ ys) = m.state (m.state s xs) ys := by
  induction xs generalizing s with
  | nil => rfl
  | cons x xs ih => exact ih _

/-- Reading two streams in turn emits the items of the first, then of the second. -/
theorem outputs_append (s : σ) (xs ys : List α) :
    m.outputs s (xs ++ ys) = m.outputs s xs ++ m.outputs (m.state s xs) ys := by
  induction xs generalizing s with
  | nil => rfl
  | cons x xs ih => simp [ih]

/-- Without the numbers of symbols read, the emitted items are the outputs. -/
theorem emits_map_snd (s : σ) (n : ℕ) (xs : List α) :
    (m.emits s n xs).map Prod.snd = m.outputs s xs := by
  induction xs generalizing s n with
  | nil => rfl
  | cons x xs ih => simp [emits, ih, Function.comp_def]

theorem emits_append (s : σ) (n : ℕ) (xs ys : List α) :
    m.emits s n (xs ++ ys) = m.emits s n xs ++ m.emits (m.state s xs) (n + xs.length) ys := by
  induction xs generalizing s n with
  | nil => simp [emits]
  | cons x xs ih => simp [emits, ih, Nat.add_comm, Nat.add_left_comm]

/-- An item is emitted after the symbols it is emitted at. -/
theorem lt_of_mem_emits {s : σ} {n k : ℕ} {xs : List α} {y : β} (h : (k, y) ∈ m.emits s n xs) :
    n < k ∧ k ≤ n + xs.length := by
  induction xs generalizing s n with
  | nil => simp [emits] at h
  | cons x xs ih =>
    simp only [emits, List.mem_append, List.mem_map, List.length_cons] at h ⊢
    rcases h with ⟨_, _, heq⟩ | h
    · have : n + 1 = k := congrArg Prod.fst heq
      omega
    · have := ih h
      omega

/-- A condition holding at first and kept by every symbol holds after any stream. -/
theorem state_induction {P : σ → Prop} (hstep : ∀ s x, P s → P (m s x).1) {s : σ} (hs : P s)
    (xs : List α) : P (m.state s xs) := by
  induction xs generalizing s with
  | nil => exact hs
  | cons x xs ih => exact ih (hstep s x hs)

/-- A machine simulated by another emits what it emits, up to how the items are
    looked at, and ends in a related state. -/
theorem outputs_map_eq_of_simulation {τ β' γ : Type*} {m : Transducer σ α β}
    {w : Transducer τ α β'} {R : σ → τ → Prop} {f : β → γ} {g : β' → γ}
    (hstep : ∀ s t x, R s t → R (m s x).1 (w t x).1 ∧ (m s x).2.map f = (w t x).2.map g)
    {s : σ} {t : τ} (hst : R s t) (xs : List α) :
    R (m.state s xs) (w.state t xs) ∧ (m.outputs s xs).map f = (w.outputs t xs).map g := by
  induction xs generalizing s t with
  | nil => exact ⟨hst, rfl⟩
  | cons x xs ih =>
    obtain ⟨hR, hout⟩ := hstep s t x hst
    obtain ⟨hR', hout'⟩ := ih hR
    refine ⟨hR', ?_⟩
    have hhead : (m s x).2.toList.map f = (w t x).2.toList.map g := by
      rw [← Option.toList_map, ← Option.toList_map, hout]
    simp [hhead, hout']

/-! ## Pending symbols -/

/-- `pending` tracks the symbols of the item being read, through the states
    satisfying `Good`: an emitted item has the pending symbols and the one read
    as its code, and otherwise the pending symbols are the last of these. -/
structure Tracks (Good : σ → Prop) (pending : σ → List α) (code : β → List α) : Prop where
  good : ∀ {s x}, Good s → Good (m s x).1
  emit : ∀ {s x y}, Good s → (m s x).2 = some y →
    code y = pending s ++ [x] ∧ pending (m s x).1 = []
  quiet : ∀ {s x}, Good s → (m s x).2 = none → pending (m s x).1 <:+ pending s ++ [x]

namespace Tracks

variable {m} {Good : σ → Prop} {pending : σ → List α} {code : β → List α}
  (ht : m.Tracks Good pending code)

include ht

theorem good_state {s : σ} (hs : Good s) (xs : List α) : Good (m.state s xs) :=
  m.state_induction (fun _ _ => ht.good) hs xs

/-- After one symbol, the pending symbols are the last of those read. -/
theorem pending_step {s : σ} (hs : Good s) (x : α) : pending (m s x).1 <:+ pending s ++ [x] := by
  cases h : (m s x).2 with
  | none => exact ht.quiet hs h
  | some y => rw [(ht.emit hs h).2]; exact List.nil_suffix

/-- After any stream, the pending symbols are the last of those read. -/
theorem pending_state {s : σ} (hs : Good s) (xs : List α) :
    pending (m.state s xs) <:+ pending s ++ xs := by
  induction xs generalizing s with
  | nil => simp
  | cons x xs ih =>
    have hlater := ih (ht.good (x := x) hs)
    obtain ⟨l, hl⟩ := ht.pending_step hs x
    have hread : pending (m s x).1 ++ xs <:+ pending s ++ x :: xs :=
      ⟨l, by rw [← List.append_assoc, hl, List.append_assoc, List.singleton_append]⟩
    exact hlater.trans hread

/-- The code of an item is made of the last symbols read when it is emitted. -/
theorem code_suffix {s : σ} (hs : Good s) {n k : ℕ} {xs : List α} {y : β}
    (h : (k, y) ∈ m.emits s n xs) : code y <:+ pending s ++ xs.take (k - n) := by
  induction xs generalizing s n with
  | nil => simp [emits] at h
  | cons x xs ih =>
    simp only [emits, List.mem_append, List.mem_map, Option.mem_toList] at h
    rcases h with ⟨y', hy', heq⟩ | h
    · obtain ⟨rfl, rfl⟩ := Prod.mk.inj heq
      simp [(ht.emit hs hy').1]
    · have hlt := (m.lt_of_mem_emits h).1
      obtain ⟨l, hl⟩ := ht.pending_step hs x
      have h₁ := ih (ht.good (x := x) hs) h
      have h₂ : pending (m s x).1 ++ xs.take (k - (n + 1)) <:+
          pending s ++ [x] ++ xs.take (k - (n + 1)) := ⟨l, by rw [← hl, List.append_assoc]⟩
      rw [show k - n = k - (n + 1) + 1 by omega, List.take_succ_cons]
      simpa using h₁.trans h₂

/-- The code of an item is no longer than the pending symbols and those read since. -/
theorem code_length_le {s : σ} (hs : Good s) {n k : ℕ} {xs : List α} {y : β}
    (h : (k, y) ∈ m.emits s n xs) : (code y).length ≤ (pending s).length + (k - n) := by
  have := (ht.code_suffix hs h).length_le
  simp only [List.length_append, List.length_take] at this
  omega

/-- The codes of the emitted items do not overlap in the stream: an item is
    emitted at least the length of its code after any earlier one. -/
theorem pairwise_disjoint {s : σ} (hs : Good s) (n : ℕ) (xs : List α) :
    (m.emits s n xs).Pairwise fun p q => p.1 + (code q.2).length ≤ q.1 := by
  induction xs generalizing s n with
  | nil => exact .nil
  | cons x xs ih =>
    rw [emits, List.pairwise_append]
    refine ⟨?_, ih (ht.good hs) (n + 1), ?_⟩
    · cases (m s x).2 <;> simp
    · -- An item emitted at `x` leaves nothing pending: the later ones are read since.
      intro p hp q hq
      simp only [List.mem_map, Option.mem_toList] at hp
      obtain ⟨y, hy, rfl⟩ := hp
      have hlen := ht.code_length_le (ht.good (x := x) hs) hq
      have hlt := (m.lt_of_mem_emits hq).1
      rw [(ht.emit hs hy).2, List.length_nil] at hlen
      change n + 1 + _ ≤ _
      omega

end Tracks

end Transducer

end Streams
