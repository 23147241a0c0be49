import SliverOS.Streams.Transducer

/-!
# Greedy scans

A *verdict* judges the head of a stream: it starts with a complete item of some
length, or nothing starts there and some symbols are to be skipped, or it takes
more symbols to tell. A scan applies a verdict from left to right, taking the
items and skipping what is to be skipped, until it has to wait (`scan`).

A verdict is *incremental* (`Incremental`) when more symbols do not change what
it tells once it tells something. A scan can then be cut anywhere: it goes on
from the symbols it was waiting at (`Incremental.scan_append`).

With a *prompt* verdict, it can be done one symbol at a time, by a transducer
keeping the symbols it waits at (`online`, `Incremental.online_eq_scan`).

An implementation scanning chunk by chunk need not keep exactly these symbols,
only enough of them: `Resumes v h ys p` says that after the stream `h`, having
taken the items `ys`, the symbols `p` are enough to go on, whatever comes next.

Two verdicts taking the same items but skipping more or less take the same
items of a stream, unless one skips the start of an item (`Clear`,
`scan_eq_of_clear`).
-/

namespace Streams

variable {α β : Type*}

/-- What the head of a stream is: an item of `n` symbols, `n` symbols to skip,
    or too few symbols to tell. -/
inductive Verdict (β : Type*)
  | item (n : ℕ) (y : β)
  | skip (n : ℕ)
  | wait
  deriving DecidableEq

variable (v : List α → Verdict β)

/-- The scan of a stream whose first `k` symbols are already taken or skipped:
    the items taken, and the symbols it waits at. -/
def scanFrom : ℕ → List α → List β × List α
  | _, [] => ([], [])
  | k + 1, _ :: xs => scanFrom k xs
  | 0, x :: xs =>
    match v (x :: xs) with
    | .item n y => (y :: (scanFrom (n - 1) xs).1, (scanFrom (n - 1) xs).2)
    | .skip n => scanFrom (n - 1) xs
    | .wait => ([], x :: xs)

/-- The scan of a stream: the items taken, and the symbols it waits at. -/
def scan (xs : List α) : List β × List α := scanFrom v 0 xs

theorem scanFrom_eq_scan_drop (k : ℕ) (xs : List α) : scanFrom v k xs = scan v (xs.drop k) := by
  induction xs generalizing k with
  | nil => cases k <;> rfl
  | cons x xs ih => cases k with
    | zero => rfl
    | succ k => exact ih k

theorem scan_cons (x : α) (xs : List α) : scan v (x :: xs) =
    match v (x :: xs) with
    | .item n y => (y :: (scan v (xs.drop (n - 1))).1, (scan v (xs.drop (n - 1))).2)
    | .skip n => scan v (xs.drop (n - 1))
    | .wait => ([], x :: xs) := by
  rw [scan, scanFrom]
  simp only [scanFrom_eq_scan_drop]

@[simp] theorem scan_nil : scan v [] = ([], []) := rfl

/-- A verdict telling how many symbols to pass, at least one and at most those
    there, and telling the same when there are more symbols. -/
structure Incremental : Prop where
  item : ∀ {xs n y}, v xs = .item n y → 0 < n ∧ n ≤ xs.length ∧ ∀ ys, v (xs ++ ys) = .item n y
  skip : ∀ {xs n}, v xs = .skip n → 0 < n ∧ n ≤ xs.length ∧ ∀ ys, v (xs ++ ys) = .skip n

variable {v}

theorem scan_wait {xs : List α} (h : v xs = .wait) : scan v xs = ([], xs) := by
  cases xs with
  | nil => rfl
  | cons x xs => rw [scan_cons, h]

namespace Incremental

variable (hv : Incremental v)

include hv

theorem scan_item {xs : List α} {n : ℕ} {y : β} (h : v xs = .item n y) :
    scan v xs = (y :: (scan v (xs.drop n)).1, (scan v (xs.drop n)).2) := by
  obtain ⟨hpos, hle, _⟩ := hv.item h
  cases xs with
  | nil => simp at hle; omega
  | cons x xs =>
    obtain ⟨n, rfl⟩ := Nat.exists_eq_succ_of_ne_zero (Nat.pos_iff_ne_zero.1 hpos)
    rw [scan_cons, h]
    rfl

theorem scan_skip {xs : List α} {n : ℕ} (h : v xs = .skip n) :
    scan v xs = scan v (xs.drop n) := by
  obtain ⟨hpos, hle, _⟩ := hv.skip h
  cases xs with
  | nil => simp
  | cons x xs =>
    obtain ⟨n, rfl⟩ := Nat.exists_eq_succ_of_ne_zero (Nat.pos_iff_ne_zero.1 hpos)
    rw [scan_cons, h]
    rfl

/-- A scan can be cut anywhere: it goes on from the symbols it waited at. -/
theorem scan_append (xs ys : List α) :
    scan v (xs ++ ys) = ((scan v xs).1 ++ (scan v ((scan v xs).2 ++ ys)).1,
      (scan v ((scan v xs).2 ++ ys)).2) := by
  -- By induction on the length of `xs`, passing its first item or skip.
  induction hn : xs.length using Nat.strongRecOn generalizing xs with
  | ind n ih =>
    subst hn
    cases h : v xs with
    | wait => simp [scan_wait h]
    | item n y =>
      obtain ⟨hpos, hle, happ⟩ := hv.item h
      have := ih (xs.drop n).length (by simp; omega) _ rfl
      rw [hv.scan_item (happ ys), hv.scan_item h, List.drop_append_of_le_length hle, this]
      simp
    | skip n =>
      obtain ⟨hpos, hle, happ⟩ := hv.skip h
      have := ih (xs.drop n).length (by simp; omega) _ rfl
      rw [hv.scan_skip (happ ys), hv.scan_skip h, List.drop_append_of_le_length hle, this]

end Incremental

/-- Where no item starts at any symbol, none is taken. -/
theorem scan_items_eq_nil {xs : List α} (h : ∀ i n y, v (xs.drop i) ≠ .item n y) :
    (scan v xs).1 = [] := by
  induction hn : xs.length using Nat.strongRecOn generalizing xs with
  | ind n ih =>
    subst hn
    cases xs with
    | nil => rfl
    | cons x xs =>
      rw [scan_cons]
      cases hx : v (x :: xs) with
      | wait => rfl
      | item n y => exact absurd hx (h 0 n y)
      | skip n =>
        refine ih (xs.drop (n - 1)).length
          (by simp only [List.length_drop, List.length_cons]; omega) (fun i => ?_) rfl
        rw [List.drop_drop]
        exact h (n - 1 + i + 1)

/-! ## Fewer items -/

/-- Keeping some of the items, and skipping the others. -/
def Verdict.filterMap {γ : Type*} (f : β → Option γ) : Verdict β → Verdict γ
  | .item n y => (f y).elim (.skip n) (.item n)
  | .skip n => .skip n
  | .wait => .wait

theorem Verdict.filterMap_item {γ : Type*} (f : β → Option γ) (n : ℕ) (y : β) :
    (Verdict.item n y).filterMap f = (f y).elim (.skip n) (.item n) := rfl

/-- The scan for some of the items takes those of the scan for all, and waits at
    the same symbols. -/
theorem scan_filterMap {γ : Type*} (v : List α → Verdict β) (f : β → Option γ) (xs : List α) :
    scan (fun xs => (v xs).filterMap f) xs = ((scan v xs).1.filterMap f, (scan v xs).2) := by
  induction hn : xs.length using Nat.strongRecOn generalizing xs with
  | ind n ih =>
    subst hn
    cases xs with
    | nil => rfl
    | cons x xs =>
      have hdrop (n : ℕ) := ih (xs.drop (n - 1)).length
        (by simp only [List.length_drop, List.length_cons]; omega) _ rfl
      rw [scan_cons, scan_cons]
      cases v (x :: xs) with
      | wait => rfl
      | skip n => exact hdrop n
      | item n y =>
        cases hy : f y with
        | none =>
          simp only [Verdict.filterMap_item, hy, Option.elim_none, hdrop, List.filterMap_cons]
        | some z =>
          simp only [Verdict.filterMap_item, hy, Option.elim_some, hdrop, List.filterMap_cons]

/-! ## Scanning symbol by symbol -/

/-- The scan as a transducer, keeping the symbols it waits at. -/
def online (v : List α → Verdict β) : Transducer (List α) α β := fun q x =>
  match v (q ++ [x]) with
  | .item n y => ((q ++ [x]).drop n, some y)
  | .skip n => ((q ++ [x]).drop n, none)
  | .wait => (q ++ [x], none)

/-- A verdict is prompt when the symbols left by an item or a skip, told as soon
    as can be, tell nothing more yet. -/
def Prompt (v : List α → Verdict β) : Prop :=
  ∀ q x, v q = .wait → v (online v q x).1 = .wait

/-- Scanning symbol by symbol with a prompt verdict takes the items of the whole
    stream, and waits at the same symbols. -/
theorem Incremental.online_eq_scan (hv : Incremental v) (hp : Prompt v) {q : List α}
    (hq : v q = .wait) (xs : List α) :
    ((online v).outputs q xs, (online v).state q xs) = scan v (q ++ xs) := by
  induction xs generalizing q with
  | nil => simp [scan_wait hq]
  | cons x xs ih =>
    have hnext := ih (hp q x hq)
    have hsplit : q ++ x :: xs = (q ++ [x]) ++ xs := by simp
    rw [hsplit, hv.scan_append (q ++ [x]) xs]
    -- The verdict on what is pending, and on the symbol after it.
    cases h : v (q ++ [x]) with
    | item n y =>
      have hstep : online v q x = ((q ++ [x]).drop n, some y) := by simp [online, h]
      have hw := hp q x hq
      rw [hstep] at hnext hw
      simp only [Transducer.outputs_cons, Transducer.state_cons, hstep, hv.scan_item h,
        scan_wait hw, ← hnext]
      simp
    | skip n =>
      have hstep : online v q x = ((q ++ [x]).drop n, none) := by simp [online, h]
      have hw := hp q x hq
      rw [hstep] at hnext hw
      simp only [Transducer.outputs_cons, Transducer.state_cons, hstep, hv.scan_skip h,
        scan_wait hw, ← hnext]
      simp
    | wait =>
      have hstep : online v q x = (q ++ [x], none) := by simp [online, h]
      rw [hstep] at hnext
      simp only [Transducer.outputs_cons, Transducer.state_cons, hstep, scan_wait h, ← hnext]
      simp

/-! ## Going on with enough symbols -/

/-- After the stream `h`, with the items `ys` taken, the symbols `p` are enough
    to take the same further items as the scan of the whole stream. -/
def Resumes (v : List α → Verdict β) (h : List α) (ys : List β) (p : List α) : Prop :=
  ∀ t, (scan v (h ++ t)).1 = ys ++ (scan v (p ++ t)).1

theorem Resumes.nil : Resumes v [] [] [] := fun _ => rfl

namespace Resumes

variable {h p : List α} {ys : List β} (hr : Resumes v h ys p)

include hr

/-- More symbols of the stream are kept. -/
theorem append (c : List α) : Resumes v (h ++ c) ys (p ++ c) := fun t => by
  rw [List.append_assoc, List.append_assoc]
  exact hr (c ++ t)

/-- An item at the head of the symbols kept is taken. -/
theorem take (hv : Incremental v) {n : ℕ} {y : β} (hy : v p = .item n y) :
    Resumes v h (ys ++ [y]) (p.drop n) := fun t => by
  obtain ⟨_, hle, happ⟩ := hv.item hy
  rw [hr t, hv.scan_item (happ t), List.drop_append_of_le_length hle]
  simp

/-- Symbols to skip at the head of those kept need not be kept. -/
theorem skip (hv : Incremental v) {n : ℕ} (hn : v p = .skip n) :
    Resumes v h ys (p.drop n) := fun t => by
  obtain ⟨_, hle, happ⟩ := hv.skip hn
  rw [hr t, hv.scan_skip (happ t), List.drop_append_of_le_length hle]

/-- Neither need be a run of symbols to skip one by one. -/
theorem skip_run (hv : Incremental v) {k : ℕ} (hk : ∀ i < k, v (p.drop i) = .skip 1) :
    Resumes v h ys (p.drop k) := by
  induction k with
  | zero => exact hr
  | succ k ih =>
    have := (ih fun i hi => hk i (by omega)).skip hv (hk k (by omega))
    rwa [List.drop_drop] at this

/-- The items taken so far are all those of the stream, when no more can be
    taken among the symbols kept. -/
theorem items_eq (hp : (scan v p).1 = []) : (scan v h).1 = ys := by
  simpa [hp] using hr []

end Resumes

/-! ## Skipping more or less -/

/-- The positions of a stream at which its scan asks for a verdict. -/
inductive Visits (v : List α → Verdict β) (xs : List α) : ℕ → Prop
  | start : Visits v xs 0
  | item {i n : ℕ} {y : β} : Visits v xs i → v (xs.drop i) = .item n y → Visits v xs (i + n)
  | skip {i n : ℕ} : Visits v xs i → v (xs.drop i) = .skip n → Visits v xs (i + n)

/-- The positions visited after the first `n` symbols are visited, when `n` is. -/
theorem Visits.of_drop {v : List α → Verdict β} {xs : List α} {n i : ℕ} (hn : Visits v xs n)
    (hi : Visits v (xs.drop n) i) : Visits v xs (n + i) := by
  induction hi with
  | start => exact hn
  | item _ h ih => rw [List.drop_drop] at h; exact Nat.add_assoc n _ _ ▸ ih.item h
  | skip _ h ih => rw [List.drop_drop] at h; exact Nat.add_assoc n _ _ ▸ ih.skip h

/-- The skips made by the scan with `v` pass no item of `w` but at their start:
    `w` skips, one symbol at a time, what `v` skips at once. -/
def Clear (v w : List α → Verdict β) (xs : List α) : Prop :=
  ∀ i n, Visits v xs i → v (xs.drop i) = .skip n →
    ∀ j, 0 < j → j < n → w (xs.drop (i + j)) = .skip 1

theorem Clear.drop {v w : List α → Verdict β} {xs : List α} {n : ℕ} (hc : Clear v w xs)
    (hn : Visits v xs n) : Clear v w (xs.drop n) := fun i k hi hk j hj hjk => by
  rw [List.drop_drop] at hk ⊢
  rw [← Nat.add_assoc]
  exact hc (n + i) k (hn.of_drop hi) hk j hj hjk

/-- Two verdicts taking the same items, the first one skipping more than the
    second, but clear of its items, take the same items of a stream. -/
theorem scan_eq_of_clear {v w : List α → Verdict β} (hv : Incremental v) (hw : Incremental w)
    (hitem : ∀ xs n y, v xs = .item n y → w xs = .item n y)
    (hskip : ∀ xs n, v xs = .skip n → w xs = .skip 1)
    (hwait : ∀ xs, v xs = .wait → w xs = .wait) (xs : List α) (hc : Clear v w xs) :
    (scan v xs).1 = (scan w xs).1 := by
  induction hn : xs.length using Nat.strongRecOn generalizing xs with
  | ind n ih =>
    subst hn
    cases h : v xs with
    | wait => rw [scan_wait h, scan_wait (hwait xs h)]
    | item n y =>
      obtain ⟨hpos, hle, _⟩ := hv.item h
      have hn : Visits v xs (0 + n) := Visits.start.item h
      rw [Nat.zero_add] at hn
      rw [hv.scan_item h, hw.scan_item (hitem xs n y h)]
      exact congrArg (y :: ·) (ih _ (by simp; omega) _ (hc.drop hn) rfl)
    | skip n =>
      obtain ⟨hpos, hle, _⟩ := hv.skip h
      have hn : Visits v xs (0 + n) := Visits.start.skip h
      rw [Nat.zero_add] at hn
      -- What `v` skips at once, `w` skips one by one.
      have hrun : Resumes w xs [] (xs.drop n) :=
        Resumes.skip_run (fun t => by simp) hw fun i hi => by
          cases i with
          | zero => exact hskip xs n h
          | succ i => simpa using hc 0 n .start h (i + 1) (by omega) hi
      have hw' : (scan w xs).1 = (scan w (xs.drop n)).1 := by simpa using hrun []
      rw [hv.scan_skip h, hw']
      exact ih _ (by simp; omega) _ (hc.drop hn) rfl

end Streams
