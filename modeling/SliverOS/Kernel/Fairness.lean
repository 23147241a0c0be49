import SliverOS.Kernel.Scheduler

/-!
# Fairness among equal priorities

Calls of `mk_scheduler_select_next`, between which the tasks change, select tasks
in an order (`selections`). Of two tasks `a` and `b` of one priority, eligible at
every call, `b` has its turn when between any two selections of `a` there is one
of `b` (`Alternates`).

The cursor is shared by all of the priorities, so that the turn of `b` can be lost
to a task of a better priority: the cursor is left after it. This is so exactly
when such a task is in a slot from `b` on up to `a`, going round
(`alternates_iff`).
-/

namespace SliverOS

open RoundRobin

namespace Scheduler

/-- What calls of `mk_scheduler_select_next` select, given the control blocks at
    the calls. -/
def selections (cursor : Fin 8) : List MkKernel → List (Option (Fin 8))
  | [] => []
  | k :: ks =>
    let selected := (⟨k, cursor⟩ : Scheduler).mkSchedulerSelectNext
    selected.1 :: selections selected.2.cursor ks

/-- Between any two selections of `a` there is one of `b`. -/
def Alternates (b a : Fin 8) (selected : List (Option (Fin 8))) : Prop :=
  ∀ l₁ l₂ l₃, selected = l₁ ++ some a :: (l₂ ++ some a :: l₃) → some b ∈ l₂

/-- A control block with the priorities of `k`, the tasks `a` and `b` eligible, and
    of the tasks of a better priority only some. -/
structure Varies (k : MkKernel) (better : Set (Fin 8)) (b a : Fin 8) (k' : MkKernel) : Prop where
  priority : ∀ i, (k'.task i).priority = (k.task i).priority
  eligible_left : k'.eligible b
  eligible_right : k'.eligible a
  better : ∀ i, k'.eligible i → (k.task i).priority < (k.task a).priority → i ∈ better

variable {k k' : MkKernel} {better : Set (Fin 8)} {a b c i : Fin 8} {ks : List MkKernel}

/-- What is selected was a candidate. -/
theorem exists_candidate (h : some i ∈ selections c ks) : ∃ k ∈ ks, Candidate k i := by
  induction ks generalizing c with
  | nil => simp [selections] at h
  | cons k ks ih =>
    rw [selections] at h
    rcases List.mem_cons.1 h with hsel | h
    · exact ⟨k, List.mem_cons_self .., (mkSchedulerSelectNext_eq_some_iff.1 hsel.symm).1⟩
    · obtain ⟨k', hk', hcand⟩ := ih h
      exact ⟨k', List.mem_cons_of_mem _ hk', hcand⟩

/-- A selection keeps the turn of `b`: it is `b`, or not `a` and `b` is still due. -/
theorem Varies.selected (h : Varies k better b a k') (hab : a ≠ b)
    (hprio : (k.task a).priority = (k.task b).priority)
    (hbetter : ∀ i ∈ better, (k.task i).priority < (k.task a).priority →
      ¬ahead b i < ahead b a)
    (hdue : Due b a c) (hi : (⟨k', c⟩ : Scheduler).mkSchedulerSelectNext.1 = some i) :
    i = b ∨ i ≠ a ∧ Due b a (i + 1) := by
  obtain ⟨hcand, hmin⟩ := mkSchedulerSelectNext_eq_some_iff.1 hi
  have hle : (k.task i).priority ≤ (k.task a).priority := by
    rw [← h.priority i, ← h.priority a]
    exact hcand.best a h.eligible_right
  rcases UInt8.lt_or_eq_of_le hle with hlt | heq
  · -- A task of a better priority is not in the slots that would lose the turn.
    refine .inr ⟨?_, ?_⟩
    · rintro rfl
      exact UInt8.lt_irrefl _ hlt
    · have hclear := hbetter i (h.better i hcand.eligible hlt) hlt
      by_contra hlost
      exact hclear ((not_due_succ_iff hab).1 hlost)
  · -- One of the same priority comes before `b`, which is a candidate too.
    have hb : Candidate k' b := by
      refine ⟨h.eligible_left, ?_, fun j hj => ?_⟩
      · rw [h.priority, ← hprio, ← heq, ← h.priority]
        exact hcand.priority_ne
      · rw [h.priority, ← hprio, ← heq, ← h.priority]
        exact hcand.best j hj
    by_cases hib : i = b
    · exact .inl hib
    · have hlt := Nat.lt_of_le_of_ne (hmin b hb) fun heq => hib (ahead_injective c heq)
      refine .inr ⟨?_, hdue.succ hlt⟩
      rintro rfl
      exact absurd (hmin b hb) (Nat.not_le_of_lt hdue)

/-- While `b` is due before `a`, it is selected before. -/
theorem mem_of_due (h : ∀ k' ∈ ks, Varies k better b a k') (hab : a ≠ b)
    (hprio : (k.task a).priority = (k.task b).priority)
    (hbetter : ∀ i ∈ better, (k.task i).priority < (k.task a).priority →
      ¬ahead b i < ahead b a)
    (hdue : Due b a c) {l₁ l₂ : List (Option (Fin 8))}
    (heq : selections c ks = l₁ ++ some a :: l₂) : some b ∈ l₁ := by
  induction ks generalizing c l₁ with
  | nil => simp [selections] at heq
  | cons k' ks ih =>
    have hvaries := h k' (List.mem_cons_self ..)
    have hrest : ∀ k'' ∈ ks, Varies k better b a k'' :=
      fun k'' hk'' => h k'' (List.mem_cons_of_mem _ hk'')
    rw [selections] at heq
    simp only [mkSchedulerSelectNext_snd] at heq
    cases hsel : (⟨k', c⟩ : Scheduler).mkSchedulerSelectNext.1 with
    | none =>
      rw [hsel] at heq
      cases l₁ with
      | nil => simp at heq
      | cons x l₁ => exact List.mem_cons_of_mem _ (ih hrest hdue (List.cons.inj heq).2)
    | some i =>
      rw [hsel] at heq
      -- The task selected is `b`, or another one that leaves `b` due.
      have hturn := hvaries.selected hab hprio hbetter hdue hsel
      cases l₁ with
      | nil =>
        obtain rfl : i = a := Option.some.inj (List.cons.inj heq).1
        rcases hturn with hib | ⟨hia, _⟩
        · exact absurd hib hab
        · exact absurd rfl hia
      | cons x l₁ =>
        obtain ⟨rfl, htail⟩ := List.cons.inj heq
        rcases hturn with rfl | ⟨_, hdue'⟩
        · exact List.mem_cons_self ..
        · exact List.mem_cons_of_mem _ (ih hrest hdue' htail)

/-- Calls at which no task of a better priority is in a slot from `b` on up to `a`
    keep the turn of `b`. -/
theorem alternates_of_clear (h : ∀ k' ∈ ks, Varies k better b a k') (hab : a ≠ b)
    (hprio : (k.task a).priority = (k.task b).priority)
    (hbetter : ∀ i ∈ better, (k.task i).priority < (k.task a).priority →
      ¬ahead b i < ahead b a) : Alternates b a (selections c ks) := by
  intro l₁ l₂ l₃ heq
  induction ks generalizing c l₁ with
  | nil => simp [selections] at heq
  | cons k' ks ih =>
    have hrest : ∀ k'' ∈ ks, Varies k better b a k'' :=
      fun k'' hk'' => h k'' (List.mem_cons_of_mem _ hk'')
    rw [selections] at heq
    cases l₁ with
    | nil =>
      -- The cursor is left just after `a`: every other slot is due before it.
      obtain ⟨hsel, htail⟩ := List.cons.inj heq
      simp only [mkSchedulerSelectNext_snd, hsel, Option.elim_some] at htail
      exact mem_of_due hrest hab hprio hbetter (due_succ hab) htail
    | cons x l₁ => exact ih hrest l₁ (List.cons.inj heq).2

/-! ## Turns lost -/

/-- The control block with some of the tasks eligible, and the others asleep. -/
def awake (k : MkKernel) (p : Fin 8 → Bool) : MkKernel :=
  { k with
    tasks := Vector.ofFn fun i =>
      { k.task i with state := if p i then .ready else .sleeping, nextRunTick := k.tick } }

theorem task_awake (k : MkKernel) (p : Fin 8 → Bool) (i : Fin 8) : (awake k p).task i =
    { k.task i with state := if p i then .ready else .sleeping, nextRunTick := k.tick } := by
  simp [awake, MkKernel.task]

theorem eligible_awake {p : Fin 8 → Bool} : (awake k p).eligible i ↔ p i := by
  rw [MkKernel.eligible_iff, task_awake]
  cases p i <;> simp [awake]

/-- Of the tasks awake, those of the best priority are the candidates. -/
theorem candidate_awake_iff {p : Fin 8 → Bool} (hi : p i) (hne : (k.task i).priority ≠ 255)
    (hbest : ∀ j, p j → (k.task i).priority ≤ (k.task j).priority) {j : Fin 8} :
    Candidate (awake k p) j ↔ p j ∧ (k.task j).priority = (k.task i).priority := by
  constructor
  · intro hcand
    have hj := eligible_awake.1 hcand.eligible
    have hle := hcand.best i (eligible_awake.2 hi)
    rw [task_awake, task_awake] at hle
    exact ⟨hj, UInt8.le_antisymm hle (hbest j hj)⟩
  · rintro ⟨hj, heq⟩
    refine ⟨eligible_awake.2 hj, ?_, fun l hl => ?_⟩
    · rw [task_awake]
      rwa [heq]
    · rw [task_awake, task_awake]
      exact heq ▸ hbest l (eligible_awake.1 hl)

/-- With `a` and `b` awake, and of the tasks of a better priority only some, the
    control block is one of those that vary. -/
theorem varies_awake {p : Fin 8 → Bool} (ha : p a) (hb : p b)
    (hbetter : ∀ j, p j → (k.task j).priority < (k.task a).priority → j ∈ better) :
    Varies k better b a (awake k p) where
  priority j := by rw [task_awake]
  eligible_left := eligible_awake.2 hb
  eligible_right := eligible_awake.2 ha
  better j hj := hbetter j (eligible_awake.1 hj)

/-- With `a` and `b` alone awake, both are candidates, and nothing else is. -/
theorem candidate_awake_pair (hprio : (k.task a).priority = (k.task b).priority)
    (hne : (k.task a).priority ≠ 255) {j : Fin 8} :
    Candidate (awake k fun l => l = a ∨ l = b) j ↔ j = a ∨ j = b := by
  rw [candidate_awake_iff (i := a) (by simp) hne]
  · simp only [decide_eq_true_eq, and_iff_left_iff_imp]
    rintro (rfl | rfl)
    · rfl
    · exact hprio.symm
  · intro l hl
    rcases of_decide_eq_true hl with rfl | rfl
    · exact UInt8.le_refl _
    · exact hprio ▸ UInt8.le_refl _

/-- With a task of a better priority awake too, it is the only candidate. -/
theorem candidate_awake_better (hprio : (k.task a).priority = (k.task b).priority)
    (hlt : (k.task i).priority < (k.task a).priority) {j : Fin 8} :
    Candidate (awake k fun l => l = a ∨ l = b ∨ l = i) j ↔ j = i := by
  have hne : (k.task i).priority ≠ 255 := fun heq => by
    rw [heq] at hlt
    exact absurd (UInt8.le_iff_toNat_le.2 (Nat.le_of_lt_succ (UInt8.toNat_lt _)))
      (UInt8.not_le.2 hlt)
  rw [candidate_awake_iff (i := i) (by simp) hne]
  · simp only [decide_eq_true_eq]
    constructor
    · rintro ⟨rfl | rfl | rfl, heq⟩
      · exact absurd (heq ▸ hlt) (UInt8.lt_irrefl _)
      · exact absurd (heq ▸ hprio ▸ hlt) (UInt8.lt_irrefl _)
      · rfl
    · rintro rfl
      exact ⟨.inr (.inr rfl), rfl⟩
  · intro l hl
    rcases of_decide_eq_true hl with rfl | rfl | rfl
    · exact UInt8.le_of_lt hlt
    · exact hprio ▸ UInt8.le_of_lt hlt
    · exact UInt8.le_refl _

/-- A task of a better priority in a slot from `b` on up to `a` takes the turn of
    `b`: it is selected, and then `a` again. -/
theorem exists_not_alternates (hab : a ≠ b) (hprio : (k.task a).priority = (k.task b).priority)
    (hne : (k.task a).priority ≠ 255) (hi : i ∈ better)
    (hlt : (k.task i).priority < (k.task a).priority) (hbetween : ahead b i < ahead b a) :
    ∃ c ks, (∀ k' ∈ ks, Varies k better b a k') ∧ ¬Alternates b a (selections c ks) := by
  let level : MkKernel := awake k fun j => j = a ∨ j = b
  let above : MkKernel := awake k fun j => j = a ∨ j = b ∨ j = i
  have hlevel (j : Fin 8) : Candidate level j ↔ j = a ∨ j = b := candidate_awake_pair hprio hne
  have habove (j : Fin 8) : Candidate above j ↔ j = i := candidate_awake_better hprio hlt
  have hib : i ≠ b := by
    rintro rfl
    exact UInt8.lt_irrefl _ (hprio ▸ hlt)
  have hfirst : (⟨level, a⟩ : Scheduler).mkSchedulerSelectNext.1 = some a :=
    mkSchedulerSelectNext_eq_some_iff.2 ⟨(hlevel a).2 (.inl rfl), fun j _ => by
      rw [show ahead a a = 0 by simp [ahead]]
      exact Nat.zero_le _⟩
  have hsecond : (⟨above, a + 1⟩ : Scheduler).mkSchedulerSelectNext.1 = some i :=
    mkSchedulerSelectNext_eq_some_iff.2 ⟨(habove i).2 rfl, fun j hj => by rw [(habove j).1 hj]⟩
  have hthird : (⟨level, i + 1⟩ : Scheduler).mkSchedulerSelectNext.1 = some a := by
    refine mkSchedulerSelectNext_eq_some_iff.2 ⟨(hlevel a).2 (.inl rfl), fun j hj => ?_⟩
    rcases (hlevel j).1 hj with rfl | rfl
    · exact Nat.le_refl _
    · exact Nat.le_of_not_lt ((not_due_succ_iff hab).2 hbetween)
  -- The tasks awake are of the priority of `a`, but for `i`.
  have hvaries (p : Fin 8 → Bool) (ha : p a) (hb : p b) (hp : ∀ j, p j → j = a ∨ j = b ∨ j = i) :
      Varies k better b a (awake k p) := by
    refine varies_awake ha hb fun j hj hjlt => ?_
    rcases hp j hj with rfl | rfl | rfl
    · exact absurd hjlt (UInt8.lt_irrefl _)
    · exact absurd (hprio ▸ hjlt) (UInt8.lt_irrefl _)
    · exact hi
  have hvlevel : Varies k better b a level := hvaries _ (by simp) (by simp) fun j hj =>
    (of_decide_eq_true hj).imp_right .inl
  have hvabove : Varies k better b a above := hvaries _ (by simp) (by simp) fun j hj =>
    of_decide_eq_true hj
  refine ⟨a, [level, above, level], by simp [hvlevel, hvabove], fun halt => ?_⟩
  have hmem := halt [] [some i] [] (by
    simp only [selections, mkSchedulerSelectNext_snd, hfirst, hsecond, hthird, Option.elim_some,
      List.nil_append, List.cons_append])
  simp [Ne.symm hib] at hmem

/-- Task `b` always has its turn exactly when no task of a better priority that
    can become eligible is in a slot from `b` on up to `a`, going round; or when
    the two tasks have the priority with which no task is selected. -/
theorem alternates_iff (k : MkKernel) (better : Set (Fin 8)) {a b : Fin 8} (hab : a ≠ b)
    (hprio : (k.task a).priority = (k.task b).priority) :
    (∀ c ks, (∀ k' ∈ ks, Varies k better b a k') → Alternates b a (selections c ks)) ↔
      (k.task a).priority = 255 ∨ ∀ i ∈ better, (k.task i).priority < (k.task a).priority →
        ¬ahead b i < ahead b a := by
  refine ⟨fun h => ?_, ?_⟩
  · by_contra hno
    obtain ⟨hne, hex⟩ := not_or.1 hno
    push Not at hex
    obtain ⟨i, hi, hlt, hbetween⟩ := hex
    obtain ⟨c, ks, hks, hnot⟩ := exists_not_alternates hab hprio hne hi hlt hbetween
    exact hnot (h c ks hks)
  · rintro (hmax | hbetter) c ks hks
    · intro l₁ l₂ l₃ heq
      obtain ⟨k', hk', hcand⟩ := exists_candidate (by rw [heq]; simp : some a ∈ selections c ks)
      exact absurd ((hks k' hk').priority a ▸ hmax) hcand.priority_ne
    · exact alternates_of_clear hks hab hprio hbetter

/-- Tasks 0 and 1 of priority 2, and task 7 of priority 0, with no period. -/
def rivals : MkKernel :=
  let k := MkKernel.zero.mkSchedulerInit
  let k := (k.mkTaskRegister 0 "task_eq1" (some "dummy_task_b") 2 0).1
  let k := (k.mkTaskRegister 1 "task_eq2" (some "dummy_task_c") 2 0).1
  (k.mkTaskRegister 7 "task_high" (some "dummy_task_a") 0 0).1

/-- The task of a better priority in slot 7 takes no turn of task 0. -/
theorem alternates_iff_rivals : (rivals.task 1).priority = (rivals.task 0).priority ∧
    ∀ c ks, (∀ k ∈ ks, Varies rivals {7} 0 1 k) → Alternates 0 1 (selections c ks) := by
  have hprio : (rivals.task 1).priority = (rivals.task 0).priority := by decide +kernel
  refine ⟨hprio, (alternates_iff rivals {7} (by decide) hprio).2 (.inr fun i hi _ => ?_)⟩
  rw [Set.mem_singleton_iff.1 hi]
  decide

/-- It takes that of task 1: with task 7 asleep, ready and asleep again, task 0 is
    selected twice and task 1 never. -/
theorem turn_lost :
    let calm := (rivals.mkTaskSetState 7 .sleeping).1
    (∀ k ∈ [calm, rivals, calm], Varies rivals Set.univ 1 0 k) ∧
      ¬Alternates 1 0 (selections 0 [calm, rivals, calm]) := by
  intro calm
  have hcalm : Varies rivals Set.univ 1 0 calm :=
    ⟨by decide +kernel, by decide +kernel, by decide +kernel, fun _ _ _ => Set.mem_univ _⟩
  have hrivals : Varies rivals Set.univ 1 0 rivals :=
    ⟨by decide +kernel, by decide +kernel, by decide +kernel, fun _ _ _ => Set.mem_univ _⟩
  refine ⟨by simp [hcalm, hrivals], fun h => ?_⟩
  have hmem := h [] [some 7] [] (by decide +kernel)
  simp at hmem

end Scheduler

end SliverOS
