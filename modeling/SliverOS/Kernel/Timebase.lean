import SliverOS.Kernel.Wraparound

/-!
# The timebase

The tick advances only in an iteration that finds no task to run. A task with a
period sleeps after it is run, so that at most 8 iterations go by before one that
runs no task (`advances_of_forall`). A task with the period 0 stays ready and due
when it is run, so that from then on every iteration runs some task, and the tick
stands still (`tick_run_of_eligible`).

So from any state reached by registrations, ticks and iterations, any 9 consecutive
iterations advance the tick if and only if none of the tasks registered has the
period 0 (`timeAdvances_iff`).
-/

namespace SliverOS

/-- A task as `mk_task_register` and the iterations leave it: with an entry point and
    a priority, and ready when it has no period. -/
structure MkTcb.Registered (tcb : MkTcb) : Prop where
  entry : tcb.entry.isSome
  priority : tcb.priority ≠ 255
  ready : tcb.periodTicks = 0 → tcb.state = .ready

/-- Every slot is unused, or its task is registered. -/
def MkKernel.Scheduled (k : MkKernel) : Prop :=
  ∀ i, (k.task i).state = .unused ∨ (k.task i).Registered

/-- The slots of the tasks that may run now. -/
def MkKernel.eligibles (k : MkKernel) : Finset (Fin 8) := Finset.univ.filter (k.eligible ·)

namespace Scheduler

/-- The schedulers reached after `mk_scheduler_init`, by registrations, ticks and
    iterations whose entry points leave the tasks and the tick as they are. -/
inductive Reachable : Scheduler → Prop
  | init (k : MkKernel) : Reachable (mkSchedulerInit k)
  | register {s : Scheduler} (h : Reachable s) (r : Registration) : Reachable
      { s with kernel :=
          (s.kernel.mkTaskRegister r.taskId r.name r.entry r.priority r.periodTicks).1 }
  | exec {s : Scheduler} (h : Reachable s) {c : SchedulerCall} (hc : c.Keeps) :
      Reachable (s.exec c)

/-- One of some iterations advances the tick. -/
def Advances (s : Scheduler) (acts : List Activation) : Prop :=
  ∃ m < acts.length,
    (s.run (acts.take (m + 1))).kernel.tick = (s.run (acts.take m)).kernel.tick + 1

/-- Now and after any iterations, any `MK_MAX_TASKS + 1` of them advance the tick. -/
def TimeAdvances (s : Scheduler) : Prop :=
  ∀ acts₀ acts, (∀ act ∈ acts₀, act.Keeps) → (∀ act ∈ acts, act.Keeps) →
    acts.length = 9 → (s.run acts₀).Advances acts

end Scheduler

variable {s : Scheduler} {k : MkKernel} {i j : Fin 8} {act : Activation} {acts : List Activation}
  {tick duration : UInt32} {tcb : MkTcb}

/-! ## One task -/

/-- A task without a period is ready and due again after it is run. -/
theorem MkTcb.state_finish_of_zero (tcb : MkTcb) (tick duration : UInt32)
    (h : tcb.state = .running) (hp : tcb.periodTicks = 0) :
    (tcb.finish tick duration).state = .ready ∧
      (tcb.finish tick duration).nextRunTick = tick := by
  simp only [finish]
  split_ifs <;> simp_all

/-- A task that has been run is registered still, and its slot is used. -/
theorem MkTcb.Registered.finish (h : tcb.Registered) :
    ((tcb.start tick).finish tick duration).Registered ∧
      ((tcb.start tick).finish tick duration).state ≠ .unused := by
  obtain ⟨hentry, hprio, hperiod, -⟩ := MkTcb.fields_finish (tcb.start tick) tick duration
  have hentry' : ((tcb.start tick).finish tick duration).entry.isSome := by
    rw [hentry]
    exact h.entry
  have hprio' : ((tcb.start tick).finish tick duration).priority ≠ 255 := by
    rw [hprio]
    exact h.priority
  by_cases hp : tcb.periodTicks = 0
  · obtain ⟨hready, -⟩ := MkTcb.state_finish_of_zero (tcb.start tick) tick duration rfl hp
    refine ⟨⟨hentry', hprio', fun _ => hready⟩, ?_⟩
    rw [hready]
    intro heq
    cases heq
  · have hpos : 0 < (tcb.start tick).periodTicks := UInt32.pos_iff_ne_zero.2 hp
    obtain ⟨hsleep, -⟩ := MkTcb.state_finish (tcb.start tick) tick duration rfl hpos
    refine ⟨⟨hentry', hprio', fun hzero => absurd (hperiod.symm.trans hzero) hp⟩, ?_⟩
    rw [hsleep]
    intro heq
    cases heq

/-! ## The tasks along a run -/

namespace MkKernel.Scheduled

/-- The slot of a ready task holds a registered one. -/
theorem registered (h : k.Scheduled) (hi : k.eligible i) : (k.task i).Registered := by
  refine (h i).resolve_left fun hunused => ?_
  rw [(MkKernel.eligible_iff.1 hi).1] at hunused
  cases hunused

/-- When some task is eligible, an iteration runs one. -/
theorem exists_next (h : s.kernel.Scheduled) (hi : s.kernel.eligible i) : ∃ j, s.next = some j := by
  obtain ⟨j, hj⟩ := Scheduler.exists_selected hi (h.registered hi).priority
  have hel := (Scheduler.mkSchedulerSelectNext_eq_some_iff.1 hj).1.eligible
  exact ⟨j, Option.filter_eq_some_iff.2 ⟨hj, (h.registered hel).entry⟩⟩

/-- `mk_scheduler_init` leaves every slot unused. -/
theorem init (k : MkKernel) : k.mkSchedulerInit.Scheduled := fun i => by
  left
  simp [MkKernel.task, MkKernel.mkSchedulerInit, MkKernel.zeroTcb]

theorem mkTaskRegister (h : k.Scheduled) (r : Registration) :
    (k.mkTaskRegister r.taskId r.name r.entry r.priority r.periodTicks).1.Scheduled := by
  intro i
  simp only [MkKernel.mkTaskRegister]
  split
  · exact h i
  rename_i hvalid
  simp only [MkKernel.task, Fin.getElem_fin, Vector.getElem_setIfInBounds]
  split
  · refine .inr ⟨Option.isSome_iff_ne_none.2 fun hnone => hvalid (.inr hnone), ?_, fun _ => rfl⟩
    -- A priority beyond the lowest one is the lowest one.
    simp only
    split
    · decide
    · rename_i hle
      exact fun heq => hle (heq ▸ by decide)
  · exact h i

theorem mkSchedulerTick (h : k.Scheduled) : k.mkSchedulerTick.Scheduled := by
  intro i
  rw [MkKernel.task_mkSchedulerTick]
  split
  · rename_i hwake
    rcases h i with hunused | hi
    · rw [hwake.1] at hunused
      cases hunused
    · exact .inr ⟨hi.entry, hi.priority, fun _ => rfl⟩
  · exact h i

/-- An iteration keeps every task registered. -/
theorem iteration (h : s.kernel.Scheduled) (hact : act.Keeps) :
    (s.mkSchedulerRunIteration act).1.kernel.Scheduled := by
  intro i
  cases hnext : s.next with
  | none =>
    rw [(Scheduler.mkSchedulerRunIteration_of_none act hnext).2 i]
    exact h.mkSchedulerTick i
  | some j =>
    obtain ⟨-, hrun, hothers⟩ := Scheduler.mkSchedulerRunIteration_of_some hact hnext
    by_cases hij : i = j
    · subst hij
      rw [hrun]
      exact .inr (h.registered (Scheduler.eligible_of_next hnext).1).finish.1
    · rw [hothers i hij]
      exact h i

theorem run (h : s.kernel.Scheduled) (hacts : ∀ act ∈ acts, act.Keeps) :
    (s.run acts).kernel.Scheduled := by
  induction acts generalizing s with
  | nil => exact h
  | cons act acts ih =>
    exact ih (h.iteration (hacts act (List.mem_cons_self ..)))
      fun a ha => hacts a (List.mem_cons_of_mem _ ha)

end MkKernel.Scheduled

namespace Scheduler

/-- Whatever is registered after `mk_scheduler_init` is reached. -/
theorem reachable_registered (k : MkKernel) (rs : List Registration) :
    Reachable ⟨k.registered rs, 0⟩ := by
  have hinit : Reachable ⟨k.mkSchedulerInit, 0⟩ := .init k
  rw [MkKernel.registered]
  generalize k.mkSchedulerInit = k' at hinit
  induction rs generalizing k' with
  | nil => exact hinit
  | cons r rs ih => exact ih _ (hinit.register r)

theorem Reachable.scheduled (h : s.Reachable) : s.kernel.Scheduled := by
  induction h with
  | init k => exact .init k
  | register h r ih => exact ih.mkTaskRegister r
  | exec h hc ih =>
    rename_i c
    cases c with
    | tick => exact ih.mkSchedulerTick
    | iteration act => exact ih.iteration hc

/-- An iteration leaves the tasks registered, and their periods, as they are. -/
theorem period?_iteration (h : s.kernel.Scheduled) (hact : act.Keeps) (i : Fin 8) :
    (s.mkSchedulerRunIteration act).1.kernel.period? i = s.kernel.period? i := by
  simp only [MkKernel.period?]
  cases hnext : s.next with
  | none =>
    rw [(mkSchedulerRunIteration_of_none act hnext).2 i, MkKernel.task_mkSchedulerTick]
    split
    · rename_i hwake
      rw [if_neg (by simp), if_neg (by rw [hwake.1]; simp)]
    · rfl
  | some j =>
    obtain ⟨-, hrun, hothers⟩ := mkSchedulerRunIteration_of_some hact hnext
    by_cases hij : i = j
    · subst hij
      have hel := (eligible_of_next hnext).1
      obtain ⟨-, -, hperiod, -⟩ := MkTcb.fields_finish
        ((s.kernel.task i).start s.kernel.tick) s.kernel.tick act.durationUs
      rw [hrun, if_neg (h.registered hel).finish.2, hperiod,
        if_neg (by rw [(MkKernel.eligible_iff.1 hel).1]; simp)]
      rfl
    · rw [hothers i hij]

theorem period?_run (h : s.kernel.Scheduled) (hacts : ∀ act ∈ acts, act.Keeps) (i : Fin 8) :
    (s.run acts).kernel.period? i = s.kernel.period? i := by
  induction acts generalizing s with
  | nil => rfl
  | cons act acts ih =>
    have hact := hacts act (List.mem_cons_self ..)
    exact (ih (h.iteration hact) fun a ha => hacts a (List.mem_cons_of_mem _ ha)).trans
      (period?_iteration h hact i)

/-! ## No period -/

/-- A task without a period that is eligible is so after an iteration, which leaves
    the tick as it is. -/
theorem eligible_iteration (h : s.kernel.Scheduled) (hact : act.Keeps) (hi : s.kernel.eligible i)
    (hp : (s.kernel.task i).periodTicks = 0) :
    let s' := (s.mkSchedulerRunIteration act).1
    s'.kernel.tick = s.kernel.tick ∧ s'.kernel.eligible i ∧ (s'.kernel.task i).periodTicks = 0 := by
  obtain ⟨j, hnext⟩ := h.exists_next hi
  obtain ⟨htick, hrun, hothers⟩ := mkSchedulerRunIteration_of_some hact hnext
  refine ⟨htick, ?_⟩
  rw [MkKernel.eligible_iff, htick]
  by_cases hij : i = j
  · -- The task is run: it is due at this tick again.
    subst hij
    obtain ⟨hready, hdue⟩ := MkTcb.state_finish_of_zero ((s.kernel.task i).start s.kernel.tick)
      s.kernel.tick act.durationUs rfl hp
    obtain ⟨-, -, hperiod, -⟩ := MkTcb.fields_finish
      ((s.kernel.task i).start s.kernel.tick) s.kernel.tick act.durationUs
    rw [hrun, hready, hdue, hperiod]
    exact ⟨⟨rfl, UInt32.le_refl _⟩, hp⟩
  · rw [hothers i hij]
    exact ⟨MkKernel.eligible_iff.1 hi, hp⟩

/-- While a task without a period is eligible, the tick stands still. -/
theorem tick_run_of_eligible (h : s.kernel.Scheduled) (hacts : ∀ act ∈ acts, act.Keeps)
    (hi : s.kernel.eligible i) (hp : (s.kernel.task i).periodTicks = 0) :
    (s.run acts).kernel.tick = s.kernel.tick := by
  induction acts generalizing s with
  | nil => rfl
  | cons act acts ih =>
    have hact := hacts act (List.mem_cons_self ..)
    obtain ⟨htick, hel, hp'⟩ := eligible_iteration h hact hi hp
    exact (ih (h.iteration hact) (fun a ha => hacts a (List.mem_cons_of_mem _ ha)) hel hp').trans
      htick

theorem not_advances_of_eligible (h : s.kernel.Scheduled) (hacts : ∀ act ∈ acts, act.Keeps)
    (hi : s.kernel.eligible i) (hp : (s.kernel.task i).periodTicks = 0) : ¬s.Advances acts := by
  rintro ⟨m, -, hm⟩
  rw [tick_run_of_eligible h (fun a ha => hacts a (List.mem_of_mem_take ha)) hi hp,
    tick_run_of_eligible h (fun a ha => hacts a (List.mem_of_mem_take ha)) hi hp] at hm
  exact absurd (UInt32.left_eq_add.1 hm) (by decide)

/-! ## Periods -/

/-- An iteration that runs a task with a period leaves one eligible task less. -/
theorem eligibles_iteration (hact : act.Keeps) (hnext : s.next = some j)
    (hp : (s.kernel.task j).periodTicks ≠ 0) :
    (s.mkSchedulerRunIteration act).1.kernel.eligibles = s.kernel.eligibles.erase j := by
  obtain ⟨htick, hrun, hothers⟩ := mkSchedulerRunIteration_of_some hact hnext
  have hpos : 0 < ((s.kernel.task j).start s.kernel.tick).periodTicks :=
    UInt32.pos_iff_ne_zero.2 hp
  obtain ⟨hsleep, -⟩ := MkTcb.state_finish _ s.kernel.tick act.durationUs rfl hpos
  ext i
  simp only [MkKernel.eligibles, Finset.mem_erase, Finset.mem_filter, Finset.mem_univ, true_and,
    MkKernel.eligible_iff, htick]
  by_cases hij : i = j
  · subst hij
    simp [hrun, hsleep]
  · rw [hothers i hij]
    exact (and_iff_right hij).symm

theorem card_eligibles_iteration (hact : act.Keeps) (hnext : s.next = some j)
    (hp : (s.kernel.task j).periodTicks ≠ 0) :
    (s.mkSchedulerRunIteration act).1.kernel.eligibles.card < s.kernel.eligibles.card := by
  rw [eligibles_iteration hact hnext hp]
  refine Finset.card_erase_lt_of_mem ?_
  rw [MkKernel.eligibles, Finset.mem_filter]
  exact ⟨Finset.mem_univ j, (eligible_of_next hnext).1⟩

/-- The tasks that are eligible after one with a period is run were so before, and
    were not run. -/
theorem of_eligible_iteration (hact : act.Keeps) (hnext : s.next = some j)
    (hp : (s.kernel.task j).periodTicks ≠ 0)
    (hi : (s.mkSchedulerRunIteration act).1.kernel.eligible i) :
    s.kernel.eligible i ∧ (s.mkSchedulerRunIteration act).1.kernel.task i = s.kernel.task i := by
  have hmem : i ∈ (s.mkSchedulerRunIteration act).1.kernel.eligibles :=
    Finset.mem_filter.2 ⟨Finset.mem_univ i, hi⟩
  rw [eligibles_iteration hact hnext hp, Finset.mem_erase] at hmem
  exact ⟨(Finset.mem_filter.1 hmem.2).2,
    (mkSchedulerRunIteration_of_some hact hnext).2.2 i hmem.1⟩

theorem Advances.cons (h : (s.mkSchedulerRunIteration act).1.Advances acts) :
    s.Advances (act :: acts) := by
  rcases h with ⟨m, hm, htick⟩
  exact ⟨m + 1, Nat.succ_lt_succ hm, htick⟩

/-- When the eligible tasks have periods, each of them is run once at most before the
    tick advances. -/
theorem advances_of_forall (hacts : ∀ act ∈ acts, act.Keeps)
    (hall : ∀ i, s.kernel.eligible i → (s.kernel.task i).periodTicks ≠ 0)
    (hlength : s.kernel.eligibles.card < acts.length) : s.Advances acts := by
  induction acts generalizing s with
  | nil => exact absurd hlength (Nat.not_lt_zero _)
  | cons act acts ih =>
    have hact := hacts act (List.mem_cons_self ..)
    cases hnext : s.next with
    | none => exact ⟨0, Nat.succ_pos _, (mkSchedulerRunIteration_of_none act hnext).1⟩
    | some j =>
      have hp := hall j (eligible_of_next hnext).1
      have hcard := card_eligibles_iteration hact hnext hp
      refine (ih (fun a ha => hacts a (List.mem_cons_of_mem _ ha)) (fun i hi => ?_) ?_).cons
      · obtain ⟨hel, hsame⟩ := of_eligible_iteration hact hnext hp hi
        rw [hsame]
        exact hall i hel
      · exact Nat.lt_of_lt_of_le hcard (Nat.le_of_lt_succ hlength)

/-- A task without a period that is ready is due sooner or later, or another one is. -/
theorem exists_run_eligible (h : s.kernel.Scheduled) (hready : (s.kernel.task i).state = .ready)
    (hp : (s.kernel.task i).periodTicks = 0) :
    ∃ acts, (∀ act ∈ acts, Activation.Keeps act) ∧
      ∃ j, (s.run acts).kernel.eligible j ∧ ((s.run acts).kernel.task j).periodTicks = 0 := by
  -- Each iteration runs one of the eligible tasks, 8 at most, or it advances the tick.
  generalize hn : 9 * ((s.kernel.task i).nextRunTick.toNat - s.kernel.tick.toNat) +
    s.kernel.eligibles.card = n
  induction n using Nat.strong_induction_on generalizing s with
  | _ n ih =>
    by_cases hsome : ∃ j, s.kernel.eligible j ∧ (s.kernel.task j).periodTicks = 0
    · exact ⟨[], fun _ hmem => absurd hmem List.not_mem_nil, hsome⟩
    have hact : (⟨id, 0, 0⟩ : Activation).Keeps := fun _ => ⟨rfl, rfl⟩
    suffices hless : ∀ s', s' = (s.mkSchedulerRunIteration ⟨id, 0, 0⟩).1 →
        s'.kernel.task i = s.kernel.task i ∧
          9 * ((s.kernel.task i).nextRunTick.toNat - s'.kernel.tick.toNat) +
            s'.kernel.eligibles.card < n by
      obtain ⟨hsame, hlt⟩ := hless _ rfl
      obtain ⟨acts, hacts, hj⟩ := ih _ hlt (h.iteration hact) (by rw [hsame]; exact hready)
        (by rw [hsame]; exact hp) (by rw [hsame])
      exact ⟨⟨id, 0, 0⟩ :: acts, fun a ha => (List.mem_cons.1 ha).elim (· ▸ hact) (hacts a), hj⟩
    rintro s' rfl
    have hlate : s.kernel.tick.toNat < (s.kernel.task i).nextRunTick.toNat := by
      by_contra hle
      exact hsome ⟨i, MkKernel.eligible_iff.2
        ⟨hready, UInt32.le_iff_toNat_le.2 (Nat.le_of_not_lt hle)⟩, hp⟩
    cases hnext : s.next with
    | none =>
      obtain ⟨htick, htasks⟩ := mkSchedulerRunIteration_of_none ⟨id, 0, 0⟩ hnext
      have hbound := (s.kernel.task i).nextRunTick.toNat_lt
      have hsucc : (s.kernel.tick + 1).toNat = s.kernel.tick.toNat + 1 := by
        rw [UInt32.toNat_add]
        exact Nat.mod_eq_of_lt (by change s.kernel.tick.toNat + 1 < _; omega)
      have hcard := Finset.card_le_univ
        (s.mkSchedulerRunIteration ⟨id, 0, 0⟩).1.kernel.eligibles
      rw [Fintype.card_fin] at hcard
      refine ⟨?_, ?_⟩
      · rw [htasks, MkKernel.task_mkSchedulerTick, if_neg (by rw [hready]; simp)]
      · rw [htick, hsucc]
        omega
    | some j =>
      have hpj : (s.kernel.task j).periodTicks ≠ 0 := fun hzero =>
        hsome ⟨j, (eligible_of_next hnext).1, hzero⟩
      obtain ⟨htick, -, hothers⟩ := mkSchedulerRunIteration_of_some hact hnext
      have hcard := card_eligibles_iteration hact hnext hpj
      refine ⟨hothers i (by rintro rfl; exact hpj hp), ?_⟩
      rw [htick]
      omega

/-- After any registrations, ticks and iterations, any 9 consecutive iterations
    advance the tick, exactly when no task registered has the period 0. -/
theorem timeAdvances_iff (h : s.Reachable) :
    s.TimeAdvances ↔ ∀ i, s.kernel.period? i ≠ some 0 := by
  have hsched := h.scheduled
  refine ⟨fun htime i hi => ?_, fun hperiods acts₀ acts hacts₀ hacts hlength => ?_⟩
  · -- From when a task of period 0 is eligible, the tick stands still.
    rw [MkKernel.period?] at hi
    split at hi
    · cases hi
    rename_i hused
    have hp := Option.some.inj hi
    have hready := ((hsched i).resolve_left hused).ready hp
    obtain ⟨acts₀, hacts₀, j, hj, hpj⟩ := exists_run_eligible hsched hready hp
    exact not_advances_of_eligible (hsched.run hacts₀) (fun _ => keeps_of_mem_idles) hj hpj
      (htime acts₀ (idles 9) hacts₀ (fun _ => keeps_of_mem_idles) List.length_replicate)
  · refine advances_of_forall hacts (fun i hi hzero => ?_) ?_
    · have hp := period?_run hsched hacts₀ i
      rw [MkKernel.period?, if_neg (by rw [(MkKernel.eligible_iff.1 hi).1]; simp), hzero] at hp
      exact hperiods i hp.symm
    · have hcard := Finset.card_le_univ (s.run acts₀).kernel.eligibles
      rw [Fintype.card_fin] at hcard
      omega

theorem timeAdvances_iff_boot :
    (⟨MkKernel.zero.registered bootTasks, 0⟩ : Scheduler).TimeAdvances :=
  (timeAdvances_iff (reachable_registered MkKernel.zero bootTasks)).2 (by decide +kernel)

/-- The tasks that the test of the scheduler registers, two of them with the period 0. -/
def testTasks : List Registration :=
  [⟨0, "task_low", some "dummy_task_a", 4, 1⟩, ⟨1, "task_high", some "dummy_task_b", 1, 5⟩,
    ⟨2, "task_eq1", some "dummy_task_b", 2, 0⟩, ⟨3, "task_eq2", some "dummy_task_c", 2, 0⟩]

/-- They are accepted, and no iteration advances the tick. -/
theorem testTasks_stop_time :
    (∀ r ∈ testTasks, ∀ k : MkKernel,
      (k.mkTaskRegister r.taskId r.name r.entry r.priority r.periodTicks).2.1 = .ok) ∧
      Reachable ⟨MkKernel.zero.registered testTasks, 0⟩ ∧
      ¬(⟨MkKernel.zero.registered testTasks, 0⟩ : Scheduler).TimeAdvances := by
  have hreach := reachable_registered MkKernel.zero testTasks
  refine ⟨fun r hr k => ?_, hreach, fun htime => ?_⟩
  · rw [MkKernel.mkTaskRegister, if_neg]
    revert r
    decide
  · have hadvances := htime [] (idles 9) (fun _ hmem => absurd hmem List.not_mem_nil)
      (fun _ => keeps_of_mem_idles) List.length_replicate
    exact not_advances_of_eligible (i := 2) hreach.scheduled (fun _ => keeps_of_mem_idles)
      (by decide +kernel) (by decide +kernel) hadvances

end Scheduler

end SliverOS
