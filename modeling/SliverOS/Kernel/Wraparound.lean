import SliverOS.Kernel.Dispatch

/-!
# The tick around its range

The tick is a number of 32 bits, and a task that is run at tick `t` is due next at
`t + period`, modulo `2 ^ 32`. It is woken at the first tick that is, as a number,
no less than this one.

So after a task is run, it is not run again before its period has passed, and may
be run as soon as it has (`Spaced`), if and only if the sum does not overflow, or
the tick itself does at once (`spaced_iff`). At the ticks in between, the task is
woken by the next tick already.
-/

namespace SliverOS

/-- What advances the scheduler: a call of `mk_scheduler_tick`, or an iteration. -/
inductive SchedulerCall
  | tick
  | iteration (act : Activation)

/-- Entry points leave the tasks and the tick as they are. -/
def SchedulerCall.Keeps : SchedulerCall → Prop
  | tick => True
  | iteration act => act.Keeps

namespace Scheduler

/-- The scheduler after a call. -/
def exec (s : Scheduler) : SchedulerCall → Scheduler
  | .tick => { s with kernel := s.kernel.mkSchedulerTick }
  | .iteration act => (s.mkSchedulerRunIteration act).1

/-- The number of times a call calls `mk_scheduler_tick`. -/
def ticks (s : Scheduler) : SchedulerCall → ℕ
  | .tick => 1
  | .iteration _ => if s.next = none then 1 else 0

/-- The task that a call runs, if any. -/
def runs (s : Scheduler) : SchedulerCall → Option (Fin 8)
  | .tick => none
  | .iteration _ => s.next

/-- The scheduler after some calls. -/
def execAll (s : Scheduler) : List SchedulerCall → Scheduler
  | [] => s
  | c :: cs => (s.exec c).execAll cs

/-- The number of times some calls call `mk_scheduler_tick`. -/
def ticksAll (s : Scheduler) : List SchedulerCall → ℕ
  | [] => 0
  | c :: cs => s.ticks c + (s.exec c).ticksAll cs

/-- Whatever is called, task `i` is not run before `period` ticks, and it is
    eligible after as many. -/
def Spaced (s : Scheduler) (i : Fin 8) (period : ℕ) : Prop :=
  ∀ cs c, (∀ c' ∈ cs, c'.Keeps) → c.Keeps →
    (s.ticksAll cs < period → (s.execAll cs).runs c ≠ some i) ∧
    (s.ticksAll cs + 1 = period → (s.execAll cs).ticks c = 1 →
      ((s.execAll cs).exec c).kernel.eligible i)

/-- Task `i`, run at tick `t`, sleeps `n` ticks later. -/
structure Asleep (t period : UInt32) (i : Fin 8) (n : ℕ) (s : Scheduler) : Prop where
  state : (s.kernel.task i).state = .sleeping
  due : (s.kernel.task i).nextRunTick = t + period
  tick : s.kernel.tick = t + UInt32.ofNat n

variable {t period : UInt32} {i : Fin 8} {n : ℕ} {s : Scheduler} {c : SchedulerCall}

/-! ## Ticks without a wrong wake -/

/-- The tick reached when the task is due, and not before. -/
theorem due_le_iff (h : t.toNat + period.toNat < 2 ^ 32 ∨ t.toNat + 1 = 2 ^ 32)
    (hpos : 0 < n) (hn : n ≤ period.toNat) :
    t + period ≤ t + UInt32.ofNat n ↔ n = period.toNat := by
  have ht := t.toNat_lt
  have hp := period.toNat_lt
  rw [UInt32.le_iff_toNat_le, UInt32.toNat_add, UInt32.toNat_add, UInt32.toNat_ofNat',
    Nat.mod_eq_of_lt (show n < 2 ^ 32 by omega)]
  rcases h with h | h
  · rw [Nat.mod_eq_of_lt h, Nat.mod_eq_of_lt (by omega)]
    omega
  · -- The tick overflows at once, and so did the tick when the task is due.
    rw [Nat.mod_eq_sub_mod (by omega), Nat.mod_eq_of_lt (by omega),
      Nat.mod_eq_sub_mod (by omega), Nat.mod_eq_of_lt (by omega)]
    omega

/-- A call of `mk_scheduler_tick` wakes the task when the tick reached is no less
    than the one at which it is due. -/
theorem Asleep.mkSchedulerTick (h : Asleep t period i n s) :
    s.kernel.mkSchedulerTick.tick = t + UInt32.ofNat (n + 1) ∧
      s.kernel.mkSchedulerTick.task i =
        if t + period ≤ t + UInt32.ofNat (n + 1) then { s.kernel.task i with state := .ready }
        else s.kernel.task i := by
  have htick : s.kernel.tick + 1 = t + UInt32.ofNat (n + 1) := by
    rw [h.tick, UInt32.ofNat_add, UInt32.add_assoc]
    rfl
  refine ⟨htick, ?_⟩
  rw [MkKernel.task_mkSchedulerTick, htick, h.due, h.state]
  simp

/-- The task is not run while it sleeps. -/
theorem Asleep.runs_ne (h : Asleep t period i n s) (c : SchedulerCall) : s.runs c ≠ some i := by
  cases c with
  | tick => exact fun heq => Option.some_ne_none i heq.symm
  | iteration act =>
    intro heq
    have hready := (MkKernel.eligible_iff.1 (eligible_of_next heq).1).1
    rw [h.state] at hready
    cases hready

/-- What a call leaves of a task that sleeps: as it was, or one tick later. -/
theorem Asleep.exec (h : Asleep t period i n s) (hc : c.Keeps) :
    (s.ticks c = 0 ∧ Asleep t period i n (s.exec c)) ∨
      (s.ticks c = 1 ∧ (s.exec c).kernel.tick = s.kernel.mkSchedulerTick.tick ∧
        (s.exec c).kernel.task i = s.kernel.mkSchedulerTick.task i) := by
  cases c with
  | tick => exact .inr ⟨rfl, rfl, rfl⟩
  | iteration act =>
    cases hnext : s.next with
    | none =>
      obtain ⟨htick, htasks⟩ := mkSchedulerRunIteration_of_none act hnext
      exact .inr ⟨if_pos hnext, htick, htasks i⟩
    | some j =>
      obtain ⟨htick, _, hothers⟩ := mkSchedulerRunIteration_of_some hc hnext
      have hij : i ≠ j := by
        rintro rfl
        exact h.runs_ne (.iteration act) hnext
      refine .inl ⟨if_neg (by rw [hnext]; simp), ?_, ?_, htick.trans h.tick⟩
      · exact (congrArg MkTcb.state (hothers i hij)).trans h.state
      · exact (congrArg MkTcb.nextRunTick (hothers i hij)).trans h.due

/-- A call with which the period has not passed leaves the task asleep. -/
theorem Asleep.step (h : Asleep t period i n s) (hc : c.Keeps)
    (hrange : t.toNat + period.toNat < 2 ^ 32 ∨ t.toNat + 1 = 2 ^ 32)
    (hn : n + s.ticks c < period.toNat) : Asleep t period i (n + s.ticks c) (s.exec c) := by
  rcases h.exec hc with ⟨hzero, hsame⟩ | ⟨hone, htick, htask⟩
  · rwa [hzero]
  · rw [hone] at hn ⊢
    obtain ⟨hreached, hwake⟩ := h.mkSchedulerTick
    have hnot : ¬t + period ≤ t + UInt32.ofNat (n + 1) := fun hle =>
      absurd ((due_le_iff hrange (Nat.succ_pos n) (by omega)).1 hle) (by omega)
    rw [if_neg hnot] at hwake
    exact ⟨by rw [htask, hwake, h.state], by rw [htask, hwake, h.due], htick.trans hreached⟩

/-- The task sleeps until its period has passed. -/
theorem Asleep.execAll (h : Asleep t period i n s)
    (hrange : t.toNat + period.toNat < 2 ^ 32 ∨ t.toNat + 1 = 2 ^ 32)
    {cs : List SchedulerCall} (hcs : ∀ c ∈ cs, c.Keeps) (hn : n + s.ticksAll cs < period.toNat) :
    Asleep t period i (n + s.ticksAll cs) (s.execAll cs) := by
  induction cs generalizing s n with
  | nil => exact h
  | cons c cs ih =>
    rw [ticksAll] at hn ⊢
    have hstep := h.step (hcs c (List.mem_cons_self ..)) hrange (by omega)
    rw [← Nat.add_assoc]
    exact ih hstep (fun c' hc' => hcs c' (List.mem_cons_of_mem _ hc')) (by omega)

/-- A task that has been run sleeps until it is due. -/
theorem asleep_of_next {act : Activation} (hact : act.Keeps) (hnext : s.next = some i)
    (htick : s.kernel.tick = t) (hperiod : (s.kernel.task i).periodTicks = period)
    (hpos : 0 < period) : Asleep t period i 0 (s.mkSchedulerRunIteration act).1 := by
  obtain ⟨hafter, htask, _⟩ := mkSchedulerRunIteration_of_some hact hnext
  obtain ⟨hstate, hdue⟩ := MkTcb.state_finish ((s.kernel.task i).start s.kernel.tick)
    s.kernel.tick act.durationUs rfl (by rw [MkTcb.start, hperiod]; exact hpos)
  refine ⟨by rw [htask, hstate], ?_, ?_⟩
  · rw [htask, hdue, htick]
    exact congrArg (t + ·) hperiod
  · rw [hafter, htick]
    exact (UInt32.add_zero t).symm

/-- Where neither the sum nor the tick overflows too early, the task is spaced. -/
theorem Asleep.spaced (h : Asleep t period i 0 s)
    (hrange : t.toNat + period.toNat < 2 ^ 32 ∨ t.toNat + 1 = 2 ^ 32) :
    Spaced s i period.toNat := by
  intro cs c hcs hc
  refine ⟨fun hlt => ?_, fun hlast hone => ?_⟩
  · exact (h.execAll hrange hcs (by omega)).runs_ne c
  · have hsleep := h.execAll hrange hcs (by omega)
    rw [Nat.zero_add] at hsleep
    rcases hsleep.exec hc with ⟨hzero, _⟩ | ⟨_, htick, htask⟩
    · omega
    · obtain ⟨hreached, hwake⟩ := hsleep.mkSchedulerTick
      have hle := (due_le_iff hrange (Nat.succ_pos _) (Nat.le_of_eq hlast)).2 hlast
      rw [if_pos hle] at hwake
      rw [MkKernel.eligible_iff, htask, htick, hwake, hreached]
      exact ⟨rfl, hsleep.due ▸ hle⟩

/-! ## A wrong wake -/

/-- A task registered alone, at tick `t`. -/
def lone (t period : UInt32) : Scheduler :=
  ⟨({ MkKernel.zero with tick := t }).registered [⟨0, "task", some "task", 0, period⟩], 0⟩

/-- The only eligible task is run. -/
theorem next_of_only (hel : s.kernel.eligible i) (hprio : (s.kernel.task i).priority ≠ 255)
    (hentry : (s.kernel.task i).entry.isSome) (honly : ∀ j, s.kernel.eligible j → j = i) :
    s.next = some i := by
  obtain ⟨j, hj⟩ := exists_selected hel hprio
  obtain rfl := honly j (mkSchedulerSelectNext_eq_some_iff.1 hj).1.eligible
  exact Option.filter_eq_some_iff.2 ⟨hj, hentry⟩

theorem task_lone (t period : UInt32) :
    ((lone t period).kernel.task 0).state = .ready ∧
      ((lone t period).kernel.task 0).nextRunTick = t ∧
      ((lone t period).kernel.task 0).periodTicks = period ∧
      ((lone t period).kernel.task 0).priority ≠ 255 ∧
      ((lone t period).kernel.task 0).entry.isSome ∧
      ∀ j ≠ 0, ((lone t period).kernel.task j).state = .unused := by
  refine ⟨rfl, rfl, rfl, show (0 : UInt8) ≠ 255 by decide, rfl, fun j hj => ?_⟩
  fin_cases j
  · exact absurd rfl hj
  all_goals rfl

/-- The slots of the other tasks are vacant. -/
theorem eq_zero_of_ready_lone {t period : UInt32} {j : Fin 8}
    (h : ((lone t period).kernel.task j).state = .ready) : j = 0 := by
  by_contra hne
  obtain ⟨-, -, -, -, -, hunused⟩ := task_lone t period
  rw [hunused j hne] at h
  cases h

/-- The task is run at the tick it is registered at. -/
theorem next_lone (t period : UInt32) : (lone t period).next = some 0 := by
  obtain ⟨hready, hdue, -, hprio, hentry, -⟩ := task_lone t period
  refine next_of_only (MkKernel.eligible_iff.2 ⟨hready, ?_⟩) hprio hentry fun j hj =>
    eq_zero_of_ready_lone (MkKernel.eligible_iff.1 hj).1
  rw [hdue]
  exact UInt32.le_refl t

/-- A sum that overflows is no later than the tick after, which does not. -/
theorem add_le_succ_of_overflow {t period : UInt32} (hover : 2 ^ 32 ≤ t.toNat + period.toNat)
    (ht : t.toNat + 1 < 2 ^ 32) : t + period ≤ t + 1 := by
  have hp := period.toNat_lt
  have hone : (1 : UInt32).toNat = 1 := rfl
  rw [UInt32.le_iff_toNat_le, UInt32.toNat_add, UInt32.toNat_add, hone,
    Nat.mod_eq_sub_mod hover, Nat.mod_eq_of_lt ht, Nat.mod_eq_of_lt (by omega)]
  omega

/-- The next tick wakes the task that has been run, and it is run again. -/
theorem next_tick_lone {t period : UInt32} (hover : 2 ^ 32 ≤ t.toNat + period.toNat)
    (ht : t.toNat + 1 < 2 ^ 32) {act : Activation} (hact : act.Keeps) (hpos : 0 < period) :
    (((lone t period).mkSchedulerRunIteration act).1.exec .tick).next = some 0 := by
  obtain ⟨-, -, hperiod, hprio, hentry, -⟩ := task_lone t period
  obtain ⟨-, hrun, hothers⟩ := mkSchedulerRunIteration_of_some hact (next_lone t period)
  have hasleep : Asleep t period 0 0 ((lone t period).mkSchedulerRunIteration act).1 :=
    asleep_of_next hact (next_lone t period) rfl hperiod hpos
  obtain ⟨hreached, hwake⟩ := hasleep.mkSchedulerTick
  have hle : t + period ≤ t + UInt32.ofNat (0 + 1) := add_le_succ_of_overflow hover ht
  obtain ⟨hentry', hprio', -, -⟩ := MkTcb.fields_finish
    (((lone t period).kernel.task 0).start (lone t period).kernel.tick)
    (lone t period).kernel.tick act.durationUs
  rw [if_pos hle] at hwake
  -- It is woken by this tick, and it is the only task.
  refine next_of_only (MkKernel.eligible_iff.2 ⟨?_, ?_⟩) ?_ ?_ fun j hj => ?_
  · rw [Scheduler.exec, hwake]
  · rw [Scheduler.exec, hwake, hreached]
    dsimp only
    rwa [hasleep.due]
  · rw [Scheduler.exec, hwake]
    dsimp only
    rw [hrun, hprio']
    exact hprio
  · rw [Scheduler.exec, hwake]
    dsimp only
    rw [hrun, hentry']
    exact hentry
  · by_contra hne
    obtain ⟨-, -, -, -, -, hunused⟩ := task_lone t period
    have hready := (MkKernel.eligible_iff.1 hj).1
    rw [Scheduler.exec, MkKernel.task_mkSchedulerTick, hothers j hne, hunused j hne] at hready
    simp [hunused j hne] at hready

/-- At a tick in between, the task that is run is not spaced. -/
theorem not_spaced_lone (t period : UInt32) (hover : 2 ^ 32 ≤ t.toNat + period.toNat)
    (ht : t.toNat + 1 < 2 ^ 32) {act : Activation} (hact : act.Keeps) :
    ¬Spaced ((lone t period).mkSchedulerRunIteration act).1 0 period.toNat := by
  intro hspaced
  have hpos : 0 < period := UInt32.lt_iff_toNat_lt.2 (by change 0 < _; omega)
  refine (hspaced [.tick] (.iteration act) (by simp [SchedulerCall.Keeps]) hact).1 ?_
    (next_tick_lone hover ht hact hpos)
  change 1 + 0 < period.toNat
  omega

/-- A task is run again no sooner than its period, and may be as soon, after it is
    run at tick `t`, exactly when the sum of the tick and the period does not
    overflow, or the tick is the last one. -/
theorem spaced_iff (t : UInt32) {period : UInt32} (hpos : 1 ≤ period) :
    (∀ (s : Scheduler) (i : Fin 8) (act : Activation), act.Keeps → s.kernel.tick = t →
      s.next = some i → (s.kernel.task i).periodTicks = period →
        Spaced (s.mkSchedulerRunIteration act).1 i period.toNat) ↔
      t.toNat + period.toNat < 2 ^ 32 ∨ t.toNat = 2 ^ 32 - 1 := by
  have ht := t.toNat_lt
  refine ⟨fun h => ?_, fun hrange s i act hact htick hnext hperiod => ?_⟩
  · by_contra hno
    have hkeeps : (⟨id, 0, 0⟩ : Activation).Keeps := fun k => ⟨rfl, rfl⟩
    exact not_spaced_lone t period (by omega) (by omega) hkeeps
      (h _ 0 _ hkeeps rfl (next_lone t period) (task_lone t period).2.2.1)
  · have hpos' : 0 < period := UInt32.lt_iff_toNat_lt.2 (UInt32.le_iff_toNat_le.1 hpos)
    exact (asleep_of_next hact hnext htick hperiod hpos').spaced (hrange.imp_right (by omega))

/-- A lone task of period 100 that is run at tick 0 is spaced. -/
theorem spaced_iff_start : (lone 0 100).next = some 0 ∧
    Spaced ((lone 0 100).mkSchedulerRunIteration ⟨id, 0, 0⟩).1 0 100 :=
  ⟨next_lone 0 100, (spaced_iff 0 (by decide : (1 : UInt32) ≤ 100)).2 (.inl (by decide))
    (lone 0 100) 0 ⟨id, 0, 0⟩ (fun k => ⟨rfl, rfl⟩) rfl (next_lone 0 100) (task_lone 0 100).2.2.1⟩

/-- One that is run 16 ticks before the tick overflows is run again at the next tick. -/
theorem run_again_too_soon :
    (lone 0xFFFFFFF0 100).next = some 0 ∧
      ¬Spaced ((lone 0xFFFFFFF0 100).mkSchedulerRunIteration ⟨id, 0, 0⟩).1 0 100 :=
  ⟨next_lone 0xFFFFFFF0 100,
    not_spaced_lone 0xFFFFFFF0 100 (by decide) (by decide) fun k => ⟨rfl, rfl⟩⟩

end Scheduler

end SliverOS
