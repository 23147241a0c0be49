import SliverOS.Kernel.Scheduler

/-!
# Periodic dispatch

Tasks registered at a tick `T` with periods are run by iterations of the scheduler,
their entry points leaving the tasks and the tick as they are.

A task run `n` times is *on time* (`OnTime`) when it is due at `T + n * period`: it
is ready then, and asleep before. An iteration keeps all of the tasks on time, as
the tick advances only when none of them is due (`OnTimes.step`). So the task is
run at the ticks `T`, `T + period`, `T + 2 * period`, .., none of those passed
being missed (`executions_periodic`).
-/

namespace SliverOS

/-- The arguments of a call of `mk_task_register`. -/
structure Registration where
  taskId : UInt8
  name : String
  entry : Option String
  priority : UInt8
  periodTicks : UInt32

/-- The control block after `mk_scheduler_init` and some registrations. -/
def MkKernel.registered (k : MkKernel) (rs : List Registration) : MkKernel :=
  rs.foldl (fun k r => (k.mkTaskRegister r.taskId r.name r.entry r.priority r.periodTicks).1)
    k.mkSchedulerInit

namespace Scheduler

/-- The scheduler after some iterations. -/
def run (s : Scheduler) : List Activation → Scheduler
  | [] => s
  | act :: acts => (s.mkSchedulerRunIteration act).1.run acts

/-- The ticks at which some iterations run the task of a slot. -/
def executions (s : Scheduler) (i : Fin 8) : List Activation → List UInt32
  | [] => []
  | act :: acts =>
    (if s.next = some i then [s.kernel.tick] else []) ++
      (s.mkSchedulerRunIteration act).1.executions i acts

end Scheduler

/-- The period of the task of a slot, if it has one. -/
def MkKernel.period? (k : MkKernel) (i : Fin 8) : Option UInt32 :=
  if (k.task i).state = .unused then none else some (k.task i).periodTicks

/-- A task registered at tick `start` with a period and run `n` times since, on time. -/
structure OnTime (start n : ℕ) (period tick : UInt32) (tcb : MkTcb) : Prop where
  entry : tcb.entry.isSome
  priority : tcb.priority ≠ 255
  periodTicks : tcb.periodTicks = period
  period_pos : 0 < period.toNat
  due : tcb.nextRunTick.toNat = start + n * period.toNat
  missed : tcb.deadlineMissCount = 0
  state : tcb.state = .ready ∧ tcb.nextRunTick = tick ∨
    tcb.state = .sleeping ∧ tick < tcb.nextRunTick

/-- A slot with no task. -/
structure Vacant (tcb : MkTcb) : Prop where
  state : tcb.state = .unused
  missed : tcb.deadlineMissCount = 0

/-- All of the tasks registered, each with its period, are on time. -/
structure OnTimes (start : ℕ) (period? : Fin 8 → Option UInt32) (n : Fin 8 → ℕ)
    (k : MkKernel) : Prop where
  vacant : ∀ i, period? i = none → Vacant (k.task i)
  onTime : ∀ i p, period? i = some p → OnTime start (n i) p k.tick (k.task i)

variable {start m : ℕ} {period? : Fin 8 → Option UInt32} {n : Fin 8 → ℕ} {s : Scheduler}
  {k : MkKernel} {i : Fin 8} {act : Activation} {period tick : UInt32} {tcb : MkTcb}

/-! ## One task -/

theorem MkTcb.state_finish (tcb : MkTcb) (tick duration : UInt32) (h : tcb.state = .running)
    (hp : 0 < tcb.periodTicks) : (tcb.finish tick duration).state = .sleeping ∧
      (tcb.finish tick duration).nextRunTick = tick + tcb.periodTicks := by
  simp only [finish]
  split_ifs <;> simp_all

theorem MkTcb.fields_finish (tcb : MkTcb) (tick duration : UInt32) :
    (tcb.finish tick duration).entry = tcb.entry ∧
      (tcb.finish tick duration).priority = tcb.priority ∧
      (tcb.finish tick duration).periodTicks = tcb.periodTicks ∧
      (tcb.finish tick duration).deadlineMissCount = tcb.deadlineMissCount := by
  simp only [finish]
  split_ifs <;> exact ⟨rfl, rfl, rfl, rfl⟩

/-- A task that is run when it is due is due next one period later. -/
theorem OnTime.finish (h : OnTime start m period tick tcb) (hready : tcb.state = .ready)
    (hroom : tick.toNat + period.toNat < 2 ^ 32) (duration : UInt32) :
    OnTime start (m + 1) period tick ((tcb.start tick).finish tick duration) := by
  obtain rfl := h.periodTicks
  have hdue : tcb.nextRunTick = tick := by
    rcases h.state with ⟨_, hdue⟩ | ⟨hsleep, _⟩
    · exact hdue
    · rw [hready] at hsleep
      cases hsleep
  have hpos : 0 < (tcb.start tick).periodTicks := UInt32.lt_iff_toNat_lt.2 h.period_pos
  obtain ⟨hentry, hprio, hperiod, hmissed⟩ := MkTcb.fields_finish (tcb.start tick) tick duration
  obtain ⟨hstate, hnext⟩ := MkTcb.state_finish (tcb.start tick) tick duration rfl hpos
  have hsum : (tick + tcb.periodTicks).toNat = tick.toNat + tcb.periodTicks.toNat := by
    rw [UInt32.toNat_add, Nat.mod_eq_of_lt hroom]
  refine ⟨?_, ?_, hperiod, h.period_pos, ?_, ?_, .inr ⟨hstate, ?_⟩⟩
  · rw [hentry]
    exact h.entry
  · rw [hprio]
    exact h.priority
  · have := h.due
    rw [hnext]
    change (tick + tcb.periodTicks).toNat = start + (m + 1) * tcb.periodTicks.toNat
    rw [hsum, ← hdue, this, Nat.add_mul, Nat.one_mul, Nat.add_assoc]
  · rw [hmissed]
    change (if tcb.nextRunTick < tick then _ else _) = _
    rw [hdue, if_neg (UInt32.lt_irrefl tick), h.missed]
  · have hp := h.period_pos
    rw [hnext, UInt32.lt_iff_toNat_lt]
    change _ < (tick + tcb.periodTicks).toNat
    omega

/-- A task that sleeps is woken when it is due. -/
theorem OnTime.wake (h : OnTime start m period tick tcb) (hsleep : tcb.state = .sleeping) :
    OnTime start m period (tick + 1) (if tcb.state = .sleeping ∧ tcb.nextRunTick ≤ tick + 1
      then { tcb with state := .ready } else tcb) := by
  have hlt : tick < tcb.nextRunTick := by
    rcases h.state with ⟨hready, _⟩ | ⟨_, hlt⟩
    · rw [hready] at hsleep
      cases hsleep
    · exact hlt
  have hbound := tcb.nextRunTick.toNat_lt
  have hnat := UInt32.lt_iff_toNat_lt.1 hlt
  have hsucc : (tick + 1).toNat = tick.toNat + 1 := by
    rw [UInt32.toNat_add]
    exact Nat.mod_eq_of_lt (by change tick.toNat + 1 < _; omega)
  by_cases hle : tcb.nextRunTick ≤ tick + 1
  · rw [if_pos ⟨hsleep, hle⟩]
    refine ⟨h.entry, h.priority, h.periodTicks, h.period_pos, h.due, h.missed,
      .inl ⟨rfl, ?_⟩⟩
    have hle' := UInt32.le_iff_toNat_le.1 hle
    exact UInt32.toNat_inj.1 (by change tcb.nextRunTick.toNat = _; omega)
  · rw [if_neg fun hand => hle hand.2]
    exact ⟨h.entry, h.priority, h.periodTicks, h.period_pos, h.due, h.missed,
      .inr ⟨hsleep, UInt32.not_le.1 hle⟩⟩

/-! ## Iterations -/

/-- An eligible task is registered, and it is due. -/
theorem OnTimes.of_eligible (h : OnTimes start period? n k) (hel : k.eligible i) :
    ∃ p, period? i = some p ∧ OnTime start (n i) p k.tick (k.task i) ∧
      (k.task i).state = .ready ∧ (k.task i).nextRunTick = k.tick := by
  obtain ⟨hready, _⟩ := MkKernel.eligible_iff.1 hel
  cases hp : period? i with
  | none =>
    rw [(h.vacant i hp).state] at hready
    cases hready
  | some p =>
    have hi := h.onTime i p hp
    rcases hi.state with ⟨_, hdue⟩ | ⟨hsleep, _⟩
    · exact ⟨p, rfl, hi, hready, hdue⟩
    · rw [hready] at hsleep
      cases hsleep

/-- When an iteration runs no task, all of them are asleep. -/
theorem OnTimes.sleeping (h : OnTimes start period? n s.kernel) (hnext : s.next = none) {p : UInt32}
    (hp : period? i = some p) : (s.kernel.task i).state = .sleeping := by
  have hi := h.onTime i p hp
  rcases hi.state with ⟨hready, hdue⟩ | ⟨hsleep, _⟩
  · -- A task that is due would have been run, or another one.
    have hel : s.kernel.eligible i := MkKernel.eligible_iff.2 ⟨hready, hdue ▸ UInt32.le_refl _⟩
    obtain ⟨j, hj⟩ := Scheduler.exists_selected hel hi.priority
    obtain ⟨_, _, hjtime, _⟩ :=
      h.of_eligible (Scheduler.mkSchedulerSelectNext_eq_some_iff.1 hj).1.eligible
    have hsome : s.next = some j := Option.filter_eq_some_iff.2 ⟨hj, hjtime.entry⟩
    rw [hnext] at hsome
    cases hsome
  · exact hsleep

/-- An iteration keeps the tasks on time, counting the one that it runs. -/
theorem OnTimes.step (h : OnTimes start period? n s.kernel) (hact : act.Keeps)
    (hroom : ∀ i p, period? i = some p → s.kernel.tick.toNat + p.toNat < 2 ^ 32) :
    OnTimes start period? (fun i => n i + if s.next = some i then 1 else 0)
      (s.mkSchedulerRunIteration act).1.kernel := by
  cases hnext : s.next with
  | some i =>
    obtain ⟨htick, hrun, hothers⟩ := Scheduler.mkSchedulerRunIteration_of_some hact hnext
    obtain ⟨p, hp, hi, hready, _⟩ := h.of_eligible (Scheduler.eligible_of_next hnext).1
    refine ⟨fun j hj => ?_, fun j q hq => ?_⟩
    · rw [hothers j (by rintro rfl; rw [hp] at hj; cases hj)]
      exact h.vacant j hj
    · rw [htick]
      by_cases hij : j = i
      · subst hij
        obtain rfl := Option.some.inj (hp.symm.trans hq)
        rw [hrun, if_pos rfl]
        exact hi.finish hready (hroom j p hp) _
      · rw [hothers j hij, if_neg fun heq => hij (Option.some.inj heq).symm]
        exact h.onTime j q hq
  | none =>
    obtain ⟨htick, htasks⟩ := Scheduler.mkSchedulerRunIteration_of_none act hnext
    refine ⟨fun j hj => ?_, fun j q hq => ?_⟩
    · rw [htasks, MkKernel.task_mkSchedulerTick, if_neg (by rw [(h.vacant j hj).state]; simp)]
      exact h.vacant j hj
    · rw [htick, htasks, MkKernel.task_mkSchedulerTick]
      simp only [reduceCtorEq, if_false, Nat.add_zero]
      exact (h.onTime j q hq).wake (h.sleeping hnext hq)

/-- Some iterations keep the tasks on time, and run each of them at its ticks. -/
theorem OnTimes.run (h : OnTimes start period? n s.kernel) {acts : List Activation}
    (hacts : ∀ act ∈ acts, act.Keeps)
    (hroom : ∀ m < acts.length, ∀ i p, period? i = some p →
      (s.run (acts.take m)).kernel.tick.toNat + p.toNat < 2 ^ 32) :
    OnTimes start period? (fun i => n i + (s.executions i acts).length) (s.run acts).kernel ∧
      ∀ i, (period? i = none → s.executions i acts = []) ∧
        ∀ p, period? i = some p → (s.executions i acts).map UInt32.toNat =
          (List.range (s.executions i acts).length).map fun j => start + (n i + j) * p.toNat := by
  induction acts generalizing s n with
  | nil => exact ⟨h, fun i => ⟨fun _ => rfl, fun _ _ => rfl⟩⟩
  | cons act acts ih =>
    have hstep := h.step (hacts act (List.mem_cons_self ..)) (hroom 0 (Nat.zero_lt_succ _))
    obtain ⟨hrest, htimes⟩ := ih hstep (fun a ha => hacts a (List.mem_cons_of_mem _ ha))
      fun m hm => hroom (m + 1) (Nat.succ_lt_succ hm)
    have hlength (i : Fin 8) : (s.executions i (act :: acts)).length =
        (if s.next = some i then 1 else 0) +
          ((s.mkSchedulerRunIteration act).1.executions i acts).length := by
      rw [Scheduler.executions, List.length_append]
      split <;> rfl
    refine ⟨?_, fun i => ?_⟩
    · simp only [hlength, ← Nat.add_assoc]
      exact hrest
    -- The first iteration runs the task of the slot, or another one, or none.
    by_cases hi : s.next = some i
    · obtain ⟨q, hq, htime, _, hdue⟩ := h.of_eligible (Scheduler.eligible_of_next hi).1
      refine ⟨fun hnone => ?_, fun p hp => ?_⟩
      · rw [hq] at hnone
        cases hnone
      · obtain rfl := Option.some.inj (hp.symm.trans hq)
        have hthis : s.kernel.tick.toNat = start + n i * p.toNat := by rw [← hdue, htime.due]
        have hafter := (htimes i).2 p hp
        simp only [hi, if_true] at hafter
        rw [hlength, if_pos hi, Nat.add_comm 1, List.range_succ_eq_map, Scheduler.executions,
          if_pos hi, List.map_append, hafter]
        simp [hthis, Function.comp_def, Nat.add_assoc, Nat.add_comm 1]
    · obtain ⟨hnone, hsome⟩ := htimes i
      simp only [hi, if_false, Nat.add_zero] at hnone hsome
      rw [hlength, if_neg hi, Nat.zero_add, Scheduler.executions, if_neg hi, List.nil_append]
      exact ⟨hnone, hsome⟩

/-! ## Registration -/

/-- A registration leaves every slot with no task, or with one that is due. -/
theorem registered_mkTaskRegister (h : ∀ i, Vacant (k.task i) ∨
      OnTime k.tick.toNat 0 (k.task i).periodTicks k.tick (k.task i))
    (r : Registration) (hr : 1 ≤ r.periodTicks) (i : Fin 8) :
    let k' := (k.mkTaskRegister r.taskId r.name r.entry r.priority r.periodTicks).1
    k'.tick = k.tick ∧ (Vacant (k'.task i) ∨
      OnTime k.tick.toNat 0 (k'.task i).periodTicks k.tick (k'.task i)) := by
  simp only [MkKernel.mkTaskRegister]
  split
  · exact ⟨rfl, h i⟩
  rename_i hvalid
  refine ⟨rfl, ?_⟩
  simp only [MkKernel.task, Fin.getElem_fin, Vector.getElem_setIfInBounds]
  split
  · refine .inr ⟨Option.isSome_iff_ne_none.2 fun hnone => hvalid (.inr hnone), ?_, rfl, ?_, ?_,
      rfl, .inl ⟨rfl, rfl⟩⟩
    · simp only
      split
      · decide
      · rename_i hle
        exact fun heq => hle (heq ▸ by decide)
    · exact Nat.lt_of_lt_of_le Nat.zero_lt_one (UInt32.le_iff_toNat_le.1 hr)
    · simp
  · exact h i

/-- Tasks registered are due. -/
theorem onTimes_registered (k : MkKernel) {rs : List Registration}
    (hrs : ∀ r ∈ rs, 1 ≤ r.periodTicks) :
    OnTimes k.tick.toNat (k.registered rs).period? (fun _ => 0) (k.registered rs) := by
  -- All of the slots are vacant at first, and each registration keeps them in order.
  have hall : (k.registered rs).tick = k.tick ∧ ∀ i, Vacant ((k.registered rs).task i) ∨
      OnTime k.tick.toNat 0 ((k.registered rs).task i).periodTicks k.tick
        ((k.registered rs).task i) := by
    rw [MkKernel.registered]
    have hinit : ∀ i, Vacant (k.mkSchedulerInit.task i) ∨ OnTime k.tick.toNat 0
        (k.mkSchedulerInit.task i).periodTicks k.tick (k.mkSchedulerInit.task i) := fun i => by
      refine .inl ⟨?_, ?_⟩ <;> simp [MkKernel.task, MkKernel.mkSchedulerInit, MkKernel.zeroTcb]
    have htick : k.mkSchedulerInit.tick = k.tick := rfl
    generalize k.mkSchedulerInit = k' at hinit htick
    induction rs generalizing k' with
    | nil => exact ⟨htick, hinit⟩
    | cons r rs ih =>
      rw [← htick] at hinit
      have hr := registered_mkTaskRegister hinit r (hrs r (List.mem_cons_self ..))
      refine ih (fun q hq => hrs q (List.mem_cons_of_mem _ hq)) _ (fun i => ?_) ?_
      · exact htick ▸ (hr i).2
      · exact (hr 0).1.trans htick
  obtain ⟨htick, hall⟩ := hall
  refine ⟨fun i hi => (hall i).resolve_right fun htime => ?_, fun i p hp => ?_⟩
  · rw [MkKernel.period?] at hi
    split at hi
    · rename_i hstate
      rcases htime.state with ⟨h, _⟩ | ⟨h, _⟩ <;> rw [hstate] at h <;> cases h
    · cases hi
  · rw [MkKernel.period?] at hp
    split at hp
    · cases hp
    · rename_i hstate
      obtain rfl := Option.some.inj hp
      rw [htick]
      exact (hall i).resolve_left fun hvacant => hstate hvacant.state

/-- Whatever tasks are registered at a tick, each with its period, iterations run
    each of them at that tick and then at every period, missing none of the ticks
    passed, as long as no sum of the tick and a period overflows. -/
theorem executions_periodic (k : MkKernel) {rs : List Registration} (cursor : Fin 8)
    {acts : List Activation} (hrs : ∀ r ∈ rs, 1 ≤ r.periodTicks)
    (hacts : ∀ act ∈ acts, act.Keeps)
    (hroom : ∀ m < acts.length, ∀ i p, (k.registered rs).period? i = some p →
      ((⟨k.registered rs, cursor⟩ : Scheduler).run (acts.take m)).kernel.tick.toNat +
        p.toNat < 2 ^ 32) :
    let s : Scheduler := ⟨k.registered rs, cursor⟩
    ∀ i, ((s.run acts).kernel.task i).deadlineMissCount = 0 ∧
      (s.kernel.period? i = none → s.executions i acts = []) ∧
      ∀ p, s.kernel.period? i = some p → ∃ n,
        (s.executions i acts).map UInt32.toNat =
          (List.range n).map (fun j => k.tick.toNat + j * p.toNat) ∧
        ∀ j, k.tick.toNat + j * p.toNat < (s.run acts).kernel.tick.toNat → j < n := by
  intro s i
  obtain ⟨hrun, htimes⟩ := OnTimes.run (s := s) (onTimes_registered k hrs) hacts hroom
  obtain ⟨hnone, hsome⟩ := htimes i
  refine ⟨?_, hnone, fun p hp => ⟨(s.executions i acts).length, ?_, fun j hj => ?_⟩⟩
  · cases hp : (k.registered rs).period? i with
    | none => exact (hrun.vacant i hp).missed
    | some p => exact (hrun.onTime i p hp).missed
  · rw [hsome p hp]
    simp only [Nat.zero_add]
  · have htime := hrun.onTime i p hp
    have hdue := htime.due
    rw [Nat.zero_add] at hdue
    have hle : (s.run acts).kernel.tick.toNat ≤ ((s.run acts).kernel.task i).nextRunTick.toNat := by
      rcases htime.state with ⟨_, heq⟩ | ⟨_, hlt⟩
      · rw [heq]
      · exact Nat.le_of_lt (UInt32.lt_iff_toNat_lt.1 hlt)
    exact Nat.lt_of_mul_lt_mul_right (a := p.toNat) (by omega)

/-- The first two tasks that `app_main` registers. -/
def bootTasks : List Registration :=
  [⟨0, "host_proto", some "protocol_service_task", 0, 1⟩, ⟨2, "wifi_diag",
    some "wifi_diagnostics_task", 4, 5⟩]

/-- Iterations whose entry points return at once. -/
def idles (n : ℕ) : List Activation := List.replicate n ⟨id, 0, 0⟩

theorem keeps_of_mem_idles {n : ℕ} (hact : act ∈ idles n) : act.Keeps := by
  rw [List.eq_of_mem_replicate hact]
  exact fun _ => ⟨rfl, rfl⟩

theorem executions_periodic_boot : ∃ n,
    (((⟨MkKernel.zero.registered bootTasks, 0⟩ : Scheduler).executions 2 (idles 8)).map
      UInt32.toNat) = (List.range n).map (fun j => 0 + j * 5) ∧
    ∀ j, 0 + j * 5 < ((⟨MkKernel.zero.registered bootTasks, 0⟩ : Scheduler).run
      (idles 8)).kernel.tick.toNat → j < n := by
  have hperiod : ∀ i, ((MkKernel.zero.registered bootTasks).period? i).all (· ≤ 5) := by
    decide +kernel
  have htick : ∀ m < 8, ((⟨MkKernel.zero.registered bootTasks, 0⟩ : Scheduler).run
      ((idles 8).take m)).kernel.tick ≤ 8 := by decide +kernel
  refine (executions_periodic MkKernel.zero 0 (show ∀ r ∈ bootTasks, 1 ≤ r.periodTicks by decide)
    (fun _ => keeps_of_mem_idles) (fun m hm i p hp => ?_) 2).2.2 5 (by decide +kernel)
  have hple := hperiod i
  rw [hp] at hple
  have h₁ := UInt32.le_iff_toNat_le.1 (of_decide_eq_true hple)
  have h₂ := UInt32.le_iff_toNat_le.1 (htick m hm)
  exact Nat.lt_of_le_of_lt (Nat.add_le_add h₂ h₁) (by decide)

end SliverOS
