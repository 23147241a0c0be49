import SliverOS.Kernel.Timebase
import SliverOS.RoundRobin.Timetable

/-!
# The timetable of the tasks

`mk_kernel_run` of `os/kernel/kernel.c`: iterations of the scheduler, as long as the kernel is
running. Tasks with periods, no two of the same priority, are run by a timetable: at every tick
those of which the period divides the ticks since the registration, in the order of their
priorities (`dueTasks`), whatever the times are that they take (`mkKernelRun_timetable`).

* `app_main_timetable`: that of the five tasks of `app_main`.
-/

namespace SliverOS

open RoundRobin

namespace Scheduler

/-- The loop of `mk_kernel_run`, with the calls of entry points that its iterations make: the slots
    of the tasks run, none in an iteration that is idle, and the scheduler after them. -/
def loop (s : Scheduler) : List Activation → List (Option (Fin 8)) × Scheduler
  | [] => ([], s)
  | act :: acts =>
    if s.kernel.state = .running then
      let r := s.mkSchedulerRunIteration act
      let rest := r.1.loop acts
      (r.2.1 :: rest.1, rest.2)
    else ([], s)

/-- `mk_kernel_run`: what it returns, once its loop has ended, and the loop. -/
def mkKernelRun (s : Scheduler) (acts : List Activation) :
    MkStatus × List (Option (Fin 8)) × Scheduler :=
  if s.kernel.state ≠ .ready then (.invalidState, [], s)
  else
    let r := s.kernel.mkKernelTransition .running
    if r.2.1 ≠ .ok then (r.2.1, [], { s with kernel := r.1 })
    else (.ok, { s with kernel := r.1 }.loop acts)

end Scheduler

/-- The slots of the tasks that are due at a tick, in the order of their priorities. -/
def dueTasks (period? : Fin 8 → Option UInt32) (priority : Fin 8 → UInt8) (start t : ℕ) :
    List (Fin 8) :=
  ((List.finRange 8).filter fun i => (period? i).any fun p => p.toNat ∣ t - start).insertionSort
    fun i j => priority i ≤ priority j

variable {s : Scheduler} {k k' : MkKernel} {i j : Fin 8} {act : Activation} {acts : List Activation}
  {period? : Fin 8 → Option UInt32} {priority : Fin 8 → UInt8} {n : Fin 8 → ℕ} {start t : ℕ}
  {slots : List (Fin 8)}

/-! ## Tasks on time -/

/-- A task on time may run when it is due. -/
theorem OnTimes.eligible_iff (h : OnTimes start period? n k) : k.eligible i ↔
    ∃ p, period? i = some p ∧ start + n i * p.toNat = k.tick.toNat := by
  constructor
  · intro hel
    obtain ⟨p, hp, hi, -, hdue⟩ := h.of_eligible hel
    exact ⟨p, hp, by rw [← hi.due, hdue]⟩
  · rintro ⟨p, hp, hdue⟩
    have hi := h.onTime i p hp
    rw [← hi.due] at hdue
    have hnext := UInt32.toNat_inj.1 hdue
    rcases hi.state with ⟨hready, -⟩ | ⟨-, hlt⟩
    · exact MkKernel.eligible_iff.2 ⟨hready, hnext ▸ UInt32.le_refl _⟩
    · exact absurd hlt (hnext ▸ UInt32.lt_irrefl _)

theorem OnTimes.congr (h : OnTimes start period? n k) (htick : k'.tick = k.tick)
    (htasks : k'.tasks = k.tasks) : OnTimes start period? n k' := by
  have htask (i : Fin 8) : k'.task i = k.task i := by rw [MkKernel.task, htasks, MkKernel.task]
  refine ⟨fun i hi => ?_, fun i p hp => ?_⟩
  · rw [htask]
    exact h.vacant i hi
  · rw [htask, htick]
    exact h.onTime i p hp

/-! ## The tasks due -/

theorem mem_dueTasks : i ∈ dueTasks period? priority start t ↔
    ∃ p, period? i = some p ∧ p.toNat ∣ t - start := by
  rw [dueTasks, List.mem_insertionSort, List.mem_filter]
  cases period? i with
  | none => simp
  | some p => simp

/-- They are in the order of their priorities, if those are different. -/
theorem pairwise_dueTasks
    (hprio : ∀ i j, (period? i).isSome → (period? j).isSome → priority i = priority j → i = j) :
    (dueTasks period? priority start t).Pairwise fun i j => priority i < priority j := by
  have : Std.Total fun i j : Fin 8 => priority i ≤ priority j := ⟨fun i j => UInt8.le_total _ _⟩
  have : IsTrans (Fin 8) fun i j => priority i ≤ priority j := ⟨fun _ _ _ => UInt8.le_trans⟩
  have hnodup : (dueTasks period? priority start t).Nodup :=
    (List.perm_insertionSort _ _).nodup_iff.2 ((List.nodup_finRange 8).filter _)
  refine ((List.pairwise_insertionSort _ _).and hnodup).imp_of_mem fun {i j} hi hj ⟨hle, hne⟩ => ?_
  obtain ⟨p, hp, -⟩ := mem_dueTasks.1 hi
  obtain ⟨q, hq, -⟩ := mem_dueTasks.1 hj
  have hdiff : priority i ≠ priority j := fun heq =>
    hne (hprio i j (by rw [hp]; rfl) (by rw [hq]; rfl) heq)
  exact UInt8.lt_of_le_of_ne hle hdiff

/-! ## Iterations -/

/-- The tasks that are left at a tick: each registered task is due at this tick, or one period after
    it at most, and those due are in the order of their priorities. -/
structure TasksLeft (start : ℕ) (period? : Fin 8 → Option UInt32) (priority : Fin 8 → UInt8) (t : ℕ)
    (slots : List (Fin 8)) (s : Scheduler) : Prop where
  tick : s.kernel.tick.toNat = t
  start_le : start ≤ t
  onTime : ∃ n, OnTimes start period? n s.kernel ∧
    ∀ i p, period? i = some p → start + n i * p.toNat ≤ t + p.toNat
  mem : ∀ i, i ∈ slots ↔ s.kernel.eligible i
  priorities : ∀ i, (s.kernel.task i).priority = priority i
  sorted : slots.Pairwise fun i j => priority i < priority j

/-- The first of the tasks that are left is run next. -/
theorem TasksLeft.next_eq (h : TasksLeft start period? priority t (i :: slots) s) :
    s.next = some i := by
  obtain ⟨n, hn, -⟩ := h.onTime
  have hi : s.kernel.eligible i := (h.mem i).1 (List.mem_cons_self ..)
  obtain ⟨p, -, htime, -⟩ := hn.of_eligible hi
  have hbest (j : Fin 8) (hj : s.kernel.eligible j) : j = i ∨ priority i < priority j := by
    rcases List.mem_cons.1 ((h.mem j).2 hj) with heq | hmem
    · exact .inl heq
    · exact .inr ((List.pairwise_cons.1 h.sorted).1 j hmem)
  have hcandidate : Scheduler.Candidate s.kernel i := by
    refine ⟨hi, htime.priority, fun j hj => ?_⟩
    rw [h.priorities, h.priorities]
    rcases hbest j hj with rfl | hlt
    · exact UInt8.le_refl _
    · exact UInt8.le_of_lt hlt
  refine Option.filter_eq_some_iff.2
    ⟨Scheduler.mkSchedulerSelectNext_eq_some_iff.2 ⟨hcandidate, fun j hj => ?_⟩, htime.entry⟩
  -- There is no other candidate.
  rcases hbest j hj.eligible with rfl | hlt
  · exact Nat.le_refl _
  · have hle := hj.best i hi
    rw [h.priorities, h.priorities] at hle
    exact absurd hlt (UInt8.not_lt.2 hle)

theorem TasksLeft.next_nil (h : TasksLeft start period? priority t [] s) : s.next = none := by
  cases hnext : s.next with
  | none => rfl
  | some i => cases (h.mem i).2 (Scheduler.eligible_of_next hnext).1

/-- The task that is run is not eligible afterwards, and the others are as before. -/
theorem OnTimes.eligible_iteration (h : OnTimes start period? n s.kernel) (hact : act.Keeps)
    (hnext : s.next = some i) : (s.mkSchedulerRunIteration act).1.kernel.eligible j ↔
      j ≠ i ∧ s.kernel.eligible j := by
  obtain ⟨p, -, htime, -⟩ := h.of_eligible (Scheduler.eligible_of_next hnext).1
  have hperiod : (s.kernel.task i).periodTicks ≠ 0 := by
    rw [htime.periodTicks]
    intro hzero
    have hpos := htime.period_pos
    rw [hzero] at hpos
    exact absurd hpos (by decide)
  have hiff := Finset.ext_iff.1 (Scheduler.eligibles_iteration hact hnext hperiod) j
  simpa [MkKernel.eligibles] using hiff

/-- It is not left then. -/
theorem TasksLeft.job (h : TasksLeft start period? priority t (i :: slots) s) (hact : act.Keeps)
    (hroom : ∀ i p, period? i = some p → t + p.toNat < 2 ^ 32) :
    TasksLeft start period? priority t slots (s.mkSchedulerRunIteration act).1 := by
  have hnext := h.next_eq
  have hi : s.kernel.eligible i := (h.mem i).1 (List.mem_cons_self ..)
  obtain ⟨n, hn, hdue⟩ := h.onTime
  obtain ⟨htick, hrun, hothers⟩ := Scheduler.mkSchedulerRunIteration_of_some hact hnext
  have hstep := hn.step hact fun j p hp => by
    rw [h.tick]
    exact hroom j p hp
  have hsorted := List.pairwise_cons.1 h.sorted
  refine ⟨by rw [htick, h.tick], h.start_le, ⟨_, hstep, fun j p hp => ?_⟩, fun j => ?_,
    fun j => ?_, hsorted.2⟩
  · by_cases hij : s.next = some j
    · obtain rfl := Option.some.inj (hnext.symm.trans hij)
      obtain ⟨q, hq, hnow⟩ := hn.eligible_iff.1 hi
      obtain rfl := Option.some.inj (hp.symm.trans hq)
      simp only [hij, if_true]
      rw [h.tick] at hnow
      rw [Nat.add_mul, Nat.one_mul]
      omega
    · simp only [hij, if_false]
      exact hdue j p hp
  · rw [hn.eligible_iteration hact hnext, ← h.mem, List.mem_cons]
    constructor
    · intro hj
      have hlt := hsorted.1 j hj
      exact ⟨fun heq => UInt8.lt_irrefl _ (heq ▸ hlt), .inr hj⟩
    · rintro ⟨hne, hj⟩
      exact hj.resolve_left hne
  · by_cases hij : j = i
    · subst hij
      rw [hrun, (MkTcb.fields_finish _ _ _).2.1]
      exact h.priorities j
    · rw [hothers j hij]
      exact h.priorities j

/-- A time within the latest period is a multiple of periods after the start exactly if it is the
    end of this period. -/
theorem dvd_sub_iff {n p : ℕ} (hstart : start ≤ t) (hlt : t < start + n * p)
    (hle : start + n * p ≤ t + p) : p ∣ t + 1 - start ↔ start + n * p = t + 1 := by
  constructor
  · rintro ⟨m, hm⟩
    rw [Nat.mul_comm] at hm
    have hge : m ≤ n := Nat.le_of_mul_le_mul_right (by omega : m * p ≤ n * p) (by omega)
    have hge' : n ≤ m := Nat.le_of_lt_succ <| Nat.lt_of_mul_lt_mul_right (a := p) <| by
      rw [Nat.succ_mul]
      omega
    rw [Nat.le_antisymm hge' hge]
    omega
  · intro heq
    exact ⟨n, by rw [Nat.mul_comm]; omega⟩

/-- When none is left, the tick goes on to those of the next one. -/
theorem TasksLeft.idle (h : TasksLeft start period? priority t [] s) (hact : act.Keeps)
    (hprio : ∀ i j, (period? i).isSome → (period? j).isSome → priority i = priority j → i = j)
    (hroom : ∀ i p, period? i = some p → t + p.toNat < 2 ^ 32) (hlast : t + 1 < 2 ^ 32) :
    TasksLeft start period? priority (t + 1) (dueTasks period? priority start (t + 1))
      (s.mkSchedulerRunIteration act).1 := by
  have hnext := h.next_nil
  obtain ⟨n, hn, hdue⟩ := h.onTime
  obtain ⟨htick, htasks⟩ := Scheduler.mkSchedulerRunIteration_of_none act hnext
  have hstep := hn.step hact fun j p hp => by
    rw [h.tick]
    exact hroom j p hp
  simp only [hnext, reduceCtorEq, if_false, Nat.add_zero] at hstep
  have htick' : (s.mkSchedulerRunIteration act).1.kernel.tick.toNat = t + 1 := by
    rw [htick, UInt32.toNat_add, h.tick]
    exact Nat.mod_eq_of_lt hlast
  have hstart := h.start_le
  refine ⟨htick', by omega, ⟨n, hstep, fun i p hp => ?_⟩, fun i => ?_, fun i => ?_,
    pairwise_dueTasks hprio⟩
  · have hle := hdue i p hp
    omega
  · rw [mem_dueTasks, hstep.eligible_iff, htick']
    refine exists_congr fun p => and_congr_right fun hp => ?_
    -- The task was run within the latest period.
    have hi := hn.onTime i p hp
    have hlt : t < start + n i * p.toNat := by
      rcases hi.state with ⟨hready, -⟩ | ⟨-, hlt⟩
      · rw [hn.sleeping hnext hp] at hready
        cases hready
      · rw [← hi.due, ← h.tick]
        exact UInt32.lt_iff_toNat_lt.1 hlt
    exact dvd_sub_iff hstart hlt (hdue i p hp)
  · rw [htasks, MkKernel.task_mkSchedulerTick]
    split_ifs <;> exact h.priorities i

/-- The iterations serve the tasks by their timetable. -/
theorem serves_dueTasks {last : ℕ}
    (hprio : ∀ i j, (period? i).isSome → (period? j).isSome → priority i = priority j → i = j)
    (hroom : ∀ i p, period? i = some p → last + p.toNat ≤ 2 ^ 32) (hlast : last < 2 ^ 32) :
    Serves Scheduler.next (fun s act => (s.mkSchedulerRunIteration act).1) Activation.Keeps
      (dueTasks period? priority start) last (TasksLeft start period? priority) where
  job h hlt hact := by
    refine ⟨h.next_eq, h.job hact fun i p hp => ?_⟩
    have hle := hroom i p hp
    omega
  idle h hlt hact := by
    refine ⟨h.next_nil, h.idle hact hprio (fun i p hp => ?_) (by omega)⟩
    have hle := hroom i p hp
    omega

/-- Those registered at the first tick are left at it. -/
theorem left_of_onTimes (h : OnTimes start period? (fun _ => 0) s.kernel)
    (htick : s.kernel.tick.toNat = start)
    (hprio : ∀ i j, (period? i).isSome → (period? j).isSome → priority i = priority j → i = j)
    (hpriorities : ∀ i, (s.kernel.task i).priority = priority i) :
    TasksLeft start period? priority start (dueTasks period? priority start start) s := by
  refine ⟨htick, Nat.le_refl _, ⟨_, h, fun i p _ => ?_⟩, fun i => ?_, hpriorities,
    pairwise_dueTasks hprio⟩
  · rw [Nat.zero_mul]
    exact Nat.le_add_right ..
  · rw [mem_dueTasks, h.eligible_iff, htick]
    refine exists_congr fun p => and_congr_right fun _ => iff_of_true ?_ ?_
    · rw [Nat.sub_self]
      exact Nat.dvd_zero _
    · rw [Nat.zero_mul, Nat.add_zero]

/-! ## The loop of the kernel -/

namespace Scheduler

/-- An iteration runs the task that is next. -/
theorem slot_mkSchedulerRunIteration (s : Scheduler) (act : Activation) :
    (s.mkSchedulerRunIteration act).2.1 = s.next := by
  rw [mkSchedulerRunIteration]
  cases s.next with
  | none => rfl
  | some i => rfl

/-- The loop runs the tasks that the iterations run, up to its end. -/
theorem loop_follows (s : Scheduler) (acts : List Activation) :
    (s.loop acts).1 <+: trace next (fun s act => (s.mkSchedulerRunIteration act).1) s acts := by
  induction acts generalizing s with
  | nil => exact List.prefix_rfl
  | cons act acts ih =>
    rw [loop]
    split_ifs
    · rw [trace, ← slot_mkSchedulerRunIteration s act]
      exact List.cons_prefix_cons.2 ⟨rfl, ih _⟩
    · exact List.nil_prefix

theorem state_mkSchedulerRunIteration (s : Scheduler)
    (hact : ∀ k, (act.work k).state = k.state) :
    (s.mkSchedulerRunIteration act).1.kernel.state = s.kernel.state := by
  rw [mkSchedulerRunIteration]
  cases s.next with
  | none => rfl
  | some i => exact hact _

/-- It goes on as long as no task changes the state of the kernel. -/
theorem length_loop (h : s.kernel.state = .running)
    (hacts : ∀ act ∈ acts, ∀ k, (act.work k).state = k.state) :
    (s.loop acts).1.length = acts.length := by
  induction acts generalizing s with
  | nil => rfl
  | cons act acts ih =>
    have hstate := state_mkSchedulerRunIteration s (hacts act (List.mem_cons_self ..))
    rw [loop, if_pos h]
    exact congrArg (· + 1)
      (ih (hstate.trans h) fun a ha => hacts a (List.mem_cons_of_mem act ha))

/-- `mk_kernel_run` is its loop in the state `MK_KERNEL_STATE_READY`. -/
theorem mkKernelRun_of_ready (h : s.kernel.state = .ready) (acts : List Activation) :
    s.mkKernelRun acts = (.ok, { s with kernel.state := .running }.loop acts) := by
  have htransition : s.kernel.mkKernelTransition .running =
      ({ s.kernel with state := .running }, .ok, []) := by
    rw [MkKernel.mkKernelTransition, if_pos (by rw [h]; decide)]
  rw [mkKernelRun, if_neg (not_not.2 h), htransition]
  rfl

end Scheduler

/-- `mk_kernel_run` runs tasks registered at a tick by their timetable from this tick on, and goes
    on as long as none of them changes the state of the kernel. -/
theorem mkKernelRun_timetable (h : OnTimes start period? (fun _ => 0) s.kernel)
    (hready : s.kernel.state = .ready) (htick : s.kernel.tick.toNat = start)
    (hprio : ∀ i j, (period? i).isSome → (period? j).isSome → priority i = priority j → i = j)
    (hpriorities : ∀ i, (s.kernel.task i).priority = priority i)
    (hacts : ∀ act ∈ acts, act.Keeps) (hlast : start + acts.length < 2 ^ 32)
    (hroom : ∀ i p, period? i = some p → start + acts.length + p.toNat ≤ 2 ^ 32) :
    (s.mkKernelRun acts).2.1 <+:
        timetable (dueTasks period? priority start) start (acts.length + 1) ∧
      ((∀ act ∈ acts, ∀ k, (act.work k).state = k.state) →
        (s.mkKernelRun acts).2.1.length = acts.length) := by
  rw [Scheduler.mkKernelRun_of_ready hready]
  refine ⟨(Scheduler.loop_follows _ acts).trans ?_, Scheduler.length_loop rfl⟩
  have hrunning : OnTimes start period? (fun _ => 0) { s.kernel with state := .running } :=
    h.congr rfl rfl
  have hleft := left_of_onTimes (s := { s with kernel.state := .running }) hrunning htick hprio
    hpriorities
  exact (serves_dueTasks hprio hroom hlast).follows hleft hacts (Nat.le_refl _)

/-! ## The tasks of `app_main` -/

/-- The control block when `app_main` calls `mk_kernel_run`. -/
def MkKernel.appMain : MkKernel :=
  let k := mkKernelBoot.1.mkKernelInit.1
  let k := (k.mkKernelRegisterApp .bleHid "BLE_HID" 1).1
  let k := (k.mkKernelRegisterApp .wifiDiagnostics "WIFI_DIAG" 2).1
  let k := (k.mkKernelRegisterApp .networkDiagnostics "NET_DIAG" 3).1
  let k := (k.mkKernelRegisterApp .retroGames "RETRO_GAMES" 4).1
  let k := (k.mkTaskRegister 0 "host_proto" (some "protocol_service_task") 0 1).1
  let k := (k.mkTaskRegister 1 "ble_hid" (some "ble_hid_task") 2 1).1
  let k := (k.mkTaskRegister 2 "wifi_diag" (some "wifi_diagnostics_task") 4 5).1
  let k := (k.mkTaskRegister 3 "net_diag" (some "network_diagnostics_task") 6 10).1
  let k := (k.mkTaskRegister 4 "retro_games" (some "retro_games_task") 7 2).1
  let k := (k.mkAppTransition .bleHid .ready).1
  let k := (k.mkAppTransition .wifiDiagnostics .ready).1
  let k := (k.mkAppTransition .networkDiagnostics .ready).1
  let k := (k.mkAppTransition .retroGames .ready).1
  (k.mkKernelTransition .ready).1

example : MkKernel.booted = (MkKernel.appMain.mkKernelTransition .running).1 := rfl

/-- The tasks due at a tick: the protocol and the keyboard at every one, the diagnostics of Wi-Fi at
    every fifth one, those of the network at every tenth one, and the games at every second one. -/
def appMainTasks (t : ℕ) : List (Fin 8) :=
  [0, 1] ++ (if 5 ∣ t then [2] else []) ++ (if 10 ∣ t then [3] else []) ++ if 2 ∣ t then [4] else []

/-- What `app_main` passes to `mk_task_register`. -/
def appMainRegistrations : List Registration :=
  [⟨0, "host_proto", some "protocol_service_task", 0, 1⟩, ⟨1, "ble_hid", some "ble_hid_task", 2, 1⟩,
    ⟨2, "wifi_diag", some "wifi_diagnostics_task", 4, 5⟩,
    ⟨3, "net_diag", some "network_diagnostics_task", 6, 10⟩,
    ⟨4, "retro_games", some "retro_games_task", 7, 2⟩]

/-- The periods of the tasks. -/
def appMainPeriod : Fin 8 → Option UInt32 :=
  ![some 1, some 1, some 5, some 10, some 2, none, none, none]

/-- The priorities of the slots. -/
def appMainPriority : Fin 8 → UInt8 := ![0, 2, 4, 6, 7, 7, 7, 7]

theorem dueTasks_appMain (t : ℕ) : dueTasks appMainPeriod appMainPriority 0 t = appMainTasks t := by
  have hslots : List.finRange 8 = [0, 1, 2, 3, 4, 5, 6, 7] := by decide
  rw [dueTasks, appMainTasks, hslots, Nat.sub_zero]
  by_cases h5 : 5 ∣ t <;> by_cases h10 : 10 ∣ t <;> by_cases h2 : 2 ∣ t <;>
    simp [appMainPeriod, h5, h10, h2] <;> decide

theorem appMain_ready : MkKernel.appMain.state = .ready ∧ MkKernel.appMain.tick.toNat = 0 ∧
    ∀ i, (MkKernel.appMain.task i).priority = appMainPriority i := by decide +kernel

theorem onTimes_appMain : OnTimes 0 appMainPeriod (fun _ => 0) MkKernel.appMain := by
  have hrs : ∀ r ∈ appMainRegistrations, 1 ≤ r.periodTicks := by decide
  have hperiod : (MkKernel.zero.registered appMainRegistrations).period? = appMainPeriod := by
    funext i
    revert i
    decide +kernel
  have hregistered := onTimes_registered MkKernel.zero hrs
  rw [hperiod] at hregistered
  exact hregistered.congr (by decide +kernel) (by decide +kernel)

/-- Whatever the tasks do, as long as they leave the control blocks of the tasks and the tick alone,
    the kernel runs those of `app_main` by this timetable. -/
theorem app_main_timetable (cursor : Fin 8) (acts : List Activation)
    (hacts : ∀ act ∈ acts, act.Keeps) (hroom : acts.length + 10 ≤ 2 ^ 32) :
    let s : Scheduler := ⟨MkKernel.appMain, cursor⟩
    (s.mkKernelRun acts).2.1 <+: timetable appMainTasks 0 (acts.length + 1) ∧
      ((∀ act ∈ acts, ∀ k, (act.work k).state = k.state) →
        (s.mkKernelRun acts).2.1.length = acts.length) := by
  intro s
  have hprio : ∀ i j, (appMainPeriod i).isSome → (appMainPeriod j).isSome →
      appMainPriority i = appMainPriority j → i = j := by decide
  have hperiod : ∀ i, (appMainPeriod i).all (· ≤ 10) := by decide
  obtain ⟨hready, htick, hpriorities⟩ := appMain_ready
  have hdue : dueTasks appMainPeriod appMainPriority 0 = appMainTasks := funext dueTasks_appMain
  have htimetable := mkKernelRun_timetable (s := s) onTimes_appMain hready htick hprio hpriorities
    hacts (by omega) fun i p hp => by
      have hall := hperiod i
      rw [hp] at hall
      have hle := UInt32.le_iff_toNat_le.1 (of_decide_eq_true hall)
      have hten : (10 : UInt32).toNat = 10 := rfl
      omega
  rwa [hdue] at htimetable

theorem app_main_timetable_idles :
    (Scheduler.mkKernelRun ⟨MkKernel.appMain, 0⟩ (idles 13)).2.1 =
      [some 0, some 1, some 2, some 3, some 4, none, some 0, some 1, none, some 0, some 1, some 4,
        none] ∧
    (Scheduler.mkKernelRun ⟨MkKernel.appMain, 0⟩ (idles 13)).2.1 <+: timetable appMainTasks 0 14 :=
  ⟨by decide +kernel,
    (app_main_timetable 0 (idles 13) (fun _ => keeps_of_mem_idles) (by decide)).1⟩

end SliverOS
