import SliverOS.Kernel.Kernel
import SliverOS.RoundRobin.Cursor

/-!
# The scheduler

`mk_scheduler_tick`, `mk_scheduler_select_next` and `mk_scheduler_run_iteration`
of `os/kernel/scheduler.c`, over the control block and the cursor `s_rr_cursor`
shared by all of the priorities.

What a call of an entry point does to the control block, and the times read
before and after it, are those of an `Activation`.

* `mkSchedulerSelectNext_eq_some_iff`: the task selected is the first one from
  the cursor on among the eligible tasks of the best priority;
* `mkSchedulerRunIteration_of_some`, `mkSchedulerRunIteration_of_none`: an
  iteration runs the task selected, and changes no other, or it advances the
  tick when there is none.
-/

namespace SliverOS

/-- May the task run at a tick? -/
def MkTcb.eligible (tcb : MkTcb) (tick : UInt32) : Bool :=
  tcb.state == .ready && decide (tcb.nextRunTick ≤ tick)

/-- The control block, and the static `s_rr_cursor`. -/
structure Scheduler where
  kernel : MkKernel
  cursor : Fin 8

/-- A call of an entry point: what it does to the control block, and what
    `hal_timer_get_us` returns before and after it. -/
structure Activation where
  work : MkKernel → MkKernel
  startUs : UInt64
  endUs : UInt64

/-- The entry point leaves the tasks and the tick of the control block as they are. -/
def Activation.Keeps (act : Activation) : Prop :=
  ∀ k, (act.work k).tick = k.tick ∧ (act.work k).tasks = k.tasks

namespace MkKernel

/-- The task of a slot. -/
def task (k : MkKernel) (i : Fin 8) : MkTcb := k.tasks[i]

/-- May the task of a slot run now? -/
def eligible (k : MkKernel) (i : Fin 8) : Bool := (k.task i).eligible k.tick

/-- Assignments to fields of the task of a slot. -/
def modifyTask (k : MkKernel) (i : Fin 8) (f : MkTcb → MkTcb) : MkKernel :=
  { k with tasks := k.tasks.set i (f k.tasks[i]) }

/-- `mk_task_set_state`. -/
def mkTaskSetState (k : MkKernel) (taskId : UInt8) (state : MkTaskState) : MkKernel × MkStatus :=
  if h : taskId.toNat < 8 then (k.modifyTask ⟨taskId.toNat, h⟩ ({ · with state }), .ok)
  else (k, .invalidArg)

/-- `mk_scheduler_tick`. -/
def mkSchedulerTick (k : MkKernel) : MkKernel :=
  let tick := k.tick + 1
  { k with
    tick
    tasks := k.tasks.map fun tcb =>
      if tcb.state = .sleeping ∧ tcb.nextRunTick ≤ tick then { tcb with state := .ready } else tcb }

/-- The first loop of `mk_scheduler_select_next`: the best priority of an
    eligible task, or 255. -/
def bestPriority (k : MkKernel) : UInt8 :=
  (List.finRange 8).foldl (fun best i =>
    if k.eligible i ∧ (k.task i).priority < best then (k.task i).priority else best) 255

/-- The condition of the second loop: the task of a slot may run now, and has the
    best priority. -/
def competes (k : MkKernel) (best : UInt8) (i : Fin 8) : Bool :=
  k.eligible i && (k.task i).priority == best

end MkKernel

namespace Scheduler

/-- `mk_scheduler_init`. -/
def mkSchedulerInit (k : MkKernel) : Scheduler := ⟨k.mkSchedulerInit, 0⟩

/-- `mk_scheduler_select_next`: the slot of the task returned, and the scheduler
    after it. -/
def mkSchedulerSelectNext (s : Scheduler) : Option (Fin 8) × Scheduler :=
  let best := s.kernel.bestPriority
  if best = 255 then (none, s)
  else
    match RoundRobin.first (s.kernel.competes best) s.cursor with
    | some i => (some i, { s with cursor := i + 1 })
    | none => (none, s)

end Scheduler

/-- The assignments before the entry point of a task is called. -/
def MkTcb.start (tick : UInt32) (tcb : MkTcb) : MkTcb :=
  { tcb with
    deadlineMissCount :=
      if tcb.nextRunTick < tick then tcb.deadlineMissCount + 1 else tcb.deadlineMissCount
    state := .running }

/-- `duration_us`. -/
def Activation.durationUs (act : Activation) : UInt32 :=
  if act.startUs ≤ act.endUs then (act.endUs - act.startUs).toUInt32 else 0

/-- The assignments after the entry point has returned. -/
def MkTcb.finish (tick duration : UInt32) (tcb : MkTcb) : MkTcb :=
  let tcb := { tcb with
    lastExecutionUs := duration
    worstExecutionUs := max tcb.worstExecutionUs duration }
  let tcb :=
    if tcb.maxExecutionUs < duration then
      { tcb with overrunCount := tcb.overrunCount + 1, faultCount := tcb.faultCount + 1 }
    else tcb
  let tcb := { tcb with executionCount := tcb.executionCount + 1 }
  if tcb.state = .running then
    if 0 < tcb.periodTicks then
      { tcb with nextRunTick := tick + tcb.periodTicks, state := .sleeping }
    else { tcb with nextRunTick := tick, state := .ready }
  else tcb

namespace Scheduler

/-- The fault of a task that has run for too long. -/
def overrunFaults (tcb : MkTcb) (duration : UInt32) : List MkFault :=
  if tcb.maxExecutionUs < duration then
    [⟨.schedulerOverrun, .scheduler, .warning, tcb.id.toUInt32, duration⟩]
  else []

/-- The task that an iteration runs, if any: the one selected, when it has an
    entry point. -/
def next (s : Scheduler) : Option (Fin 8) :=
  s.mkSchedulerSelectNext.1.filter fun i => (s.kernel.task i).entry.isSome

/-- `mk_scheduler_run_iteration`: the scheduler after it, the slot of the task
    that was run, if any, and the faults it reports. -/
def mkSchedulerRunIteration (s : Scheduler) (act : Activation) :
    Scheduler × Option (Fin 8) × List MkFault :=
  let k := s.kernel
  let done (k : MkKernel) : Scheduler :=
    ⟨{ k with schedulerIterations := k.schedulerIterations + 1 }, s.mkSchedulerSelectNext.2.cursor⟩
  match s.next with
  | some i =>
    let k := act.work (k.modifyTask i (MkTcb.start k.tick))
    let duration := act.durationUs
    (done (k.modifyTask i (MkTcb.finish k.tick duration)), some i,
      overrunFaults (k.task i) duration)
  | none => (done k.mkSchedulerTick, none, [])

end Scheduler

/-! ## Tasks -/

namespace MkKernel

variable {k : MkKernel} {i j : Fin 8} {f : MkTcb → MkTcb}

@[simp] theorem task_modifyTask_self : (k.modifyTask i f).task i = f (k.task i) := by
  simp [task, modifyTask]

@[simp] theorem task_modifyTask_of_ne (h : j ≠ i) : (k.modifyTask i f).task j = k.task j := by
  simp only [task, modifyTask, Fin.getElem_fin]
  exact Vector.getElem_set_ne _ _ fun hval => h (Fin.ext hval.symm)

@[simp] theorem tick_mkSchedulerTick : k.mkSchedulerTick.tick = k.tick + 1 := rfl

/-- A sleeping task is woken when its tick has come. -/
theorem task_mkSchedulerTick : k.mkSchedulerTick.task i =
    if (k.task i).state = .sleeping ∧ (k.task i).nextRunTick ≤ k.tick + 1
    then { k.task i with state := .ready } else k.task i := by
  simp only [task, mkSchedulerTick, Fin.getElem_fin, Vector.getElem_map]
  rfl

theorem eligible_iff :
    k.eligible i ↔ (k.task i).state = .ready ∧ (k.task i).nextRunTick ≤ k.tick := by
  simp [eligible, MkTcb.eligible]

/-! ## Selection -/

/-- The loop over some slots keeps the least of the priorities seen. -/
theorem foldl_best (k : MkKernel) (l : List (Fin 8)) (best : UInt8) :
    let r := l.foldl (fun best i =>
      if k.eligible i ∧ (k.task i).priority < best then (k.task i).priority else best) best
    r ≤ best ∧ (∀ i ∈ l, k.eligible i → r ≤ (k.task i).priority) ∧
      (r = best ∨ ∃ i ∈ l, k.eligible i ∧ r = (k.task i).priority) := by
  induction l generalizing best with
  | nil => simp
  | cons i l ih =>
    rw [List.foldl_cons]
    obtain ⟨hle, hall, hsome⟩ :=
      ih (if k.eligible i ∧ (k.task i).priority < best then (k.task i).priority else best)
    by_cases hi : k.eligible i ∧ (k.task i).priority < best
    · rw [if_pos hi] at hle hall hsome ⊢
      refine ⟨UInt8.le_trans hle (UInt8.le_of_lt hi.2), fun j hj hel => ?_, .inr ?_⟩
      · rcases List.mem_cons.1 hj with rfl | hj
        · exact hle
        · exact hall j hj hel
      · rcases hsome with hsome | ⟨j, hj, hel, heq⟩
        · exact ⟨i, List.mem_cons_self .., hi.1, hsome⟩
        · exact ⟨j, List.mem_cons_of_mem _ hj, hel, heq⟩
    · rw [if_neg hi] at hle hall hsome ⊢
      refine ⟨hle, fun j hj hel => ?_, hsome.imp_right ?_⟩
      · rcases List.mem_cons.1 hj with rfl | hj
        · exact UInt8.le_trans hle (UInt8.not_lt.1 fun hlt => hi ⟨hel, hlt⟩)
        · exact hall j hj hel
      · rintro ⟨j, hj, hel, heq⟩
        exact ⟨j, List.mem_cons_of_mem _ hj, hel, heq⟩

theorem bestPriority_le (h : k.eligible i) : k.bestPriority ≤ (k.task i).priority :=
  (foldl_best k (List.finRange 8) 255).2.1 i (List.mem_finRange i) h

theorem exists_of_bestPriority_ne (h : k.bestPriority ≠ 255) :
    ∃ i, k.eligible i ∧ k.bestPriority = (k.task i).priority := by
  obtain ⟨i, _, hi⟩ := (foldl_best k (List.finRange 8) 255).2.2.resolve_left h
  exact ⟨i, hi⟩

end MkKernel

namespace Scheduler

variable {s : Scheduler} {i : Fin 8} {act : Activation}

open RoundRobin

/-- A task that the scheduler may select: it is eligible, and no eligible task
    has a better priority. The priority 255 is that of no task to be run. -/
structure Candidate (k : MkKernel) (i : Fin 8) : Prop where
  eligible : k.eligible i
  priority_ne : (k.task i).priority ≠ 255
  best : ∀ j, k.eligible j → (k.task i).priority ≤ (k.task j).priority

theorem mkSchedulerSelectNext_fst : s.mkSchedulerSelectNext.1 =
    if s.kernel.bestPriority = 255 then none
    else first (s.kernel.competes s.kernel.bestPriority) s.cursor := by
  rw [mkSchedulerSelectNext]
  by_cases hbest : s.kernel.bestPriority = 255
  · simp only [hbest, if_true]
  · simp only [hbest, if_false]
    cases first (s.kernel.competes s.kernel.bestPriority) s.cursor <;> rfl

/-- The cursor is left after the task selected, and stays when there is none. -/
theorem mkSchedulerSelectNext_snd : s.mkSchedulerSelectNext.2 =
    { s with cursor := s.mkSchedulerSelectNext.1.elim s.cursor (· + 1) } := by
  rw [mkSchedulerSelectNext]
  by_cases hbest : s.kernel.bestPriority = 255
  · simp only [hbest, if_true]
    rfl
  · simp only [hbest, if_false]
    cases first (s.kernel.competes s.kernel.bestPriority) s.cursor <;> rfl

/-- What is selected is the first candidate from the cursor on. -/
theorem mkSchedulerSelectNext_eq_some_iff : s.mkSchedulerSelectNext.1 = some i ↔
    Candidate s.kernel i ∧ ∀ j, Candidate s.kernel j → ahead s.cursor i ≤ ahead s.cursor j := by
  have hcandidate (j : Fin 8) (hbest : s.kernel.bestPriority ≠ 255) :
      s.kernel.competes s.kernel.bestPriority j ↔ Candidate s.kernel j := by
    rw [MkKernel.competes, Bool.and_eq_true, beq_iff_eq]
    refine ⟨fun ⟨hel, heq⟩ => ⟨hel, heq ▸ hbest, fun l hl => ?_⟩, fun h => ⟨h.eligible, ?_⟩⟩
    · rw [heq]
      exact MkKernel.bestPriority_le hl
    · obtain ⟨l, hl, heq⟩ := MkKernel.exists_of_bestPriority_ne hbest
      exact UInt8.le_antisymm (heq ▸ h.best l hl) (MkKernel.bestPriority_le h.eligible)
  rw [mkSchedulerSelectNext_fst]
  by_cases hbest : s.kernel.bestPriority = 255
  · rw [if_pos hbest]
    refine iff_of_false (Option.some_ne_none i ∘ Eq.symm) fun ⟨h, _⟩ => h.priority_ne ?_
    have hmax : (s.kernel.task i).priority ≤ 255 :=
      UInt8.le_iff_toNat_le.2 (Nat.le_of_lt_succ (UInt8.toNat_lt _))
    exact UInt8.le_antisymm hmax (hbest ▸ MkKernel.bestPriority_le h.eligible)
  · rw [if_neg hbest, first_eq_some_iff, hcandidate i hbest]
    exact and_congr_right fun _ => forall_congr' fun j => by rw [hcandidate j hbest]

/-- Some task is selected when one is eligible. -/
theorem exists_selected (h : s.kernel.eligible i) (hne : (s.kernel.task i).priority ≠ 255) :
    ∃ j, s.mkSchedulerSelectNext.1 = some j := by
  rw [mkSchedulerSelectNext_fst]
  have hbest : s.kernel.bestPriority ≠ 255 := by
    intro heq
    have hmax : (s.kernel.task i).priority ≤ 255 :=
      UInt8.le_iff_toNat_le.2 (Nat.le_of_lt_succ (UInt8.toNat_lt _))
    exact hne (UInt8.le_antisymm hmax (heq ▸ MkKernel.bestPriority_le h))
  rw [if_neg hbest, ← Option.isSome_iff_exists, ← Option.ne_none_iff_isSome, Ne,
    first_eq_none_iff]
  obtain ⟨j, hj, heq⟩ := MkKernel.exists_of_bestPriority_ne hbest
  exact fun hnone => hnone j (by simp [MkKernel.competes, hj, heq])

/-! ## Iterations -/

/-- An iteration that runs a task changes that task only. -/
theorem mkSchedulerRunIteration_of_some (hact : act.Keeps) (h : s.next = some i) :
    (s.mkSchedulerRunIteration act).1.kernel.tick = s.kernel.tick ∧
      (s.mkSchedulerRunIteration act).1.kernel.task i =
        ((s.kernel.task i).start s.kernel.tick).finish s.kernel.tick act.durationUs ∧
      ∀ j ≠ i, (s.mkSchedulerRunIteration act).1.kernel.task j = s.kernel.task j := by
  obtain ⟨htick, htasks⟩ := hact (s.kernel.modifyTask i (MkTcb.start s.kernel.tick))
  have htask (j : Fin 8) : (act.work (s.kernel.modifyTask i (MkTcb.start s.kernel.tick))).task j =
      (s.kernel.modifyTask i (MkTcb.start s.kernel.tick)).task j := by
    rw [MkKernel.task, htasks, MkKernel.task]
  rw [mkSchedulerRunIteration, h]
  refine ⟨htick, ?_, fun j hj => ?_⟩
  · change (MkKernel.modifyTask _ i _).task i = _
    rw [MkKernel.task_modifyTask_self, htask, MkKernel.task_modifyTask_self, htick]
    rfl
  · change (MkKernel.modifyTask _ i _).task j = _
    rw [MkKernel.task_modifyTask_of_ne hj, htask, MkKernel.task_modifyTask_of_ne hj]

/-- An iteration that runs no task advances the tick. -/
theorem mkSchedulerRunIteration_of_none (act : Activation) (h : s.next = none) :
    (s.mkSchedulerRunIteration act).1.kernel.tick = s.kernel.tick + 1 ∧
      ∀ j, (s.mkSchedulerRunIteration act).1.kernel.task j = s.kernel.mkSchedulerTick.task j := by
  rw [mkSchedulerRunIteration, h]
  exact ⟨rfl, fun _ => rfl⟩

/-- A task that an iteration runs is eligible and has an entry point. -/
theorem eligible_of_next (h : s.next = some i) :
    s.kernel.eligible i ∧ (s.kernel.task i).entry.isSome := by
  obtain ⟨hsel, hentry⟩ := Option.filter_eq_some_iff.1 h
  exact ⟨(mkSchedulerSelectNext_eq_some_iff.1 hsel).1.eligible, hentry⟩

end Scheduler

end SliverOS
