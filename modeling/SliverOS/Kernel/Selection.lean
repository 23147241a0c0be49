import SliverOS.Kernel.Dispatch

/-!
# Selection

`mk_scheduler_select_next` in the states that the functions of `os/kernel/scheduler.c` lead to.
Its first loop starts from the priority 255, and finds nothing if it ends there, so that a task
of this priority would never run. There is none: `mk_task_register` takes a priority over 7 for
7, which is that of the tasks not registered, too (`Reachable.priority_le`).

* `Reachable.selects`: a task is selected if there is one to run, and it is the first of the best
  priority from the cursor on.
-/

namespace SliverOS

namespace Scheduler.Selection

open RoundRobin

/-- A call of the scheduler. The name of a task may be `NULL`. -/
inductive Call
  | mkTaskRegister (taskId : UInt8) (name : Option String) (entry : Option String)
      (priority : UInt8) (periodTicks : UInt32)
  | mkTaskSetState (taskId : UInt8) (state : MkTaskState)
  | mkSchedulerTick
  | mkSchedulerSelectNext

/-- The scheduler after a call. A task without a name is named after its slot. -/
def exec (s : Scheduler) : Call → Scheduler
  | .mkTaskRegister taskId name entry priority periodTicks =>
    { s with
      kernel := (s.kernel.mkTaskRegister taskId (name.getD ("task_" ++ toString taskId.toNat)) entry
        priority periodTicks).1 }
  | .mkTaskSetState taskId state => { s with kernel := (s.kernel.mkTaskSetState taskId state).1 }
  | .mkSchedulerTick => { s with kernel := s.kernel.mkSchedulerTick }
  | .mkSchedulerSelectNext => s.mkSchedulerSelectNext.2

/-- The states of the scheduler after `mk_scheduler_init` and some calls. -/
inductive Reachable : Scheduler → Prop
  | init (k : MkKernel) : Reachable (mkSchedulerInit k)
  | call {s : Scheduler} (h : Reachable s) (c : Call) : Reachable (exec s c)

/-- What `mk_scheduler_select_next` does: it returns a task exactly if there is one to run, and
    it is the first one of the best priority from the cursor on, which is left after it; the
    tasks do not change. -/
structure Selects (s : Scheduler) : Prop where
  isSome_iff : s.mkSchedulerSelectNext.1.isSome ↔ ∃ i, s.kernel.eligible i
  eligible : ∀ i, s.mkSchedulerSelectNext.1 = some i → s.kernel.eligible i
  best : ∀ i, s.mkSchedulerSelectNext.1 = some i → ∀ j, s.kernel.eligible j →
    (s.kernel.task i).priority ≤ (s.kernel.task j).priority
  first : ∀ i, s.mkSchedulerSelectNext.1 = some i → ∀ j, s.kernel.eligible j →
    (s.kernel.task j).priority = (s.kernel.task i).priority → ahead s.cursor i ≤ ahead s.cursor j
  kernel : s.mkSchedulerSelectNext.2.kernel = s.kernel
  cursor : s.mkSchedulerSelectNext.2.cursor =
    s.mkSchedulerSelectNext.1.elim s.cursor fun i => i + 1

variable {s : Scheduler}

/-- A call keeps the priorities at the lowest one at most. -/
theorem priority_exec_le (h : ∀ i, (s.kernel.task i).priority ≤ 7) (c : Call) (i : Fin 8) :
    ((exec s c).kernel.task i).priority ≤ 7 := by
  cases c with
  | mkTaskRegister taskId name entry priority periodTicks =>
    simp only [exec, MkKernel.mkTaskRegister]
    split
    · exact h i
    simp only [MkKernel.task, Fin.getElem_fin, Vector.getElem_setIfInBounds]
    split
    · simp only
      split
      · exact UInt8.le_refl _
      · next hle => exact UInt8.not_lt.1 hle
    · exact h i
  | mkTaskSetState taskId state =>
    rw [exec, MkKernel.mkTaskSetState]
    split
    · next hlt =>
      by_cases hi : i = ⟨taskId.toNat, hlt⟩
      · rw [hi, MkKernel.task_modifyTask_self]
        exact h _
      · rw [MkKernel.task_modifyTask_of_ne hi]
        exact h i
    · exact h i
  | mkSchedulerTick =>
    rw [exec, MkKernel.task_mkSchedulerTick]
    split
    · exact h i
    · exact h i
  | mkSchedulerSelectNext =>
    rw [exec, mkSchedulerSelectNext_snd]
    exact h i

/-- No task has a priority beyond the lowest one. -/
theorem Reachable.priority_le (h : Reachable s) (i : Fin 8) : (s.kernel.task i).priority ≤ 7 := by
  induction h generalizing i with
  | init k => simp [mkSchedulerInit, MkKernel.mkSchedulerInit, MkKernel.task]
  | call _ c ih => exact priority_exec_le ih c i

/-- In every state of the scheduler, a task is selected if there is one to run, and it is the
    first of the best priority from the cursor on. -/
theorem Reachable.selects (h : Reachable s) : Selects s := by
  have hne (i : Fin 8) : (s.kernel.task i).priority ≠ 255 := by
    intro heq
    have hle := h.priority_le i
    rw [heq] at hle
    exact absurd hle (by decide)
  refine ⟨⟨?_, ?_⟩, ?_, ?_, ?_, ?_, ?_⟩
  · intro hsome
    obtain ⟨i, hi⟩ := Option.isSome_iff_exists.1 hsome
    exact ⟨i, (mkSchedulerSelectNext_eq_some_iff.1 hi).1.eligible⟩
  · rintro ⟨i, hi⟩
    obtain ⟨j, hj⟩ := exists_selected hi (hne i)
    rw [hj]
    rfl
  · intro i hi
    exact (mkSchedulerSelectNext_eq_some_iff.1 hi).1.eligible
  · intro i hi j hj
    exact (mkSchedulerSelectNext_eq_some_iff.1 hi).1.best j hj
  · intro i hi j hj hpriority
    obtain ⟨hcandidate, hfirst⟩ := mkSchedulerSelectNext_eq_some_iff.1 hi
    exact hfirst j ⟨hj, hne j, fun l hl => hpriority ▸ hcandidate.best l hl⟩
  · rw [mkSchedulerSelectNext_snd]
  · rw [mkSchedulerSelectNext_snd]

/-- With a task registered, the next one selected is as it should be. -/
theorem selects_registered :
    Reachable (exec (mkSchedulerInit .zero)
      (.mkTaskRegister 3 none (some "retro_games_task") 255 2)) ∧
    Selects (exec (mkSchedulerInit .zero)
      (.mkTaskRegister 3 none (some "retro_games_task") 255 2)) :=
  ⟨(Reachable.init .zero).call _, ((Reachable.init .zero).call _).selects⟩

end Scheduler.Selection

end SliverOS
