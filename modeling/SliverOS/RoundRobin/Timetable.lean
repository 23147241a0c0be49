import Mathlib

/-!
# Timetables

At every time some jobs are due, in an order (`turn`). A machine that serves one job a step serves
those that are due at a time in this order, is idle for one step when none is left, and goes on to
the next time (`Serves`).

* `Serves.follows`: what it serves is what the timetable says.
-/

namespace RoundRobin

variable {σ α β : Type*} {turn : ℕ → List α} {next : σ → Option α} {step : σ → β → σ}
  {P : β → Prop} {last t : ℕ} {Left : ℕ → List α → σ → Prop} {s : σ} {jobs : List α} {bs : List β}

/-- The jobs of `n` times from `t` on, with an idle step at the end of each time. -/
def timetable (turn : ℕ → List α) (t : ℕ) : ℕ → List (Option α)
  | 0 => []
  | n + 1 => (turn t).map some ++ none :: timetable turn (t + 1) n

/-- What the steps of a run serve. -/
def trace (next : σ → Option α) (step : σ → β → σ) (s : σ) : List β → List (Option α)
  | [] => []
  | b :: bs => next s :: trace next step (step s b) bs

/-- Before the time `last`, the machine serves the first job that is left, and it takes those of the
    next time when there is none. -/
structure Serves (next : σ → Option α) (step : σ → β → σ) (P : β → Prop) (turn : ℕ → List α)
    (last : ℕ) (Left : ℕ → List α → σ → Prop) : Prop where
  job : ∀ {t a jobs s b}, Left t (a :: jobs) s → t < last → P b →
    next s = some a ∧ Left t jobs (step s b)
  idle : ∀ {t s b}, Left t [] s → t < last → P b →
    next s = none ∧ Left (t + 1) (turn (t + 1)) (step s b)

/-- More times only add to a timetable. -/
theorem timetable_prefix_succ (turn : ℕ → List α) (t n : ℕ) :
    timetable turn t n <+: timetable turn t (n + 1) := by
  induction n generalizing t with
  | zero => exact List.nil_prefix
  | succ n ih =>
    rw [timetable, timetable, List.prefix_append_right_inj, List.cons_prefix_cons]
    exact ⟨rfl, ih (t + 1)⟩

/-- A run serves the jobs that are left, and then those of the times after. -/
theorem Serves.follows (h : Serves next step P turn last Left) (hleft : Left t jobs s)
    (hbs : ∀ b ∈ bs, P b) (hlast : t + bs.length ≤ last) :
    trace next step s bs <+: jobs.map some ++ none :: timetable turn (t + 1) bs.length := by
  induction bs generalizing t jobs s with
  | nil => exact List.nil_prefix
  | cons b bs ih =>
    rw [List.length_cons] at hlast
    have hb := hbs b (List.mem_cons_self ..)
    have hrest := fun c hc => hbs c (List.mem_cons_of_mem b hc)
    cases jobs with
    | nil =>
      obtain ⟨hnext, hleft'⟩ := h.idle hleft (by omega) hb
      rw [trace, hnext, List.map_nil, List.nil_append, List.cons_prefix_cons]
      exact ⟨rfl, ih hleft' hrest (by omega)⟩
    | cons a jobs =>
      obtain ⟨hnext, hleft'⟩ := h.job hleft (by omega) hb
      rw [trace, hnext, List.map_cons, List.cons_append, List.cons_prefix_cons]
      refine ⟨rfl, (ih hleft' hrest (by omega)).trans ?_⟩
      rw [List.prefix_append_right_inj, List.cons_prefix_cons]
      exact ⟨rfl, timetable_prefix_succ turn (t + 1) bs.length⟩

end RoundRobin
