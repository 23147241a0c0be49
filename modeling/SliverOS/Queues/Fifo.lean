import SliverOS.Streams.Transducer

/-!
# Bounded queues

A queue of some capacity is asked to take an item in, to give the first one out,
or to show it (`Request`). When it is full, it rejects the item (`fifo`), or loses
its first one to make room (`dropOldest`). A run is observed by its requests, each
with the answer.

* `accepted_eq`: of a queue that rejects, the items taken in are those given out,
  followed by those still in it.
* `dropOldest_full_iff`: it makes no difference what a full queue does only if all that is
  in it is the item that comes.
-/

namespace Queues

open Streams

/-- What is asked of a queue. -/
inductive Request (α : Type*)
  | post (x : α)
  | pop
  | peek

/-- What a queue answers. -/
inductive Reply (α : Type*)
  | accepted
  | full
  | item (x : α)
  | empty

/-- A request, and the answer to it. -/
abbrev Exchange (α : Type*) := Request α × Reply α

variable {α : Type*}

/-- The answer with the first item of a queue. -/
def first : List α → Reply α
  | [] => .empty
  | x :: _ => .item x

/-- A queue that rejects what comes when it is full. -/
def fifo (capacity : ℕ) : Transducer (List α) (Request α) (Exchange α)
  | q, .post x =>
    if q.length < capacity then (q ++ [x], some (.post x, .accepted))
    else (q, some (.post x, .full))
  | q, .pop => (q.tail, some (.pop, first q))
  | q, .peek => (q, some (.peek, first q))

/-- A queue that loses its first item when another one comes and it is full. -/
def dropOldest (capacity : ℕ) : Transducer (List α) (Request α) (Exchange α)
  | q, .post x =>
    if q.length < capacity then (q ++ [x], some (.post x, .accepted))
    else (q.tail ++ [x], some (.post x, .accepted))
  | q, .pop => (q.tail, some (.pop, first q))
  | q, .peek => (q, some (.peek, first q))

/-! ## What is observed -/

/-- The item that an exchange takes in. -/
def takenIn? : Exchange α → Option α
  | (.post x, .accepted) => some x
  | _ => none

/-- The item that an exchange gives out. -/
def givenOut? : Exchange α → Option α
  | (.pop, .item x) => some x
  | _ => none

/-- The items taken in. -/
def accepted (es : List (Exchange α)) : List α := es.filterMap takenIn?

/-- The items given out. -/
def popped (es : List (Exchange α)) : List α := es.filterMap givenOut?

/-- The number of items rejected. -/
def rejections (es : List (Exchange α)) : ℕ :=
  es.countP fun e => e matches (.post _, .full)

variable {capacity : ℕ} {q : List α} {reqs : List (Request α)}

theorem length_fifo_le (h : q.length ≤ capacity) (r : Request α) :
    (fifo capacity q r).1.length ≤ capacity := by
  cases r with
  | post x =>
    rw [fifo]
    split_ifs with hroom
    · simpa using hroom
    · exact h
  | pop => exact (List.length_tail ▸ Nat.sub_le _ _).trans h
  | peek => exact h

/-- A queue never has more items than its capacity. -/
theorem length_state_fifo_le (h : q.length ≤ capacity) (reqs : List (Request α)) :
    ((fifo capacity).state q reqs).length ≤ capacity :=
  (fifo capacity).state_induction (P := fun q => q.length ≤ capacity)
    (fun _ r hq => length_fifo_le hq r) h reqs

/-- One request: what was in the queue and is taken in is given out or still in it. -/
theorem accepted_fifo (capacity : ℕ) (q : List α) (r : Request α) :
    q ++ accepted (fifo capacity q r).2.toList =
      popped (fifo capacity q r).2.toList ++ (fifo capacity q r).1 := by
  cases r with
  | post x =>
    rw [fifo]
    split_ifs with hroom
    · rfl
    · exact List.append_nil q
  | pop =>
    cases q with
    | nil => rfl
    | cons x q => exact List.append_nil (x :: q)
  | peek =>
    cases q with
    | nil => rfl
    | cons x q => exact List.append_nil (x :: q)

/-- The items taken in come out in order, each of them once, or are still in the queue. -/
theorem accepted_eq (capacity : ℕ) (q : List α) (reqs : List (Request α)) :
    q ++ accepted ((fifo capacity).outputs q reqs) =
      popped ((fifo capacity).outputs q reqs) ++ (fifo capacity).state q reqs := by
  induction reqs generalizing q with
  | nil => exact List.append_nil q
  | cons r reqs ih =>
    have hstep := accepted_fifo capacity q r
    simp only [accepted, popped] at hstep ih ⊢
    rw [Transducer.outputs_cons, Transducer.state_cons, List.filterMap_append,
      List.filterMap_append, ← List.append_assoc, hstep, List.append_assoc, ih, List.append_assoc]

/-! ## Room for what comes -/

/-- With room for what comes, it does not matter what a full queue does. -/
theorem dropOldest_eq {r : Request α} (h : ∀ x, r = .post x → q.length < capacity) :
    dropOldest capacity q r = fifo capacity q r := by
  cases r with
  | post x => rw [dropOldest, fifo, if_pos (h x rfl), if_pos (h x rfl)]
  | pop => rfl
  | peek => rfl

theorem append_eq_cons_iff {x y : α} : q ++ [x] = y :: q ↔ ∀ z ∈ y :: q, z = x := by
  induction q generalizing y with
  | nil => simp [eq_comm]
  | cons z q ih =>
    rw [List.cons_append, List.cons.injEq, ih, List.forall_mem_cons, List.forall_mem_cons,
      List.forall_mem_cons]
    constructor
    · rintro ⟨rfl, hz, hq⟩
      exact ⟨hz, hz, hq⟩
    · rintro ⟨rfl, hz, hq⟩
      exact ⟨hz, hz, hq⟩

/-- It makes no difference what a full queue does when all of its items are the one
    that comes. -/
theorem dropOldest_full_iff (hfull : ¬q.length < capacity) (hq : q ≠ []) (x : α) :
    (dropOldest capacity q (.post x)).1 = (fifo capacity q (.post x)).1 ↔ ∀ y ∈ q, y = x := by
  rw [dropOldest, fifo, if_neg hfull, if_neg hfull]
  cases q with
  | nil => exact absurd rfl hq
  | cons y q => exact append_eq_cons_iff

end Queues
