import SliverOS.Kernel.FaultManager

/-!
# The event bus

`os/kernel/event_bus.c`: a ring of `MK_EVENT_QUEUE_SIZE` events, with statistics.
An event that comes when the ring is full is rejected, and a fault is recorded.
Pointers passed are not `NULL`, and a function with an output returns it when its
status is `MK_STATUS_OK`.

The bus is a queue that rejects what comes when it is full (`refines_fifo`): each
call is answered as by the queue, and the statistics and the faults recorded are
those of the calls answered so (`Serves`).
-/

namespace SliverOS

open Queues Streams

/-- `mk_event_type_t`. -/
inductive MkEventType
  | none
  | timer
  | gpio
  | wifiFrame
  | bleConnected
  | bleDisconnected
  | vfs
  | network
  | display
  | fault
  deriving DecidableEq

/-- The number of a type of events. -/
def MkEventType.toUInt32 : MkEventType → UInt32
  | none => 0
  | timer => 1
  | gpio => 2
  | wifiFrame => 3
  | bleConnected => 4
  | bleDisconnected => 5
  | vfs => 6
  | network => 7
  | display => 8
  | fault => 9

/-- `mk_event_t`, its payload a pointer. -/
structure MkEvent where
  type : MkEventType
  timestampUs : UInt32
  sourceId : UInt32
  param1 : UInt32
  param2 : UInt32
  payload : ℕ
  deriving DecidableEq

/-- An event of zeros. -/
def MkEvent.zero : MkEvent := ⟨.none, 0, 0, 0, 0, 0⟩

/-- `mk_event_bus_stats_t`. -/
structure MkEventBusStats where
  totalEventsPosted : UInt32
  totalEventsDispatched : UInt32
  queueOverflows : UInt32
  currentDepth : UInt32
  deriving DecidableEq

/-- There are places in the queue. -/
instance neZeroMkEventQueueSize : NeZero 64 := ⟨by decide⟩

/-- The static variables of the event bus, and the fault manager. -/
structure EventBus where
  queue : Fin 64 → MkEvent
  head : Fin 64
  tail : Fin 64
  count : UInt32
  stats : MkEventBusStats
  initialized : Bool
  faults : FaultManager

namespace EventBus

variable (clock : UInt32 → UInt32)

/-- `mk_event_bus_init`. -/
def mkEventBusInit (b : EventBus) : EventBus where
  queue := fun _ => .zero
  head := 0
  tail := 0
  count := 0
  stats := ⟨0, 0, 0, 0⟩
  initialized := true
  faults := b.faults

/-- The end of `mk_event_bus_post` when the ring is full. -/
def reject (b : EventBus) (event : MkEvent) : EventBus :=
  { b with
    stats := { b.stats with queueOverflows := b.stats.queueOverflows + 1 }
    faults := b.faults.mkFaultRecordFull clock .appError MkFaultSource.system.toUInt32 .warning
      0xEE000001 event.type.toUInt32 }

/-- `mk_event_bus_post`. -/
def mkEventBusPost (b : EventBus) (event : MkEvent) : MkStatus × EventBus :=
  let b := if b.initialized then b else b.mkEventBusInit
  if 64 ≤ b.count then (.queueFull, b.reject clock event)
  else
    let b := { b with
      queue := Function.update b.queue b.head event
      head := b.head + 1
      count := b.count + 1 }
    (.ok, { b with stats := { b.stats with
      totalEventsPosted := b.stats.totalEventsPosted + 1
      currentDepth := b.count } })

/-- `mk_event_bus_pop`. -/
def mkEventBusPop (b : EventBus) : Except MkStatus MkEvent × EventBus :=
  if !b.initialized ∨ b.count = 0 then (.error .queueEmpty, b)
  else
    let event := b.queue b.tail
    let b := { b with
      tail := b.tail + 1
      count := b.count - 1 }
    (.ok event, { b with stats := { b.stats with
      totalEventsDispatched := b.stats.totalEventsDispatched + 1
      currentDepth := b.count } })

/-- `mk_event_bus_peek`. -/
def mkEventBusPeek (b : EventBus) : Except MkStatus MkEvent :=
  if !b.initialized ∨ b.count = 0 then .error .queueEmpty else .ok (b.queue b.tail)

/-- `mk_event_bus_pending_count`. -/
def mkEventBusPendingCount (b : EventBus) : UInt32 := b.count

/-! ## Runs -/

/-- What a call returns: the event, if it has one, or the status. -/
abbrev Result := Except MkStatus (Option MkEvent)

/-- What the calls return for the answers of a queue. -/
def answered (e : Exchange MkEvent) : Request MkEvent × Result :=
  (e.1, match e.2 with
    | .accepted => .ok none
    | .full => .error .queueFull
    | .item event => .ok (some event)
    | .empty => .error .queueEmpty)

/-- A call, and what it returns. -/
def exec : Transducer EventBus (Request MkEvent) (Request MkEvent × Result)
  | b, .post event =>
    let (status, b) := b.mkEventBusPost clock event
    (b, some (.post event, if status = .ok then .ok none else .error status))
  | b, .pop =>
    let (result, b) := b.mkEventBusPop
    (b, some (.pop, result.map some))
  | b, .peek => (b, some (.peek, b.mkEventBusPeek.map some))

/-- The fault recorded for an event that is rejected. -/
def overflow? : Exchange MkEvent → Option FaultManager.Call
  | (.post event, .full) => some (.mkFaultRecordFull .appError MkFaultSource.system.toUInt32
      .warning 0xEE000001 event.type.toUInt32)
  | _ => none

/-- The ring of the bus. -/
def ring (b : EventBus) : Ring 64 MkEvent := ⟨b.queue, b.head, b.tail, b.count.toNat⟩

/-- The bus, of which the faults were `faults` at first, has the events of a queue
    after some exchanges. -/
structure Serves (faults : FaultManager) (es : List (Exchange MkEvent)) (b : EventBus)
    (q : List MkEvent) : Prop where
  initialized : b.initialized = true
  represents : b.ring.Represents q
  overflows : b.stats.queueOverflows = UInt32.ofNat (rejections es)
  faults : b.faults = faults.run clock (es.filterMap overflow?)
  pending : b.stats.totalEventsPosted - b.stats.totalEventsDispatched = b.count

variable {clock} {b : EventBus} {q : List MkEvent} {es : List (Exchange MkEvent)}
  {faults : FaultManager}

theorem serves_mkEventBusInit (b : EventBus) : Serves clock b.faults [] b.mkEventBusInit [] where
  initialized := rfl
  represents := ⟨⟨Nat.zero_le _, rfl⟩, rfl⟩
  overflows := rfl
  faults := rfl
  pending := sub_self 0

theorem le_count_iff : 64 ≤ b.count ↔ ¬b.ring.count < 64 :=
  UInt32.le_iff_toNat_le.trans Nat.not_lt.symm

theorem count_eq_zero_iff : b.count = 0 ↔ b.ring.count = 0 :=
  UInt32.toNat_inj.symm

/-- The numbers of rejections and the faults of some exchanges and one more. -/
theorem rejections_concat (es : List (Exchange MkEvent)) (e : Exchange MkEvent) :
    rejections (es ++ [e]) = rejections es + rejections [e] :=
  List.countP_append

theorem Serves.quiet (h : Serves clock faults es b q) {e : Exchange MkEvent}
    (hreject : rejections [e] = 0) (hfault : overflow? e = none) :
    b.stats.queueOverflows = UInt32.ofNat (rejections (es ++ [e])) ∧
      b.faults = faults.run clock ((es ++ [e]).filterMap overflow?) := by
  rw [rejections_concat, hreject, Nat.add_zero, List.filterMap_append, List.filterMap_cons, hfault]
  exact ⟨h.overflows, by rw [List.filterMap_nil, List.append_nil]; exact h.faults⟩

theorem Serves.post (h : Serves clock faults es b q) (event : MkEvent) :
    Serves clock faults (es ++ (fifo 64 q (.post event)).2.toList) (exec clock b (.post event)).1
        (fifo 64 q (.post event)).1 ∧
      (exec clock b (.post event)).2 = (fifo 64 q (.post event)).2.map answered := by
  obtain ⟨hring, hanswer⟩ := h.represents.step (.post event)
  rw [← hanswer]
  rw [Ring.queue] at hring ⊢
  simp only [exec, mkEventBusPost, h.initialized, if_true, le_count_iff]
  by_cases hroom : b.ring.count < 64
  · -- There is room: the ring has the event, and the statistics count it.
    rw [if_pos hroom] at hring ⊢
    rw [if_neg (not_not.2 hroom)]
    obtain ⟨hoverflows, hfaults⟩ := h.quiet (e := (.post event, .accepted)) rfl rfl
    refine ⟨⟨rfl, ?_, hoverflows, hfaults, ?_⟩, rfl⟩
    · rw [EventBus.ring, toNat_add_one (Nat.lt_of_lt_of_le hroom (by decide))]
      exact hring
    · change b.stats.totalEventsPosted + 1 - b.stats.totalEventsDispatched = b.count + 1
      rw [← h.pending, add_sub_right_comm]
  · -- The ring is left as it is, and the rejection is counted and reported.
    rw [if_neg hroom] at hring ⊢
    rw [if_pos hroom]
    refine ⟨⟨h.initialized, hring, ?_, ?_, h.pending⟩, rfl⟩
    · rw [Option.toList_some, rejections_concat, UInt32.ofNat_add, ← h.overflows]
      rfl
    · rw [Option.toList_some, List.filterMap_append, FaultManager.run, List.foldl_append]
      exact congrArg (FaultManager.exec clock · (.mkFaultRecordFull _ _ _ _ _)) h.faults

theorem Serves.pop (h : Serves clock faults es b q) :
    Serves clock faults (es ++ (fifo 64 q .pop).2.toList) (exec clock b .pop).1
        (fifo 64 q .pop).1 ∧
      (exec clock b .pop).2 = (fifo 64 q .pop).2.map answered := by
  obtain ⟨hring, hanswer⟩ := h.represents.step .pop
  rw [← hanswer]
  rw [Ring.queue] at hring ⊢
  simp only [exec, mkEventBusPop, h.initialized, Bool.not_true, Bool.false_eq_true, false_or,
    count_eq_zero_iff]
  by_cases hzero : b.ring.count = 0
  · rw [if_pos hzero] at hring ⊢
    rw [if_pos hzero]
    obtain ⟨hoverflows, hfaults⟩ := h.quiet (e := (.pop, .empty)) rfl rfl
    exact ⟨⟨h.initialized, hring, hoverflows, hfaults, h.pending⟩, rfl⟩
  · rw [if_neg hzero] at hring ⊢
    rw [if_neg hzero]
    obtain ⟨hoverflows, hfaults⟩ := h.quiet (e := (.pop, .item (b.queue b.tail))) rfl rfl
    refine ⟨⟨rfl, ?_, hoverflows, hfaults, ?_⟩, rfl⟩
    · rw [EventBus.ring, toNat_sub_one hzero]
      exact hring
    · change b.stats.totalEventsPosted - (b.stats.totalEventsDispatched + 1) = b.count - 1
      rw [← h.pending, sub_add_eq_sub_sub]

theorem Serves.peek (h : Serves clock faults es b q) :
    Serves clock faults (es ++ (fifo 64 q .peek).2.toList) (exec clock b .peek).1
        (fifo 64 q .peek).1 ∧
      (exec clock b .peek).2 = (fifo 64 q .peek).2.map answered := by
  obtain ⟨hring, hanswer⟩ := h.represents.step .peek
  rw [← hanswer]
  rw [Ring.queue] at hring ⊢
  simp only [exec, mkEventBusPeek, h.initialized, Bool.not_true, Bool.false_eq_true, false_or,
    count_eq_zero_iff]
  by_cases hzero : b.ring.count = 0
  · rw [if_pos hzero, if_pos hzero]
    obtain ⟨hoverflows, hfaults⟩ := h.quiet (e := (.peek, .empty)) rfl rfl
    exact ⟨⟨h.initialized, hring, hoverflows, hfaults, h.pending⟩, rfl⟩
  · rw [if_neg hzero, if_neg hzero]
    obtain ⟨hoverflows, hfaults⟩ := h.quiet (e := (.peek, .item (b.queue b.tail))) rfl rfl
    exact ⟨⟨h.initialized, hring, hoverflows, hfaults, h.pending⟩, rfl⟩

/-- One call is answered as by the queue. -/
theorem Serves.step (h : Serves clock faults es b q) (req : Request MkEvent) :
    Serves clock faults (es ++ (fifo 64 q req).2.toList) (exec clock b req).1 (fifo 64 q req).1 ∧
      (exec clock b req).2 = (fifo 64 q req).2.map answered := by
  cases req with
  | post event => exact h.post event
  | pop => exact h.pop
  | peek => exact h.peek

/-- So are all calls of a run. -/
theorem Serves.run (h : Serves clock faults es b q) (reqs : List (Request MkEvent)) :
    Serves clock faults (es ++ (fifo 64).outputs q reqs) ((exec clock).state b reqs)
        ((fifo 64).state q reqs) ∧
      (exec clock).outputs b reqs = ((fifo 64).outputs q reqs).map answered := by
  induction reqs generalizing b q es with
  | nil => exact ⟨by simpa using h, rfl⟩
  | cons req reqs ih =>
    obtain ⟨hstep, hanswer⟩ := h.step req
    obtain ⟨hrun, houtputs⟩ := ih hstep
    refine ⟨?_, ?_⟩
    · rw [Transducer.outputs_cons, ← List.append_assoc]
      exact hrun
    · rw [Transducer.outputs_cons, houtputs, hanswer, Transducer.outputs_cons, List.map_append,
        Option.toList_map]

/-- An event that comes when there are 64 is rejected: all that changes is the number
    of overflows, by one, and the faults, by one. -/
theorem Serves.mkEventBusPost_of_full (h : Serves clock faults es b q) (hfull : q.length = 64)
    (event : MkEvent) : b.mkEventBusPost clock event = (.queueFull, b.reject clock event) := by
  have hcount : 64 ≤ b.count := le_count_iff.2 (by rw [← h.represents.length_eq, hfull]; decide)
  simp only [mkEventBusPost, h.initialized, if_true, if_pos hcount]

/-- From the initialisation on, the bus returns what a queue of capacity 64 that rejects
    what comes when it is full answers, and has the events of the queue: those accepted
    are those given out, in order, followed by those pending. For each event rejected
    there is an overflow and a fault. Showing the next event changes nothing. -/
theorem refines_fifo (clock : UInt32 → UInt32) (b : EventBus) (reqs : List (Request MkEvent)) :
    ∃ s q es, (exec clock).state b.mkEventBusInit reqs = s ∧ (fifo 64).state [] reqs = q ∧
      (fifo 64).outputs [] reqs = es ∧
      (exec clock).outputs b.mkEventBusInit reqs = es.map answered ∧
      s.ring.contents = q ∧ q.length ≤ 64 ∧ accepted es = popped es ++ q ∧
      s.stats.queueOverflows = UInt32.ofNat (rejections es) ∧
      s.faults = b.faults.run clock (es.filterMap overflow?) ∧
      s.stats.totalEventsPosted - s.stats.totalEventsDispatched = s.mkEventBusPendingCount ∧
      s.mkEventBusPendingCount.toNat = q.length ∧ (exec clock s .peek).1 = s ∧
      (q.length = 64 → ∀ event,
        s.mkEventBusPost clock event = (.queueFull, s.reject clock event)) := by
  have hinit : Serves clock b.faults [] b.mkEventBusInit [] := serves_mkEventBusInit b
  obtain ⟨h, houtputs⟩ := hinit.run reqs
  exact ⟨_, _, _, rfl, rfl, rfl, houtputs, h.represents.2,
    length_state_fifo_le (Nat.zero_le _) reqs, accepted_eq 64 [] reqs, h.overflows, h.faults,
    h.pending, h.represents.length_eq.symm, rfl, h.mkEventBusPost_of_full⟩

end EventBus

end SliverOS
