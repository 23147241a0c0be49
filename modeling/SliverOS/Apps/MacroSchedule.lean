import SliverOS.Apps.Typing

/-!
# How long a macro takes

Every event of a macro takes some tasks (`MacroEvent.ticks`): a key is pressed at one and released
at the next one, a delay is waited for, and an event that does nothing is passed over. A file is
read until its end in as many tasks as its events take, and one more (`MacroParser.duration`),
whatever is replied to them.

* `typed_in_time`: after a file was opened, it is read for just so long, and then its reports have
  all been made, and it is closed.
-/

namespace SliverOS

open Streams

/-- The tasks that an event takes. -/
def MacroEvent.ticks (e : MacroEvent) : ℕ :=
  if e.type = .delay then (BleHid.waitTicks e).toNat + 2
  else if (e.type = .stringChar ∨ e.type = .enter ∨ e.type = .key) ∧ e.keycode ≠ 0 then 2
  else 1

/-- The tasks until the end of a file. -/
def MacroParser.duration {σ : Type} [MacroSource σ] (p : MacroParser σ) : ℕ :=
  (p.events.map MacroEvent.ticks).sum + 1

namespace BleHid

variable {σ : Type} {s : BleHid σ}

theorem waitTick_of_pos (h : 0 < s.delayRemainingTicks.toNat) (state : BleAppInternalState) :
    ∃ ticks, s.waitTick state = { s with delayRemainingTicks := ticks } ∧
      ticks.toNat + 1 = s.delayRemainingTicks.toNat := by
  have hpos : 0 < s.delayRemainingTicks := UInt32.lt_iff_toNat_lt.2 h
  have hone : (1 : UInt32) ≤ s.delayRemainingTicks := UInt32.le_iff_toNat_le.2 h
  refine ⟨_, if_pos hpos, ?_⟩
  rw [UInt32.toNat_sub_of_le _ _ hone]
  exact Nat.sub_add_cancel h

/-- What comes of an event at once: a key is pressed, or a wait starts, or it is done. -/
theorem handleMacroEvent_ticks (s : BleHid σ) {e : MacroEvent} (he : e.Written ∨ e.type = .none) :
    (e.ticks = 1 ∧ (s.handleMacroEvent e).2 = s) ∨
      (e.ticks = 2 ∧ (s.handleMacroEvent e).2 = { s with state := .release }) ∨
      (e.ticks = (waitTicks e).toNat + 2 ∧ (s.handleMacroEvent e).2 =
        { s with delayRemainingTicks := waitTicks e, state := .delay }) := by
  rcases he with he | hnone
  · cases he with
    | stringChar c =>
      by_cases hkey : (MacroEvent.stringChar c).keycode = 0
      · refine .inl ⟨?_, ?_⟩
        · rw [MacroEvent.ticks, if_neg nofun, if_neg fun h => h.2 hkey]
        · rw [handleMacroEvent, if_neg (by simp [MacroEvent.stringChar]), if_pos (.inl rfl),
            if_neg (not_not.2 hkey)]
      · refine .inr (.inl ⟨?_, ?_⟩)
        · rw [MacroEvent.ticks, if_neg nofun, if_pos ⟨.inl rfl, hkey⟩]
        · rw [handleMacroEvent, if_neg (by simp [MacroEvent.stringChar]), if_pos (.inl rfl),
            if_pos hkey]
    | delay num => exact .inr (.inr ⟨rfl, rfl⟩)
    | enter => exact .inr (.inl ⟨rfl, rfl⟩)
  · refine .inl ⟨?_, ?_⟩
    · rw [MacroEvent.ticks]
      simp [hnone]
    · rw [handleMacroEvent]
      simp [hnone]

variable [MacroSource σ]

/-- What is replied to the calls of a task. -/
abbrev Reply (σ : Type) := Bool × Except MkStatus (Fin 8 × σ)

/-- Tasks, one after the other. -/
def tasks (replies : List (Reply σ)) : List (Call σ) :=
  replies.map fun r => .bleHidTask r.1 r.2

/-- The application after some tasks. -/
def afterTasks (s : BleHid σ) (replies : List (Reply σ)) : BleHid σ := (tasks replies).foldl next s

variable {replies : List (Reply σ)}

theorem afterTasks_cons (s : BleHid σ) (r : Reply σ) (replies : List (Reply σ)) :
    s.afterTasks (r :: replies) = (s.bleHidTask r.1 r.2).2.afterTasks replies := rfl

theorem afterTasks_append (s : BleHid σ) (replies replies' : List (Reply σ)) :
    s.afterTasks (replies ++ replies') = (s.afterTasks replies).afterTasks replies' := by
  rw [afterTasks, tasks, List.map_append, List.foldl_append]
  rfl

/-! ## Waits -/

theorem bleHidTask_of_state_delay (h : s.state = .delay) (r : Reply σ) :
    (s.bleHidTask r.1 r.2).2 = s.waitTick .parse := by
  simp only [bleHidTask, h]

/-- A wait goes on for its ticks. -/
theorem state_afterTasks_wait (h : s.state = .delay)
    (hlen : replies.length ≤ s.delayRemainingTicks.toNat) :
    (s.afterTasks replies).state = .delay := by
  induction replies generalizing s with
  | nil => exact h
  | cons r replies ih =>
    rw [List.length_cons] at hlen
    have hpos : 0 < s.delayRemainingTicks.toNat := by omega
    obtain ⟨ticks, htick, hticks⟩ := waitTick_of_pos hpos .parse
    rw [afterTasks_cons, bleHidTask_of_state_delay h, htick]
    exact ih h (by simp only; omega)

/-- At the tick after them, it is over. -/
theorem afterTasks_wait (h : s.state = .delay)
    (hlen : replies.length = s.delayRemainingTicks.toNat + 1) :
    s.afterTasks replies = { s with delayRemainingTicks := 0, state := .parse } := by
  induction replies generalizing s with
  | nil => cases hlen
  | cons r replies ih =>
    rw [List.length_cons] at hlen
    rw [afterTasks_cons, bleHidTask_of_state_delay h]
    rcases Nat.eq_zero_or_pos s.delayRemainingTicks.toNat with hzero | hpos
    · obtain rfl : replies = [] := List.length_eq_zero_iff.1 (by omega)
      obtain ⟨state, parser, macroFd, ticks⟩ := s
      obtain rfl : ticks = 0 := UInt32.toNat_inj.1 hzero
      rfl
    · obtain ⟨ticks, htick, hticks⟩ := waitTick_of_pos hpos .parse
      rw [htick]
      exact ih (s := { s with delayRemainingTicks := ticks }) h (by simp only; omega)

/-! ## Events -/

theorem bleHidTask_of_parse (h : s.state = .parse) (r : Reply σ) :
    s.bleHidTask r.1 r.2 = handleMacroEvent { s with parser := s.parser.macroParserNextEvent.2 }
      s.parser.macroParserNextEvent.1 := by
  simp only [bleHidTask, h]

theorem bleHidTask_of_release (h : s.state = .release) (r : Reply σ) :
    (s.bleHidTask r.1 r.2).2 = { s with state := .parse } := by
  simp only [bleHidTask, h]

/-- The application when an event is done: it goes on with the next one. -/
structure Done (s s' : BleHid σ) : Prop where
  state : s'.state = .parse
  parser : s'.parser = s.parser.macroParserNextEvent.2
  macroFd : s'.macroFd = s.macroFd

/-- An event is not at the end of a file. -/
theorem event_cases (p : MacroParser σ) (h : p.macroParserNextEvent.1.type ≠ .eof) :
    p.macroParserNextEvent.1.Written ∨ p.macroParserNextEvent.1.type = .none := by
  obtain ⟨e, p', heq, ⟨heof, -⟩ | ⟨-, hcons, -⟩⟩ := p.macroParserNextEvent_spec
  · rw [heq] at h
    exact absurd heof h
  · rw [heq] at h ⊢
    by_cases hvisible : e.Visible
    · refine .inl (written_of_mem_remaining (p := p) ?_)
      rw [hcons, List.filter_cons_of_pos (by simpa using hvisible)]
      exact .head _
    · exact .inr (not_not.1 fun hne => hvisible ⟨h, hne⟩)

/-- An event takes its ticks. -/
theorem afterTasks_event (hstate : s.state = .parse)
    (hevent : s.parser.macroParserNextEvent.1.type ≠ .eof) (replies : List (Reply σ)) :
    (replies.length < s.parser.macroParserNextEvent.1.ticks →
      (s.afterTasks replies).state.Reading) ∧
    (replies.length = s.parser.macroParserNextEvent.1.ticks → Done s (s.afterTasks replies)) := by
  cases replies with
  | nil =>
    refine ⟨fun _ => .inl hstate, fun h => ?_⟩
    rw [List.length_nil, MacroEvent.ticks] at h
    split_ifs at h
  | cons r replies =>
    rw [afterTasks_cons, bleHidTask_of_parse hstate, List.length_cons]
    rcases handleMacroEvent_ticks { s with parser := s.parser.macroParserNextEvent.2 }
      (event_cases s.parser hevent) with ⟨hticks, heq⟩ | ⟨hticks, heq⟩ | ⟨hticks, heq⟩
    · rw [hticks, heq]
      refine ⟨fun h => by omega, fun h => ?_⟩
      rw [List.length_eq_zero_iff.1 (Nat.succ_injective h)]
      exact ⟨hstate, rfl, rfl⟩
    · rw [hticks, heq]
      constructor
      · intro h
        obtain rfl : replies = [] := List.length_eq_zero_iff.1 (by omega)
        exact .inr (.inl rfl)
      · intro h
        obtain ⟨r', rfl⟩ := List.length_eq_one_iff.1 (by omega : replies.length = 1)
        rw [afterTasks_cons, bleHidTask_of_release rfl]
        exact ⟨rfl, rfl, rfl⟩
    · rw [hticks, heq]
      constructor
      · intro h
        exact .inr (.inr (state_afterTasks_wait rfl (by simp only; omega)))
      · intro h
        rw [afterTasks_wait rfl (by simp only; omega)]
        exact ⟨rfl, rfl, rfl⟩

/-! ## Files -/

theorem duration_of_eof {p : MacroParser σ} (h : p.macroParserNextEvent.1.type = .eof) :
    p.duration = 1 := by
  rw [MacroParser.duration, MacroParser.events, dif_pos h]
  rfl

theorem duration_of_event {p : MacroParser σ} (h : p.macroParserNextEvent.1.type ≠ .eof) :
    p.duration = p.macroParserNextEvent.1.ticks + p.macroParserNextEvent.2.duration := by
  rw [MacroParser.duration, MacroParser.events, dif_neg h, List.map_cons, List.sum_cons,
    Nat.add_assoc]
  rfl

/-- The end of a file takes one task, at which it is closed. -/
theorem afterTasks_eof (hstate : s.state = .parse)
    (heof : s.parser.macroParserNextEvent.1.type = .eof) (hfd : 0 ≤ s.macroFd) (r : Reply σ) :
    (s.bleHidTask r.1 r.2).2.state = .cooldown ∧ (s.bleHidTask r.1 r.2).2.macroFd = -1 := by
  rw [bleHidTask_of_parse hstate, handleMacroEvent, if_pos (.inl heof), closeFile, if_pos hfd]
  exact ⟨rfl, rfl⟩

/-- A file is read for as long as its events take, and closed then. -/
theorem afterTasks_file (hstate : s.state = .parse) (hfd : 0 ≤ s.macroFd) :
    (replies.length < s.parser.duration → (s.afterTasks replies).state.Reading) ∧
    (replies.length = s.parser.duration →
      (s.afterTasks replies).state = .cooldown ∧ (s.afterTasks replies).macroFd = -1) := by
  -- By induction on the events of the file.
  induction hp : s.parser using MacroParser.events.induct generalizing s replies with
  | case1 p heof =>
    subst hp
    rw [duration_of_eof heof]
    constructor
    · intro hlen
      obtain rfl : replies = [] := List.length_eq_zero_iff.1 (by omega)
      exact .inl hstate
    · intro hlen
      obtain ⟨r, rfl⟩ := List.length_eq_one_iff.1 hlen
      exact afterTasks_eof hstate heof hfd r
  | case2 p hevent ih =>
    subst hp
    rw [duration_of_event hevent]
    set ticks := s.parser.macroParserNextEvent.1.ticks with hticks
    rcases Nat.lt_or_ge replies.length ticks with hlt | hge
    · exact ⟨fun _ => (afterTasks_event hstate hevent replies).1 hlt, fun heq => by
        rw [MacroParser.duration] at heq
        omega⟩
    · -- The event is done at first, and the file goes on from the next one.
      have htake : (replies.take ticks).length = ticks := List.length_take_of_le hge
      obtain ⟨hstate', hparser', hfd'⟩ :=
        (afterTasks_event hstate hevent (replies.take ticks)).2 htake
      have hrest := @ih _ (replies.drop ticks) hstate' (hfd'.symm ▸ hfd) hparser'
      rw [← afterTasks_append, List.take_append_drop, List.length_drop] at hrest
      exact ⟨fun hlt => hrest.1 (by omega), fun heq => hrest.2 (by omega)⟩

/-- The events of a file are at most as many as its characters. -/
theorem length_events_le (p : MacroParser σ) :
    p.events.length ≤ p.pending.length + p.rest.length := by
  induction p using MacroParser.events.induct with
  | case1 p heof =>
    rw [MacroParser.events, dif_pos heof]
    exact Nat.zero_le _
  | case2 p hevent ih =>
    rw [MacroParser.events, dif_neg hevent, List.length_cons]
    obtain ⟨e, p', heq, ⟨heof, -⟩ | ⟨-, -, hlt⟩⟩ := p.macroParserNextEvent_spec
    · rw [heq] at hevent
      exact absurd heof hevent
    · rw [heq] at ih ⊢
      exact Nat.le_trans (Nat.succ_le_succ ih) hlt

/-- The ticks that are waited for in a macro. -/
def waits (es : List MacroEvent) : ℕ :=
  (es.map fun e => if e.type = .delay then (waitTicks e).toNat else 0).sum

theorem sum_ticks_le (es : List MacroEvent) :
    (es.map MacroEvent.ticks).sum ≤ 2 * es.length + waits es := by
  induction es with
  | nil => exact Nat.zero_le _
  | cons e es ih =>
    have he : e.ticks ≤ 2 + if e.type = .delay then (waitTicks e).toNat else 0 := by
      rw [MacroEvent.ticks]
      split_ifs <;> omega
    rw [waits, List.map_cons, List.sum_cons, List.map_cons, List.sum_cons, List.length_cons]
    rw [waits] at ih
    omega

/-- Nothing is waited for in an event that does nothing. -/
theorem waits_filter (es : List MacroEvent) : waits (es.filter (·.Visible)) = waits es := by
  induction es with
  | nil => rfl
  | cons e es ih =>
    by_cases hvisible : e.Visible
    · rw [List.filter_cons_of_pos (by simpa using hvisible), waits, waits, List.map_cons,
        List.map_cons, List.sum_cons, List.sum_cons]
      exact congrArg _ ih
    · have hdelay : e.type ≠ .delay := fun h => hvisible (visible_of_delay h)
      rw [List.filter_cons_of_neg (by simpa using hvisible), ih, waits, waits, List.map_cons,
        List.sum_cons, if_neg hdelay, Nat.zero_add]

/-- A file takes at most two tasks for each of its characters, and what its delays take. -/
theorem duration_le (file : σ) : (macroParserInit file).duration ≤
    2 * (MacroSource.rest file).length + waits (macroEvents (MacroSource.rest file)) + 1 := by
  have hevents := length_events_le (macroParserInit file)
  have hticks := sum_ticks_le (macroParserInit file).events
  have hwaits := waits_filter (macroParserInit file).events
  have hpending : (macroParserInit file).pending = [] := rfl
  have hrest : (macroParserInit file).rest = MacroSource.rest file := rfl
  have hemitted : (macroParserInit file).events.filter (·.Visible) =
      macroEvents (MacroSource.rest file) := emitted_eq file
  rw [hpending, List.length_nil, Nat.zero_add, hrest] at hevents
  rw [hemitted] at hwaits
  rw [MacroParser.duration, hwaits]
  omega

/-- As long as a file is read, its reports are those made and those still to come. -/
theorem stream_tasks (h : ∀ before r, before ++ [r] <+: replies →
    (s.afterTasks before).state.Reading) :
    stream s (tasks replies) ++ (s.afterTasks replies).toType = s.toType := by
  induction replies using List.reverseRecOn with
  | nil => rfl
  | append_singleton replies r ih =>
    have hbefore := ih fun before r' hpre => h before r' (hpre.trans (List.prefix_append _ _))
    have hreading := h replies r (List.prefix_refl _)
    have htasks : tasks (replies ++ [r]) = tasks replies ++ [.bleHidTask r.1 r.2] := by
      rw [tasks, List.map_append]
      rfl
    rw [htasks, stream_concat, afterTasks_append, ← hbefore, List.append_assoc]
    congr 1
    cases types_next (s.afterTasks replies) (.bleHidTask r.1 r.2) with
    | types _ _ hreports => exact hreports
    | opens _ hidle => exact absurd hreading hidle
    | idle _ _ _ hends => exact (hends hreading).elim

/-- A file that was opened is read for as long as its events take, whatever is replied to the tasks,
    which is bounded; then its reports have all been made, and it is closed. -/
theorem typed_in_time (s : BleHid σ) (hstate : s.state = .openFile) (connected : Bool) (fd : Fin 8)
    (file : σ) (replies : List (Reply σ)) :
    (replies.length < (macroParserInit file).duration →
      (s.afterTasks ((connected, .ok (fd, file)) :: replies)).state.Reading) ∧
    (replies.length = (macroParserInit file).duration →
      (s.afterTasks ((connected, .ok (fd, file)) :: replies)).state = .cooldown ∧
      (s.afterTasks ((connected, .ok (fd, file)) :: replies)).macroFd = -1 ∧
      stream s (tasks ((connected, .ok (fd, file)) :: replies)) =
        typed (MacroSource.rest file)) ∧
    (macroParserInit file).duration ≤
      2 * (MacroSource.rest file).length + waits (macroEvents (MacroSource.rest file)) + 1 := by
  have hopen : s.bleHidTask connected (.ok (fd, file)) = ([openMacro], { s with
      macroFd := (fd : ℕ)
      parser := macroParserInit file
      state := .parse }) := by
    simp only [bleHidTask, hstate]
  rw [afterTasks_cons, hopen]
  set s' : BleHid σ := { s with
    macroFd := (fd : ℕ)
    parser := macroParserInit file
    state := .parse }
  have hfd : 0 ≤ s'.macroFd := Int.natCast_nonneg _
  refine ⟨(afterTasks_file rfl hfd).1, fun hlen => ?_, duration_le file⟩
  obtain ⟨hcool, hclosed⟩ := (afterTasks_file (s := s') rfl hfd).2 hlen
  have hreading : ∀ before r, before ++ [r] <+: replies → (s'.afterTasks before).state.Reading := by
    intro before r hpre
    have hle := hpre.length_le
    rw [List.length_append, List.length_singleton, hlen] at hle
    exact (afterTasks_file rfl hfd).1 hle
  have hreports := stream_tasks hreading
  rw [toType_of_not_reading (hcool ▸ not_reading_cooldown), List.append_nil] at hreports
  refine ⟨hcool, hclosed, ?_⟩
  have hstream : stream s (tasks ((connected, .ok (fd, file)) :: replies)) =
      stream s' (tasks replies) := by
    rw [tasks, List.map_cons, stream, collect, reports, exec, next, exec, hopen]
    rfl
  rw [hstream, hreports]
  rfl

/-- The replies to the tasks of a macro that presses Enter. -/
def enterReplies : List (Reply (List UInt8)) :=
  List.replicate (macroParserInit enterLine).duration (true, .error .notFound)

theorem typed_in_time_enter :
    (afterTasks ⟨.openFile, macroParserInit enterLine, -1, 0⟩
      ((true, .ok (0, enterLine)) :: enterReplies)).state = .cooldown ∧
    (afterTasks ⟨.openFile, macroParserInit enterLine, -1, 0⟩
      ((true, .ok (0, enterLine)) :: enterReplies)).macroFd = -1 ∧
    stream ⟨.openFile, macroParserInit enterLine, -1, 0⟩
      (tasks ((true, .ok (0, enterLine)) :: enterReplies)) = typed enterLine :=
  (typed_in_time ⟨.openFile, macroParserInit enterLine, -1, 0⟩ rfl true 0 enterLine
    enterReplies).2.1 List.length_replicate

end BleHid

end SliverOS
