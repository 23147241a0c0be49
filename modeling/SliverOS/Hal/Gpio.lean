import SliverOS.Kernel.Types
import SliverOS.Streams.Run

/-!
# Debounced inputs

`os/hal/hal_gpio.c`: for each pin, the level that is returned, the latest raw one, and the time at
which the raw level became this one. What `hal_gpio_read` and `hal_timer_get_us` give in a read is
given with it.

The time kept is that of the first of the latest samples with one level, or zero when the level has
been the one of `hal_gpio_init` ever since (`History`). This is all that a read looks at, so that

* `HalGpio.debounced`: a read of a pin gives another level than the one before it only when the new
  level has been that of the latest samples of this pin for as long as asked for, and always when
  it has; whatever is read from the other pins meanwhile.
-/

namespace SliverOS

open Streams

/-! ## The code -/

/-- `debounce_state_t`. -/
structure DebounceState where
  lastStableLevel : UInt8
  lastRawLevel : UInt8
  lastChangeTimeUs : UInt64

/-- The static variables. -/
structure HalGpio where
  debounceTbl : Fin 32 → DebounceState
  gpioInitialized : Bool

/-- `hal_gpio_init`, the configuration of the pins apart. -/
def halGpioInit : MkStatus × HalGpio := (.ok, ⟨fun _ => ⟨1, 1, 0⟩, true⟩)

/-- What `hal_gpio_read_debounced` does to the state of a pin. -/
def DebounceState.sample (st : DebounceState) (debounceMs : UInt32) (raw : UInt8)
    (nowUs : UInt64) : DebounceState :=
  let st := if raw ≠ st.lastRawLevel then
      { st with lastRawLevel := raw, lastChangeTimeUs := nowUs }
    else st
  if debounceMs.toUInt64 * 1000 ≤ nowUs - st.lastChangeTimeUs then
    { st with lastStableLevel := raw }
  else st

/-- `hal_gpio_read_debounced`, with the level and the time read in it. -/
def halGpioReadDebounced (g : HalGpio) (pin debounceMs : UInt32) (raw : UInt8) (nowUs : UInt64) :
    UInt8 × HalGpio :=
  let g := if g.gpioInitialized then g else halGpioInit.2
  if h : pin.toNat < 32 then
    let st := (g.debounceTbl ⟨pin.toNat, h⟩).sample debounceMs raw nowUs
    (st.lastStableLevel,
      { g with debounceTbl := Function.update g.debounceTbl ⟨pin.toNat, h⟩ st })
  else (raw, g)

/-! ## Runs -/

/-- A read of a pin, with the level and the time read in it: a sample. -/
structure GpioRead where
  pin : UInt32
  debounceMs : UInt32
  raw : UInt8
  nowUs : UInt64

namespace HalGpio

/-- The samples of a pin, among those of all of them. -/
def samples (pin : UInt32) (reads : List GpioRead) : List GpioRead :=
  reads.filter (·.pin = pin)

/-- The level is `v` in the latest samples, for `debounceMs` milliseconds at least. -/
def Held (v : UInt8) (debounceMs : UInt32) (samples : List GpioRead) : Prop :=
  ∃ first span last, first :: span <:+ samples ∧ last ∈ (first :: span).getLast? ∧
    (∀ s ∈ first :: span, s.raw = v) ∧
    first.nowUs.toNat + 1000 * debounceMs.toNat ≤ last.nowUs.toNat

/-- A read. -/
def read (g : HalGpio) (r : GpioRead) : UInt8 × HalGpio :=
  halGpioReadDebounced g r.pin r.debounceMs r.raw r.nowUs

/-- The state after reads. -/
def run (g : HalGpio) (reads : List GpioRead) : HalGpio := reads.foldl (fun g r => (g.read r).2) g

/-- The levels returned for a pin, in order. -/
def returned (pin : UInt32) (g : HalGpio) (reads : List GpioRead) : List UInt8 :=
  collect (fun g r => (read g r).2) (fun g r => if r.pin = pin then [(read g r).1] else []) g reads

/-- Every read of the pin gives another level than the last one given for it, or that of the
    initialisation, only if this level is held, and gives any level that is. -/
def Debounced (pin : UInt32) (g : HalGpio) (reads : List GpioRead) : Prop :=
  ∀ before r, before ++ [r] <+: reads → r.pin = pin →
    (((run g before).read r).1 ≠ (returned pin g before).getLastD 1 →
      Held ((run g before).read r).1 r.debounceMs (samples pin (before ++ [r]))) ∧
    ∀ v, Held v r.debounceMs (samples pin (before ++ [r])) → ((run g before).read r).1 = v

/-! ## A sample -/

section

variable {st : DebounceState} {debounceMs : UInt32} {raw : UInt8} {nowUs : UInt64}

@[simp] theorem sample_lastRawLevel : (st.sample debounceMs raw nowUs).lastRawLevel = raw := by
  simp only [DebounceState.sample]
  split_ifs with hraw
  · rfl
  · rfl
  · exact (not_not.1 hraw).symm
  · exact (not_not.1 hraw).symm

theorem sample_lastChangeTimeUs_of_eq (h : raw = st.lastRawLevel) :
    (st.sample debounceMs raw nowUs).lastChangeTimeUs = st.lastChangeTimeUs := by
  simp only [DebounceState.sample, if_neg (not_not.2 h)]
  split_ifs
  · rfl
  · rfl

theorem sample_lastChangeTimeUs_of_ne (h : raw ≠ st.lastRawLevel) :
    (st.sample debounceMs raw nowUs).lastChangeTimeUs = nowUs := by
  simp only [DebounceState.sample, if_pos h]
  split_ifs
  · rfl
  · rfl

/-- The level given by a sample: the raw one, once it has not changed for long enough. -/
theorem sample_lastStableLevel
    (hle : (st.sample debounceMs raw nowUs).lastChangeTimeUs ≤ nowUs) :
    (st.sample debounceMs raw nowUs).lastStableLevel =
      if (st.sample debounceMs raw nowUs).lastChangeTimeUs.toNat + 1000 * debounceMs.toNat ≤
        nowUs.toNat then raw
      else st.lastStableLevel := by
  have hwait (t : UInt64) (ht : t ≤ nowUs) : debounceMs.toUInt64 * 1000 ≤ nowUs - t ↔
      t.toNat + 1000 * debounceMs.toNat ≤ nowUs.toNat := by
    have hms := debounceMs.toNat_lt
    have ht' := UInt64.le_iff_toNat_le.1 ht
    have h1000 : (1000 : UInt64).toNat = 1000 := rfl
    rw [UInt64.le_iff_toNat_le, UInt64.toNat_sub_of_le _ _ ht, UInt64.toNat_mul,
      UInt32.toNat_toUInt64, h1000, Nat.mod_eq_of_lt (by omega)]
    omega
  by_cases hraw : raw = st.lastRawLevel
  · rw [sample_lastChangeTimeUs_of_eq hraw] at hle ⊢
    simp only [DebounceState.sample, if_neg (not_not.2 hraw), hwait _ hle]
    split_ifs
    · rfl
    · rfl
  · rw [sample_lastChangeTimeUs_of_ne hraw] at hle ⊢
    simp only [DebounceState.sample, if_pos hraw, hwait _ hle]
    split_ifs
    · rfl
    · rfl

end

/-! ## What the state of a pin says of its samples -/

/-- The state of a pin, after its samples `xs`. -/
structure History (xs : List GpioRead) (st : DebounceState) : Prop where
  /-- Latest samples with one level have the raw one, and are all since the last change. -/
  constant : ∀ {v first span}, first :: span <:+ xs → (∀ s ∈ first :: span, s.raw = v) →
    v = st.lastRawLevel ∧ st.lastChangeTimeUs ≤ first.nowUs
  /-- The last change is at one of these, unless there was none. -/
  began : (st.lastStableLevel = 1 ∧ st.lastRawLevel = 1 ∧ st.lastChangeTimeUs = 0) ∨
    ∃ first span, first :: span <:+ xs ∧ (∀ s ∈ first :: span, s.raw = st.lastRawLevel) ∧
      first.nowUs = st.lastChangeTimeUs

namespace History

theorem init : History [] ⟨1, 1, 0⟩ where
  constant hspan := by simp at hspan
  began := .inl ⟨rfl, rfl, rfl⟩

variable {xs : List GpioRead} {st : DebounceState}

/-- Among the latest samples with one level, with another one. -/
theorem forall_mem_concat {first r : GpioRead} {span : List GpioRead} {v : UInt8} :
    (∀ s ∈ first :: (span ++ [r]), s.raw = v) ↔ (∀ s ∈ first :: span, s.raw = v) ∧ r.raw = v := by
  rw [← List.cons_append, List.forall_mem_append, List.forall_mem_singleton]

/-- After another sample, the last change is at one of the latest samples, or there was none. -/
theorem began_sample (h : History xs st) (r : GpioRead) :
    (r.raw = st.lastStableLevel ∧ r.raw = 1 ∧
      (st.sample r.debounceMs r.raw r.nowUs).lastChangeTimeUs = 0) ∨
    ∃ first span, first :: span <:+ xs ++ [r] ∧ (∀ s ∈ first :: span, s.raw = r.raw) ∧
      r ∈ (first :: span).getLast? ∧
      first.nowUs = (st.sample r.debounceMs r.raw r.nowUs).lastChangeTimeUs := by
  by_cases hraw : r.raw = st.lastRawLevel
  · rw [sample_lastChangeTimeUs_of_eq hraw]
    rcases h.began with ⟨hstable, hone, hzero⟩ | ⟨first, span, hspan, hlevel, htime⟩
    · exact .inl ⟨hraw.trans (hone.trans hstable.symm), hraw.trans hone, hzero⟩
    · refine .inr ⟨first, span ++ [r], ?_, ?_, ?_, htime⟩
      · rw [← List.cons_append]
        exact List.suffix_concat_iff.2 (.inr ⟨_, rfl, hspan⟩)
      · rw [forall_mem_concat]
        exact ⟨fun s hs => (hlevel s hs).trans hraw.symm, rfl⟩
      · rw [← List.cons_append]
        exact List.getLast?_concat
  · rw [sample_lastChangeTimeUs_of_ne hraw]
    exact .inr ⟨r, [], List.suffix_append _ _, by simp, rfl, rfl⟩

/-- A change is no later than the samples after it. -/
theorem lastChangeTimeUs_le (h : History xs st) {r : GpioRead}
    (htimes : ∀ s ∈ xs, s.nowUs ≤ r.nowUs) :
    (st.sample r.debounceMs r.raw r.nowUs).lastChangeTimeUs ≤ r.nowUs := by
  rcases h.began_sample r with ⟨-, -, hzero⟩ | ⟨first, span, hspan, -, -, htime⟩
  · rw [hzero]
    exact UInt64.zero_le
  · rw [← htime]
    have hfirst : first ∈ xs ++ [r] := hspan.subset List.mem_cons_self
    rcases List.mem_append.1 hfirst with hmem | hmem
    · exact htimes first hmem
    · rw [List.mem_singleton.1 hmem]
      exact UInt64.le_refl _

/-- Another sample. -/
theorem sample (h : History xs st) {r : GpioRead} (htimes : ∀ s ∈ xs, s.nowUs ≤ r.nowUs) :
    History (xs ++ [r]) (st.sample r.debounceMs r.raw r.nowUs) where
  constant {v first span} hspan hlevel := by
    have hle := h.lastChangeTimeUs_le htimes
    rw [sample_lastRawLevel]
    rcases List.suffix_concat_iff.1 hspan with hnil | ⟨l, hl, hsuffix⟩
    · cases hnil
    rcases List.cons_eq_append_iff.1 hl with ⟨rfl, hlast⟩ | ⟨span, rfl, rfl⟩
    · -- The sample alone.
      obtain ⟨rfl, rfl⟩ := List.cons.inj hlast
      exact ⟨(hlevel _ List.mem_cons_self).symm, hle⟩
    · rw [forall_mem_concat] at hlevel
      obtain ⟨hv, hchange⟩ := h.constant hsuffix hlevel.1
      have hraw : r.raw = st.lastRawLevel := hlevel.2.trans hv
      rw [sample_lastChangeTimeUs_of_eq hraw]
      exact ⟨hlevel.2.symm, hchange⟩
  began := by
    rw [sample_lastRawLevel]
    rcases h.began_sample r with ⟨hstable, hone, hzero⟩ | ⟨first, span, hspan, hlevel, -, htime⟩
    · refine .inl ⟨?_, hone, hzero⟩
      rw [sample_lastStableLevel (h.lastChangeTimeUs_le htimes)]
      split_ifs
      · exact hone
      · exact hstable.symm.trans hone
    · exact .inr ⟨first, span, hspan, hlevel, htime⟩

/-- A sample gives another level only if it is held. -/
theorem held_of_ne (h : History xs st) {r : GpioRead} (htimes : ∀ s ∈ xs, s.nowUs ≤ r.nowUs)
    (hne : (st.sample r.debounceMs r.raw r.nowUs).lastStableLevel ≠ st.lastStableLevel) :
    Held (st.sample r.debounceMs r.raw r.nowUs).lastStableLevel r.debounceMs (xs ++ [r]) := by
  rw [sample_lastStableLevel (h.lastChangeTimeUs_le htimes)] at hne ⊢
  split_ifs at hne ⊢ with hwait
  · rcases h.began_sample r with ⟨hstable, -, -⟩ | ⟨first, span, hspan, hlevel, hlast, htime⟩
    · exact absurd hstable hne
    · exact ⟨first, span, r, hspan, hlast, hlevel, by rwa [htime]⟩
  · exact absurd rfl hne

/-- A sample gives any level that is held. -/
theorem eq_of_held (h : History xs st) {r : GpioRead} (htimes : ∀ s ∈ xs, s.nowUs ≤ r.nowUs)
    {v : UInt8} (hheld : Held v r.debounceMs (xs ++ [r])) :
    (st.sample r.debounceMs r.raw r.nowUs).lastStableLevel = v := by
  obtain ⟨first, span, last, hspan, hlast, hlevel, hwait⟩ := hheld
  obtain ⟨hv, hchange⟩ := (h.sample htimes).constant hspan hlevel
  rw [sample_lastRawLevel] at hv
  have heq : last = r := by
    obtain ⟨before, hbefore⟩ := hspan
    have hget := congrArg List.getLast? hbefore
    rw [List.getLast?_append, hlast, List.getLast?_concat] at hget
    exact Option.some.inj hget
  rw [heq] at hwait
  have hchange' := UInt64.le_iff_toNat_le.1 hchange
  rw [sample_lastStableLevel (h.lastChangeTimeUs_le htimes), if_pos (by omega), hv]

end History

/-! ## Reads of all pins -/

variable {g : HalGpio} {pin : UInt32} {reads : List GpioRead} {r : GpioRead}

/-- A read of a pin of the table. -/
theorem read_eq (hg : g.gpioInitialized = true) (hr : r.pin.toNat < 32) : g.read r =
    (((g.debounceTbl ⟨r.pin.toNat, hr⟩).sample r.debounceMs r.raw r.nowUs).lastStableLevel,
      { g with
        debounceTbl := Function.update g.debounceTbl ⟨r.pin.toNat, hr⟩
          ((g.debounceTbl ⟨r.pin.toNat, hr⟩).sample r.debounceMs r.raw r.nowUs) }) := by
  simp only [read, halGpioReadDebounced, hg, if_true, dif_pos hr]

/-- The state of the pin that is read. -/
theorem debounceTbl_read_self (hg : g.gpioInitialized = true) (hr : r.pin.toNat < 32) :
    (g.read r).2.debounceTbl ⟨r.pin.toNat, hr⟩ =
      (g.debounceTbl ⟨r.pin.toNat, hr⟩).sample r.debounceMs r.raw r.nowUs := by
  rw [read_eq hg hr]
  exact Function.update_self ..

theorem gpioInitialized_read (hg : g.gpioInitialized = true) :
    (g.read r).2.gpioInitialized = true := by
  simp only [read, halGpioReadDebounced, hg, if_true]
  split_ifs
  · rfl
  · exact hg

/-- A read of another pin leaves the state of this one. -/
theorem debounceTbl_read_of_ne (hg : g.gpioInitialized = true) (hne : r.pin ≠ pin)
    (hpin : pin.toNat < 32) :
    (g.read r).2.debounceTbl ⟨pin.toNat, hpin⟩ = g.debounceTbl ⟨pin.toNat, hpin⟩ := by
  simp only [read, halGpioReadDebounced, hg, if_true]
  split_ifs
  · refine Function.update_of_ne (fun heq => hne ?_) _ _
    exact (UInt32.toNat_inj.1 (Fin.mk.inj heq)).symm
  · rfl

theorem run_concat (g : HalGpio) (reads : List GpioRead) (r : GpioRead) :
    run g (reads ++ [r]) = ((run g reads).read r).2 := List.foldl_concat ..

theorem samples_concat_of_eq (h : r.pin = pin) :
    samples pin (reads ++ [r]) = samples pin reads ++ [r] := by
  simp [samples, h]

theorem samples_concat_of_ne (h : r.pin ≠ pin) :
    samples pin (reads ++ [r]) = samples pin reads := by
  simp [samples, h]

theorem returned_concat (g : HalGpio) (reads : List GpioRead) (r : GpioRead) :
    returned pin g (reads ++ [r]) =
      returned pin g reads ++ if r.pin = pin then [((run g reads).read r).1] else [] :=
  collect_concat r

/-- What a run makes of a pin: its state is that of its samples, and has the last level given. -/
structure Sampled (pin : UInt32) (g : HalGpio) (reads : List GpioRead) (hpin : pin.toNat < 32) :
    Prop where
  initialized : (run g reads).gpioInitialized = true
  history : History (samples pin reads) ((run g reads).debounceTbl ⟨pin.toNat, hpin⟩)
  stable : ((run g reads).debounceTbl ⟨pin.toNat, hpin⟩).lastStableLevel =
    (returned pin g reads).getLastD 1

/-- Every run after the initialisation, the times of the pin being in order. -/
theorem sampled (hpin : pin.toNat < 32)
    (htimes : (samples pin reads).Pairwise fun s t => s.nowUs ≤ t.nowUs) :
    Sampled pin halGpioInit.2 reads hpin := by
  induction reads using List.reverseRecOn with
  | nil => exact ⟨rfl, .init, rfl⟩
  | append_singleton reads r ih =>
    by_cases hr : r.pin = pin
    · rw [samples_concat_of_eq hr, List.pairwise_append] at htimes
      have h := ih htimes.1
      have hbefore : ∀ s ∈ samples pin reads, s.nowUs ≤ r.nowUs := fun s hs =>
        htimes.2.2 s hs r (List.mem_singleton_self r)
      subst hr
      constructor
      · rw [run_concat]
        exact gpioInitialized_read h.initialized
      · rw [run_concat, samples_concat_of_eq rfl, debounceTbl_read_self h.initialized]
        exact h.history.sample hbefore
      · rw [run_concat, returned_concat, if_pos rfl, List.getLastD_concat,
          debounceTbl_read_self h.initialized, read_eq h.initialized hpin]
    · rw [samples_concat_of_ne hr] at htimes
      have h := ih htimes
      constructor
      · rw [run_concat]
        exact gpioInitialized_read h.initialized
      · rw [run_concat, samples_concat_of_ne hr, debounceTbl_read_of_ne h.initialized hr]
        exact h.history
      · rw [run_concat, returned_concat, if_neg hr, List.append_nil,
          debounceTbl_read_of_ne h.initialized hr]
        exact h.stable

/-- The inputs are debounced: after the initialisation, a read of a pin gives another level than
    the one before it only when this level has been sampled for the time asked for, and gives a
    level that has. -/
theorem debounced (hpin : pin < 32)
    (htimes : (samples pin reads).Pairwise fun s t => s.nowUs ≤ t.nowUs) :
    Debounced pin halGpioInit.2 reads := by
  intro before r hbefore hr
  have hlt : pin.toNat < 32 := UInt32.lt_iff_toNat_lt.1 hpin
  subst hr
  have hsub : (samples r.pin (before ++ [r])).Sublist (samples r.pin reads) :=
    hbefore.sublist.filter _
  have htimes' := htimes.sublist hsub
  rw [samples_concat_of_eq rfl, List.pairwise_append] at htimes'
  have h := sampled hlt htimes'.1
  have hle : ∀ s ∈ samples r.pin before, s.nowUs ≤ r.nowUs := fun s hs =>
    htimes'.2.2 s hs r (List.mem_singleton_self r)
  rw [samples_concat_of_eq rfl, read_eq h.initialized hlt, ← h.stable]
  constructor
  · exact h.history.held_of_ne hle
  · intro v hheld
    exact h.history.eq_of_held hle hheld

/-- A button that bounces and is then held down for 20 ms. -/
theorem debounced_button : Debounced 12 halGpioInit.2
    [⟨12, 20, 0, 1000⟩, ⟨12, 20, 1, 3000⟩, ⟨25, 20, 1, 3100⟩, ⟨12, 20, 0, 5000⟩,
      ⟨12, 20, 0, 25000⟩] :=
  debounced (by decide) (by decide)

end HalGpio

end SliverOS
