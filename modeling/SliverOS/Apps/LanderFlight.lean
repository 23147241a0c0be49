import SliverOS.Apps.Fidelity
import SliverOS.Streams.Run

/-!
# The flight of the lander

The lander of the firmware is kept in numbers of 16 bits, and in a flight, two things are not
looked at:
* up to three controls burn fuel in a frame, after one test that there is some: the fuel never
  increases exactly as long as no frame burns more than there is (`fuelLaw_iff`);
* the speed has no limit, and there is no wall but the ground: the numbers are those of the same
  game with an unbounded motion and score (`IdealLander`), but the same fuel, which wraps around,
  exactly as long as those fit (`exact_iff`), which they do in the first 166 frames
  (`exact_of_length_le`).
-/

namespace SliverOS

open Streams

variable {g : RetroGames} {input : UInt8}

/-! ## Fuel -/

namespace GameLander

variable {l : GameLander}

/-- A frame does not burn more fuel than there is, if there is any. -/
def EnoughFuel (l : GameLander) (input : UInt8) : Prop :=
  l.status = .playing → l.fuel = 0 ∨ pressed input ≤ l.fuel.toNat

instance (l : GameLander) (input : UInt8) : Decidable (l.EnoughFuel input) :=
  inferInstanceAs (Decidable (_ → _))

/-- The lander is reset by a frame. -/
def Resets (l : GameLander) (input : UInt8) : Prop := l.status ≠ .playing ∧ restarts input = true

/-- The fuel does not increase in a frame without a reset, and stays within 500, exactly if
    there is enough. -/
theorem enoughFuel_iff (h : l.fuel ≤ 500) : ((¬l.Resets input → (l.task input).fuel ≤ l.fuel) ∧
    (l.task input).fuel ≤ 500) ↔ l.EnoughFuel input := by
  rw [UInt16.le_iff_toNat_le] at h
  have h500 : (500 : UInt16).toNat = 500 := rfl
  by_cases hstatus : l.status = .playing
  · obtain ⟨status, score, heq⟩ := (l.moved input).checkBoundary_frame
    have hfuel : (l.task input).fuel =
        if 0 < l.fuel then l.fuel - UInt16.ofNat (pressed input) else l.fuel := by
      rw [task_of_playing hstatus, heq, moved]
    have hresets : ¬l.Resets input := fun hresets => hresets.1 hstatus
    have hpressed := pressed_le input
    rw [hfuel, UInt16.le_iff_toNat_le, UInt16.le_iff_toNat_le]
    simp only [hresets, not_false_eq_true, forall_const, EnoughFuel, hstatus]
    rw [← UInt16.toNat_inj, UInt16.toNat_zero]
    by_cases hpos : 0 < l.fuel
    · rw [if_pos hpos, toNat_fuel_sub l.fuel hpressed]
      rw [UInt16.lt_iff_toNat_lt, UInt16.toNat_zero] at hpos
      omega
    · rw [if_neg hpos]
      rw [UInt16.lt_iff_toNat_lt, UInt16.toNat_zero] at hpos
      omega
  · -- The lander is reset, or nothing changes.
    refine iff_of_true ?_ fun hplaying => absurd hplaying hstatus
    rw [task_of_finished hstatus]
    by_cases hrestarts : restarts input = true
    · rw [if_pos hrestarts]
      exact ⟨fun hresets => absurd ⟨hstatus, hrestarts⟩ hresets, UInt16.le_refl _⟩
    · rw [if_neg hrestarts]
      exact ⟨fun _ => UInt16.le_refl _, h⟩

end GameLander

/-- In a frame without a reset, the fuel does not increase, and it is at most 500 after any. -/
def RetroGames.FuelLaw (g : RetroGames) (mask : UInt8) : Prop :=
  (¬g.lander.Resets mask → (g.frame mask).lander.fuel ≤ g.lander.fuel) ∧
    (g.frame mask).lander.fuel ≤ 500

/-- The fuel never increases between two resets, and stays within 500, exactly in the runs in
    which no frame burns more than there is. -/
theorem fuelLaw_iff (g : RetroGames) (masks : List UInt8) :
    Throughout RetroGames.frame RetroGames.FuelLaw g.retroGamesStart masks ↔
      Throughout RetroGames.frame (fun g mask => g.lander.EnoughFuel mask) g.retroGamesStart
        masks := by
  have hiff (g : RetroGames) (mask : UInt8) (h : g.running = true ∧ g.lander.fuel ≤ 500) :
      g.FuelLaw mask ↔ g.lander.EnoughFuel mask := by
    rw [RetroGames.FuelLaw, lander_frame h.1]
    exact GameLander.enoughFuel_iff h.2
  refine throughout_congr ⟨rfl, UInt16.le_refl _⟩ hiff fun g mask h henough => ?_
  exact ⟨running_frame h.1 mask, ((hiff g mask h).2 henough).2⟩

/-- With thrust and both sides pressed, two units of fuel are one too few. -/
theorem fuel_increases :
    ¬Throughout RetroGames.frame RetroGames.FuelLaw .started (List.replicate 167 0x0D) := by
  intro h
  have hsplit : List.replicate 166 0x0D ++ [0x0D] = List.replicate 167 (0x0D : UInt8) :=
    List.replicate_succ'.symm
  have hlast := (h (List.replicate 166 0x0D) 0x0D (by rw [hsplit])).2
  exact absurd hlast (by decide +kernel)

/-! ## Motion -/

/-- The lander with an unbounded motion and score. Its fuel is that of the firmware: it wraps around
    when a frame burns more than there is. -/
structure IdealLander where
  x : ℤ
  y : ℤ
  vx : ℤ
  vy : ℤ
  fuel : UInt16
  score : ℤ
  status : GameStatus

namespace IdealLander

/-- The lander of `retro_games_start`, with some score. -/
def start (score : ℤ) : IdealLander := ⟨200, 50, 5, 0, 500, score, .playing⟩

variable (l : IdealLander) (input : UInt8)

/-- The lander after the controls and the move of a frame. -/
def moved : IdealLander :=
  let vx := l.vx +
    if 0 < l.fuel then ((steersRight input).toNat : ℤ) - (steersLeft input).toNat else 0
  let vy := l.vy + 1 - if 0 < l.fuel then 2 * (thrusts input).toNat else 0
  { l with
    vx, vy
    fuel := if 0 < l.fuel then l.fuel - UInt16.ofNat (pressed input) else l.fuel
    x := l.x + vx
    y := l.y + vy }

/-- The lander lands, crashes, or flies on. -/
def checkBoundary : IdealLander :=
  let px := l.x.tdiv 10
  let py := l.y.tdiv 10
  if landingPadY - 4 ≤ py then
    if landingPadX ≤ px ∧ px + 6 ≤ landingPadX + landingPadW ∧ l.vy < 8 ∧ |l.vx| < 4 then
      { l with status := .landed, score := l.score + (100 + l.fuel.toNat) }
    else { l with status := .crashed }
  else l

/-- A frame. -/
def task : IdealLander :=
  match l.status with
  | .playing => (l.moved input).checkBoundary
  | _ => if restarts input then start l.score else l

/-- The position and the speed fit in `int16_t`. -/
structure InRange : Prop where
  x : IsInt16 l.x
  y : IsInt16 l.y
  vx : IsInt16 l.vx
  vy : IsInt16 l.vy

/-- All the numbers fit in those of the firmware. -/
def Fits : Prop := l.InRange ∧ l.score < 2 ^ 16

variable {l}

/-- The boundary only changes the status and the score. -/
theorem checkBoundary_frame (l : IdealLander) :
    ∃ status score, l.checkBoundary = { l with status, score } := by
  rw [checkBoundary]
  split_ifs
  · exact ⟨_, _, rfl⟩
  · exact ⟨_, _, rfl⟩
  · exact ⟨_, _, rfl⟩

theorem inRange_checkBoundary_iff : l.checkBoundary.InRange ↔ l.InRange := by
  obtain ⟨status, score, heq⟩ := l.checkBoundary_frame
  rw [heq]
  exact ⟨fun h => ⟨h.x, h.y, h.vx, h.vy⟩, fun h => ⟨h.x, h.y, h.vx, h.vy⟩⟩

theorem task_of_finished {input : UInt8} (h : l.status ≠ .playing) :
    l.task input = if restarts input then start l.score else l := by
  rw [task]
  split
  · next hl => exact absurd hl h
  · rfl

end IdealLander

theorem isInt16_toInt (v : Int16) : IsInt16 v.toInt := ⟨Int16.le_toInt _, Int16.toInt_lt _⟩

namespace GameLander

/-- A frame played adds the increments to the numbers as integers, and a landing 100 and the
    fuel to the score. -/
structure Exact (l l' : GameLander) (input : UInt8) : Prop where
  vx : l'.vx.toInt = l.nextVx input
  vy : l'.vy.toInt = l.nextVy input
  x : l'.x.toInt = l.x.toInt + l'.vx.toInt
  y : l'.y.toInt = l.y.toInt + l'.vy.toInt
  score : l'.status = .landed → l'.score.toNat = l.score.toNat + (100 + l'.fuel.toNat)

/-- The lander of the firmware is that of the unbounded motion. -/
structure Matches (l : GameLander) (i : IdealLander) : Prop where
  x : i.x = l.x.toInt
  y : i.y = l.y.toInt
  vx : i.vx = l.vx.toInt
  vy : i.vy = l.vy.toInt
  fuel : i.fuel = l.fuel
  score : i.score = l.score.toNat
  status : i.status = l.status

variable {l : GameLander} {i : IdealLander}

theorem Matches.fits (h : Matches l i) : i.Fits := by
  refine ⟨⟨?_, ?_, ?_, ?_⟩, ?_⟩
  · rw [h.x]
    exact isInt16_toInt l.x
  · rw [h.y]
    exact isInt16_toInt l.y
  · rw [h.vx]
    exact isInt16_toInt l.vx
  · rw [h.vy]
    exact isInt16_toInt l.vy
  · rw [h.score]
    exact_mod_cast l.score.toNat_lt

/-- The numbers of a move of the unbounded motion. -/
theorem Matches.moved (h : Matches l i) (input : UInt8) :
    (i.moved input).vx = l.nextVx input ∧ (i.moved input).vy = l.nextVy input ∧
      (i.moved input).x = l.x.toInt + l.nextVx input ∧
      (i.moved input).y = l.y.toInt + l.nextVy input := by
  simp only [IdealLander.moved, nextVx, nextVy, h.x, h.y, h.vx, h.vy, h.fuel, and_self]

/-- They are those of the firmware exactly if they fit. -/
theorem matches_moved_iff (h : Matches l i) :
    Matches (l.moved input) (i.moved input) ↔ (i.moved input).InRange := by
  obtain ⟨hvx, hvy, hx, hy⟩ := h.moved input
  constructor
  · exact fun hm => hm.fits.1
  · intro hr
    have hfit {v v' : ℤ} (heq : v' = v) (hv : IsInt16 v') : v' = (Int16.ofInt v).toInt := by
      rw [heq] at hv ⊢
      exact (isInt16_iff v).2 hv
    refine ⟨hfit hx hr.x, hfit hy hr.y, hfit hvx hr.vx, hfit hvy hr.vy, ?_, h.score, h.status⟩
    simp only [IdealLander.moved, GameLander.moved, h.fuel]

/-- The boundary is the same for both, and the score if it fits. -/
theorem matches_checkBoundary_iff (h : Matches l i) (hstatus : l.status = .playing) :
    (Matches l.checkBoundary i.checkBoundary ↔ i.checkBoundary.score < 2 ^ 16) ∧
      ((l.checkBoundary.status = .landed →
        l.checkBoundary.score.toNat = l.score.toNat + (100 + l.checkBoundary.fuel.toNat)) ↔
          i.checkBoundary.score < 2 ^ 16) := by
  have hadd : (l.score + (100 + l.fuel)).toNat =
      (l.score.toNat + (100 + l.fuel.toNat)) % 2 ^ 16 := by
    have h100 : (100 : UInt16).toNat = 100 := rfl
    rw [UInt16.toNat_add, UInt16.toNat_add, h100, Nat.add_mod_mod]
  have hscore := h.fits.2
  rw [GameLander.checkBoundary, IdealLander.checkBoundary]
  simp only [h.x, h.y, h.vx, h.vy]
  split_ifs
  · -- A landing.
    simp only [forall_const]
    rw [hadd, h.score, h.fuel]
    refine ⟨⟨?_, ?_⟩, ?_⟩
    · intro hm
      have heq := hm.score
      simp only [hadd] at heq
      omega
    · intro hlt
      refine ⟨rfl, rfl, rfl, rfl, rfl, ?_, rfl⟩
      simp only [hadd]
      omega
    · omega
  · exact ⟨iff_of_true ⟨rfl, rfl, rfl, rfl, h.fuel, h.score, rfl⟩ hscore,
      iff_of_true (by simp) hscore⟩
  · exact ⟨iff_of_true h hscore, iff_of_true (by simp [hstatus]) hscore⟩

theorem matches_task_of_finished (h : Matches l i) (hstatus : l.status ≠ .playing) :
    Matches (l.task input) (i.task input) := by
  rw [task_of_finished hstatus, IdealLander.task_of_finished (by rwa [h.status])]
  split_ifs
  · exact ⟨rfl, rfl, rfl, rfl, rfl, h.score, rfl⟩
  · exact h

/-- A frame is the same for both exactly if the numbers fit after it. -/
theorem matches_task_iff (h : Matches l i) :
    Matches (l.task input) (i.task input) ↔ (i.task input).Fits := by
  refine ⟨Matches.fits, fun hfits => ?_⟩
  by_cases hstatus : l.status = .playing
  · have hi : i.task input = (i.moved input).checkBoundary := by
      rw [IdealLander.task, h.status, hstatus]
    rw [hi] at hfits ⊢
    rw [task_of_playing hstatus]
    have hmoved := (matches_moved_iff h).2 (IdealLander.inRange_checkBoundary_iff.1 hfits.1)
    exact (matches_checkBoundary_iff hmoved hstatus).1.2 hfits.2
  · exact matches_task_of_finished h hstatus

/-- The motion is exact, and the score, exactly if the numbers fit. -/
theorem exact_task_iff (h : Matches l i) (hstatus : l.status = .playing) :
    Exact l (l.task input) input ↔ (i.task input).Fits := by
  have hi : i.task input = (i.moved input).checkBoundary := by
    rw [IdealLander.task, h.status, hstatus]
  obtain ⟨status, score, heq⟩ := (l.moved input).checkBoundary_frame
  obtain ⟨hvx, hvy, hx, hy⟩ := h.moved input
  rw [hi, IdealLander.Fits, IdealLander.inRange_checkBoundary_iff, task_of_playing hstatus]
  constructor
  · intro he
    have hr : (i.moved input).InRange := by
      refine ⟨?_, ?_, ?_, ?_⟩
      · rw [hx, ← he.vx, ← he.x]
        exact isInt16_toInt _
      · rw [hy, ← he.vy, ← he.y]
        exact isInt16_toInt _
      · rw [hvx, ← he.vx]
        exact isInt16_toInt _
      · rw [hvy, ← he.vy]
        exact isInt16_toInt _
    exact ⟨hr, (matches_checkBoundary_iff ((matches_moved_iff h).2 hr) hstatus).2.1 he.score⟩
  · rintro ⟨hr, hscore⟩
    have hmoved := (matches_moved_iff h).2 hr
    refine ⟨?_, ?_, ?_, ?_, (matches_checkBoundary_iff hmoved hstatus).2.2 hscore⟩
    · rw [heq]
      exact hmoved.vx.symm.trans hvx
    · rw [heq]
      exact hmoved.vy.symm.trans hvy
    · rw [heq]
      simp only
      rw [← hmoved.x, ← hmoved.vx, hx, hvx]
    · rw [heq]
      simp only
      rw [← hmoved.y, ← hmoved.vy, hy, hvy]

end GameLander

/-- In a frame played, the motion does not wrap around, nor does the score. -/
def RetroGames.Exact (g : RetroGames) (mask : UInt8) : Prop :=
  g.lander.status = .playing → g.lander.Exact (g.frame mask).lander mask

/-- The firmware and the unbounded motion are in lockstep as long as the frames are exact. -/
theorem lockstep_exact : Lockstep RetroGames.frame IdealLander.task
    (fun g i => g.lander.Matches i) (fun g _ => g.running = true) RetroGames.Exact where
  related_iff {g i} mask h hrunning := by
    rw [RetroGames.Exact, lander_frame hrunning]
    by_cases hstatus : g.lander.status = .playing
    · rw [GameLander.matches_task_iff h, GameLander.exact_task_iff h hstatus]
      exact ⟨fun hfits _ => hfits, fun hfits => hfits hstatus⟩
    · exact iff_of_true (GameLander.matches_task_of_finished h hstatus)
        fun hplaying => absurd hplaying hstatus
  inv mask _ hrunning _ := running_frame hrunning mask

/-- And as long as the unbounded motion fits. -/
theorem lockstep_fits : Lockstep IdealLander.task RetroGames.frame
    (fun i g => g.lander.Matches i) (fun _ g => g.running = true)
    (fun i mask => (i.task mask).Fits) where
  related_iff mask h hrunning := by
    rw [lander_frame hrunning]
    exact GameLander.matches_task_iff h
  inv mask _ hrunning _ := running_frame hrunning mask

/-- The motion does not wrap around, nor does the score, exactly in the runs in which they fit when
    they are unbounded, with fuel that wraps around. -/
theorem exact_iff (g : RetroGames) (masks : List UInt8) :
    Throughout RetroGames.frame RetroGames.Exact g.retroGamesStart masks ↔
      ∀ ms, ms <+: masks →
        (ms.foldl IdealLander.task (.start g.lander.score.toNat)).Fits := by
  have hstart : g.retroGamesStart.lander.Matches (.start g.lander.score.toNat) :=
    ⟨rfl, rfl, rfl, rfl, rfl, rfl, rfl⟩
  rw [forall_prefix_iff, and_iff_right hstart.fits]
  exact (lockstep_exact.forall_prefix_iff hstart rfl masks).symm.trans
    (lockstep_fits.forall_prefix_iff hstart rfl masks)

/-! ## The first frames -/

namespace IdealLander

variable {l : IdealLander} {n : ℕ}

/-- How far the numbers can get in some frames, from the start of the games on. -/
structure Within (n : ℕ) (l : IdealLander) : Prop where
  vx : |l.vx| ≤ 5 + n
  vy : |l.vy| ≤ n
  x : 2 * |l.x - 200| ≤ 10 * n + n * (n + 1)
  y : 2 * |l.y - 50| ≤ n * (n + 1)
  fuel_le : l.fuel.toNat ≤ 500
  le_fuel : 500 ≤ l.fuel.toNat + 3 * n
  score : l.score ≤ 300 * n + if l.status = .landed then 300 else 0

theorem Within.moved (h : Within n l) (hn : n < 166) (hstatus : l.status = .playing)
    (input : UInt8) : Within (n + 1) (l.moved input) := by
  have hpressed := pressed_le input
  have hfuel := h.le_fuel
  have hfuel' := h.fuel_le
  have hscore := h.score
  have hpos : 0 < l.fuel := by
    rw [UInt16.lt_iff_toNat_lt, UInt16.toNat_zero]
    omega
  have hburned : (l.fuel - UInt16.ofNat (pressed input)).toNat = l.fuel.toNat - pressed input := by
    rw [toNat_fuel_sub l.fuel hpressed]
    omega
  -- The speed changes by at most one in both directions.
  have hside : |((steersRight input).toNat : ℤ) - (steersLeft input).toNat| ≤ 1 := by
    cases steersRight input <;> cases steersLeft input <;> decide
  have hup : |(1 : ℤ) - (2 * (thrusts input).toNat : ℕ)| ≤ 1 := by
    cases thrusts input <;> decide
  have hvx : |(l.moved input).vx| ≤ 5 + (n + 1) := by
    simp only [IdealLander.moved, hpos, if_true]
    exact (abs_add_le _ _).trans (by linarith only [h.vx, hside])
  have hvy : |(l.moved input).vy| ≤ n + 1 := by
    simp only [IdealLander.moved, hpos, if_true, add_sub_assoc]
    exact (abs_add_le _ _).trans (by linarith only [h.vy, hup])
  have hx : |(l.moved input).x - 200| ≤ |l.x - 200| + |(l.moved input).vx| := by
    have heq : (l.moved input).x - 200 = l.x - 200 + (l.moved input).vx := by
      simp only [IdealLander.moved]
      ring
    rw [heq]
    exact abs_add_le _ _
  have hy : |(l.moved input).y - 50| ≤ |l.y - 50| + |(l.moved input).vy| := by
    have heq : (l.moved input).y - 50 = l.y - 50 + (l.moved input).vy := by
      simp only [IdealLander.moved]
      ring
    rw [heq]
    exact abs_add_le _ _
  refine ⟨by exact_mod_cast hvx, by exact_mod_cast hvy, ?_, ?_, ?_, ?_, ?_⟩
  · push_cast
    linarith only [h.x, hx, hvx]
  · push_cast
    linarith only [h.y, hy, hvy]
  · simp only [IdealLander.moved, hpos, if_true, hburned]
    omega
  · simp only [IdealLander.moved, hpos, if_true, hburned]
    omega
  · rw [hstatus, if_neg (by decide)] at hscore
    simp only [IdealLander.moved, hstatus]
    push_cast
    omega

theorem Within.checkBoundary (h : Within n l) (hscore : l.score + 300 ≤ 300 * n) :
    Within n l.checkBoundary := by
  rw [IdealLander.checkBoundary]
  have hle := h.fuel_le
  split_ifs
  · refine ⟨h.vx, h.vy, h.x, h.y, hle, h.le_fuel, ?_⟩
    simp only [if_true]
    omega
  · refine ⟨h.vx, h.vy, h.x, h.y, hle, h.le_fuel, ?_⟩
    simp
    omega
  · exact h

theorem Within.mono (h : Within n l) : Within (n + 1) l := by
  have hn : (0 : ℤ) ≤ n := Int.natCast_nonneg n
  have hle := h.le_fuel
  have hscore := h.score
  refine ⟨?_, ?_, ?_, ?_, h.fuel_le, by omega, ?_⟩
  · push_cast
    linarith only [h.vx]
  · push_cast
    linarith only [h.vy]
  · push_cast
    linarith only [h.x, hn]
  · push_cast
    linarith only [h.y, hn]
  · push_cast
    omega

theorem Within.task (h : Within n l) (hn : n < 166) (input : UInt8) :
    Within (n + 1) (l.task input) := by
  have hscore := h.score
  by_cases hstatus : l.status = .playing
  · rw [hstatus, if_neg (by decide)] at hscore
    rw [IdealLander.task, hstatus]
    refine (h.moved hn hstatus input).checkBoundary ?_
    have heq : (l.moved input).score = l.score := rfl
    rw [heq]
    push_cast
    omega
  · rw [task_of_finished hstatus]
    split_ifs
    · -- The games are started again, with the score.
      have hzero : (0 : ℤ) ≤ n := Int.natCast_nonneg n
      have hvx : |(5 : ℤ)| ≤ 5 + (n + 1 : ℕ) := by
        rw [abs_of_nonneg (by decide)]
        omega
      have hstart : l.score ≤ 300 * (n + 1) := by
        split_ifs at hscore <;> omega
      refine ⟨hvx, ?_, ?_, ?_, Nat.le_refl _, Nat.le_add_right .., ?_⟩
      · simp only [start, abs_zero]
        positivity
      · simp only [start, sub_self, abs_zero, mul_zero]
        positivity
      · simp only [start, sub_self, abs_zero, mul_zero]
        positivity
      · rw [start]
        push_cast
        simpa using hstart
    · exact h.mono

theorem Within.fits (h : Within n l) (hn : n ≤ 166) : l.Fits := by
  have hle : (n : ℤ) ≤ 166 := by exact_mod_cast hn
  have hsquare : (n : ℤ) * (n + 1) ≤ 166 * 167 := by
    exact_mod_cast Nat.mul_le_mul hn (Nat.succ_le_succ hn)
  have hx : |l.x - 200| ≤ 15000 := by linarith only [h.x, hsquare, hle]
  have hy : |l.y - 50| ≤ 15000 := by linarith only [h.y, hsquare, hle]
  have hscore := h.score
  have hvx := abs_le.1 h.vx
  have hvy := abs_le.1 h.vy
  rw [abs_le] at hx hy
  exact ⟨⟨⟨by omega, by omega⟩, ⟨by omega, by omega⟩, ⟨by omega, by omega⟩,
    ⟨by omega, by omega⟩⟩, by omega⟩

end IdealLander

/-- Whatever is pressed, nothing wraps around in the first 166 frames of the games. -/
theorem exact_of_length_le {masks : List UInt8} (h : masks.length ≤ 166) :
    Throughout RetroGames.frame RetroGames.Exact .started masks := by
  have hrun (ms : List UInt8) (hms : ms.length ≤ 166) :
      (ms.foldl IdealLander.task (.start 0)).Within ms.length := by
    induction ms using List.reverseRecOn with
    | nil => exact ⟨by decide, by decide, by decide, by decide, by decide, by decide, by decide⟩
    | append_singleton ms mask ih =>
      rw [List.length_append, List.length_singleton] at hms ⊢
      rw [List.foldl_concat]
      exact (ih (by omega)).task (by omega) mask
  rw [RetroGames.started, exact_iff]
  intro ms hms
  have hle := hms.length_le.trans h
  exact (hrun ms hle).fits hle

/-- With thrust all the time, the lander rises until it is below the ground. -/
theorem motion_wraps :
    ¬Throughout RetroGames.frame RetroGames.Exact .started (List.replicate 256 inputBtnA) := by
  intro h
  have hsplit : List.replicate 255 inputBtnA ++ [inputBtnA] = List.replicate 256 inputBtnA :=
    List.replicate_succ'.symm
  have hlast := h (List.replicate 255 inputBtnA) inputBtnA (by rw [hsplit]) (by decide +kernel)
  exact absurd hlast.y (by decide +kernel)

end SliverOS
