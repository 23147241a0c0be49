import SliverOS.Apps.RetroGames
import SliverOS.Streams.Lockstep

/-!
# The simulated lander and that of the firmware

When the simulator shows what the firmware does. A frame keeps the two landers the same
exactly if it is `Regular` (`agree_frame_iff`), hence, from the start of the games, they are
the same after every frame of a run exactly if all of its frames are (`agree_run_iff`).

A frame is not regular when
* it takes more fuel than is left, of which the firmware is left with about `2 ^ 16`;
* the lander leaves the range of `int16_t`;
* a game is started again with a score, which only the simulator clears.
-/

namespace SliverOS

/-- The lander of the simulator is that of the firmware. -/
structure Agree (l : GameLander) (s : SimLander) : Prop where
  x : s.x = l.x.toInt
  y : s.y = l.y.toInt
  vx : s.vx = l.vx.toInt
  vy : s.vy = l.vy.toInt
  fuel : s.fuel = l.fuel.toNat
  score : s.score = l.score.toNat
  status : s.status = l.status.value

/-- A number is in the range of `int16_t`. -/
def IsInt16 (v : ℤ) : Prop := -2 ^ 15 ≤ v ∧ v < 2 ^ 15

theorem isInt16_iff (v : ℤ) : v = (Int16.ofInt v).toInt ↔ IsInt16 v := by
  constructor
  · intro h
    rw [h]
    exact ⟨Int16.le_toInt _, Int16.toInt_lt _⟩
  · rintro ⟨hlo, hhi⟩
    exact (Int16.toInt_ofInt_of_le hlo hhi).symm

/-- The number of controls that an input presses. -/
def pressed (input : UInt8) : ℕ :=
  (thrusts input).toNat + (steersLeft input).toNat + (steersRight input).toNat

namespace GameLander

variable (l : GameLander) (input : UInt8)

/-- The horizontal speed after a frame. -/
def nextVx : ℤ :=
  l.vx.toInt +
    if 0 < l.fuel then ((steersRight input).toNat : ℤ) - (steersLeft input).toNat else 0

/-- The vertical speed after a frame. -/
def nextVy : ℤ := l.vy.toInt + 1 - if 0 < l.fuel then 2 * (thrusts input).toNat else 0

/-- A frame that the simulator and the firmware take alike: while playing, there is no fuel or
    enough for the controls, and the numbers fit; after the end, the game is not started again
    with a score. -/
def Regular : Prop :=
  match l.status with
  | .playing =>
    (l.fuel = 0 ∨ pressed input ≤ l.fuel.toNat) ∧
      IsInt16 (l.nextVx input) ∧ IsInt16 (l.nextVy input) ∧
      IsInt16 (l.x.toInt + l.nextVx input) ∧ IsInt16 (l.y.toInt + l.nextVy input)
  | _ => restarts input = true → l.score = 0

variable {l input}

/-- The controls of the firmware. -/
theorem applyControls_eq : applyControls { l with vy := l.vy + 1 } input =
    { l with
      vx := .ofInt (l.nextVx input)
      vy := .ofInt (l.nextVy input)
      fuel := if 0 < l.fuel then l.fuel - UInt16.ofNat (pressed input) else l.fuel } := by
  have hsub (a b : UInt16) : l.fuel - a - b = l.fuel - (a + b) := by grind
  have hcancel : l.vx + -1 + 1 = l.vx := by grind
  rw [applyControls, nextVx, nextVy, pressed]
  by_cases hfuel : 0 < l.fuel
  · simp only [hfuel, if_true]
    cases thrusts input <;> cases steersLeft input <;> cases steersRight input <;>
      simp [hsub, hcancel, Int16.sub_eq_add_neg]
  · simp [hfuel]

/-- The lander of the firmware after the controls and the move of a frame. -/
def moved (l : GameLander) (input : UInt8) : GameLander :=
  { l with
    vx := .ofInt (l.nextVx input)
    vy := .ofInt (l.nextVy input)
    fuel := if 0 < l.fuel then l.fuel - UInt16.ofNat (pressed input) else l.fuel
    x := .ofInt (l.x.toInt + l.nextVx input)
    y := .ofInt (l.y.toInt + l.nextVy input) }

theorem task_of_playing (h : l.status = .playing) :
    l.task input = (l.moved input).checkBoundary := by
  have hx : l.x + .ofInt (l.nextVx input) = .ofInt (l.x.toInt + l.nextVx input) := by
    rw [Int16.ofInt_add, Int16.ofInt_toInt]
  have hy : l.y + .ofInt (l.nextVy input) = .ofInt (l.y.toInt + l.nextVy input) := by
    rw [Int16.ofInt_add, Int16.ofInt_toInt]
  rw [task, h]
  simp only
  rw [play, applyControls_eq, moved, ← hx, ← hy]

theorem task_of_finished (h : l.status ≠ .playing) :
    l.task input = if restarts input then l.resetLander else l := by
  rw [task]
  split
  · next hl => exact absurd hl h
  · rfl

/-- The boundary only changes the status and the score. -/
theorem checkBoundary_frame (l : GameLander) :
    ∃ status score, l.checkBoundary = { l with status, score } := by
  rw [checkBoundary]
  split_ifs
  · exact ⟨_, _, rfl⟩
  · exact ⟨_, _, rfl⟩
  · exact ⟨_, _, rfl⟩

end GameLander

namespace SimLander

variable {l : GameLander} {s : SimLander} {input : UInt8}

/-- The controls of the simulator. -/
theorem applyControls_eq (h : Agree l s) : applyControls { s with vy := s.vy + 1 } input =
    { s with
      vx := l.nextVx input
      vy := l.nextVy input
      fuel := if 0 < l.fuel then max 0 (s.fuel - pressed input) else s.fuel } := by
  have hfuel : 0 < s.fuel ↔ 0 < l.fuel := by
    rw [h.fuel, UInt16.lt_iff_toNat_lt]
    exact Int.natCast_pos
  have hup : (input &&& 0x01 ≠ 0 ∨ input &&& 0x10 ≠ 0) ↔ thrusts input = true := by
    rw [thrusts, Bool.or_eq_true, decide_eq_true_eq, decide_eq_true_eq]
    rfl
  have hleft : input &&& 0x04 ≠ 0 ↔ steersLeft input = true := by
    rw [steersLeft, decide_eq_true_eq]
    rfl
  have hright : input &&& 0x08 ≠ 0 ↔ steersRight input = true := by
    rw [steersRight, decide_eq_true_eq]
    rfl
  rw [applyControls, GameLander.nextVx, GameLander.nextVy, pressed]
  simp only [hfuel, hup, hleft, hright, h.vx, h.vy]
  by_cases hpos : 0 < l.fuel
  · have hpos' := hfuel.2 hpos
    simp only [hpos, if_true]
    cases thrusts input <;> cases steersLeft input <;> cases steersRight input <;> simp <;> omega
  · simp [hpos]

/-- The boundary leaves the position, the speed and the fuel alone, and the game is finished
    if anything changes. -/
theorem checkBoundary_cases (s : SimLander) : s.checkBoundary = s ∨
    ∃ status score, status ≠ 0 ∧ s.checkBoundary = { s with status, score } := by
  rw [checkBoundary]
  split_ifs
  · exact .inr ⟨1, _, by decide, rfl⟩
  · exact .inr ⟨2, _, by decide, rfl⟩
  · exact .inl rfl

/-- Controls only take fuel. -/
theorem applyControls_frame (s : SimLander) (input : UInt8) : ∃ vx vy fuel,
    s.applyControls input = { s with vx, vy, fuel } ∧ fuel ≤ max 0 s.fuel := by
  rw [applyControls]
  split_ifs <;> exact ⟨_, _, _, rfl, by grind⟩

/-- What holds in the simulator: the landing pad is that of the firmware, and there is a score
    only after a landing, until the game is started again. -/
structure Inv (s : SimLander) : Prop where
  padX : s.padX = landingPadX
  padY : s.padY = landingPadY
  padW : s.padW = landingPadW
  fuel : s.fuel ≤ 500
  score : s.status = 0 → s.score = 0

theorem Inv.checkBoundary (h : s.Inv) : s.checkBoundary.Inv := by
  rcases s.checkBoundary_cases with heq | ⟨status, score, hstatus, heq⟩
  · rwa [heq]
  · rw [heq]
    exact ⟨h.padX, h.padY, h.padW, h.fuel, fun hplaying => absurd hplaying hstatus⟩

/-- A frame of the simulator keeps this. -/
theorem Inv.tick (h : s.Inv) (input : UInt8) : (s.tick input).Inv := by
  rw [SimLander.tick]
  simp only
  split_ifs
  · obtain ⟨vx, vy, fuel, heq, hfuel⟩ := applyControls_frame
      { s with frameSeq := s.frameSeq + 1, vy := s.vy + 1 } input
    have hle := h.fuel
    rw [play, heq]
    exact Inv.checkBoundary ⟨h.padX, h.padY, h.padW, by simp only at hfuel ⊢; omega, h.score⟩
  · exact ⟨h.padX, h.padY, h.padW, Int.le_refl _, fun _ => rfl⟩
  · exact ⟨h.padX, h.padY, h.padW, h.fuel, h.score⟩

end SimLander

/-! ## A frame -/

variable {l : GameLander} {s : SimLander} {input : UInt8}

/-- Rounding towards zero and rounding down only differ on negative numbers. -/
theorem tdiv_eq_fdiv_or (v : ℤ) : v.tdiv 10 = v.fdiv 10 ∨ v.tdiv 10 ≤ 0 ∧ v.fdiv 10 < 0 := by
  rw [Int.fdiv_eq_ediv_of_nonneg _ (by decide)]
  rcases Int.lt_or_le v 0 with hneg | hpos
  · have habs : 0 ≤ (-v).tdiv 10 := Int.tdiv_nonneg (by omega) (by decide)
    rw [Int.neg_tdiv] at habs
    omega
  · exact .inl (Int.tdiv_eq_ediv_of_nonneg hpos)

/-- The boundary is the same for both. -/
theorem Agree.checkBoundary (h : Agree l s) (hinv : s.Inv)
    (hscore : l.score.toNat + (100 + l.fuel.toNat) < 2 ^ 16) :
    Agree l.checkBoundary s.checkBoundary := by
  -- The comparisons are with positive numbers, so that the rounding makes no difference.
  have hy : landingPadY - 4 ≤ l.y.toInt.fdiv 10 ↔ landingPadY - 4 ≤ l.y.toInt.tdiv 10 := by
    rw [landingPadY]
    rcases tdiv_eq_fdiv_or l.y.toInt with heq | hneg
    · rw [heq]
    · omega
  have hx : (landingPadX ≤ l.x.toInt.fdiv 10 ∧
        l.x.toInt.fdiv 10 + 6 ≤ landingPadX + landingPadW) ↔
      landingPadX ≤ l.x.toInt.tdiv 10 ∧ l.x.toInt.tdiv 10 + 6 ≤ landingPadX + landingPadW := by
    rw [landingPadX, landingPadW]
    rcases tdiv_eq_fdiv_or l.x.toInt with heq | hneg
    · rw [heq]
    · omega
  have hadd : (l.score + (100 + l.fuel)).toNat = l.score.toNat + (100 + l.fuel.toNat) := by
    have h100 : (100 : UInt16).toNat = 100 := rfl
    rw [UInt16.toNat_add, UInt16.toNat_add, h100]
    omega
  rw [GameLander.checkBoundary, SimLander.checkBoundary]
  simp only [h.x, h.y, h.vx, h.vy, hinv.padX, hinv.padY, hinv.padW, hy, hx, and_assoc]
  split_ifs
  · refine ⟨rfl, rfl, rfl, rfl, h.fuel, ?_, rfl⟩
    simp only [hadd, h.score, h.fuel]
    push_cast
    rfl
  · exact ⟨rfl, rfl, rfl, rfl, h.fuel, h.score, rfl⟩
  · exact h

/-- The boundary leaves the position, the speed and the fuel alone. -/
theorem Agree.of_checkBoundary (h : Agree l.checkBoundary s.checkBoundary)
    (hscore : s.score = l.score.toNat) (hstatus : s.status = l.status.value) : Agree l s := by
  obtain ⟨status, score, heq⟩ := l.checkBoundary_frame
  rcases s.checkBoundary_cases with heq' | ⟨status', score', -, heq'⟩
  · rw [heq, heq'] at h
    exact ⟨h.x, h.y, h.vx, h.vy, h.fuel, hscore, hstatus⟩
  · rw [heq, heq'] at h
    exact ⟨h.x, h.y, h.vx, h.vy, h.fuel, hscore, hstatus⟩

/-- The fuel of the firmware wraps around. -/
theorem toNat_fuel_sub (fuel : UInt16) {n : ℕ} (hn : n ≤ 3) :
    (fuel - UInt16.ofNat n).toNat = (2 ^ 16 - n + fuel.toNat) % 2 ^ 16 := by
  rw [UInt16.toNat_sub, UInt16.toNat_ofNat', Nat.mod_eq_of_lt (by omega : n < 2 ^ 16)]

/-- It does not if there is enough. -/
theorem fuel_agrees_iff (fuel : UInt16) (hfuel : 0 < fuel) (n : ℕ) (hn : n ≤ 3) :
    (max 0 ((fuel.toNat : ℤ) - n) = (fuel - UInt16.ofNat n).toNat) ↔ n ≤ fuel.toNat := by
  have hlt := fuel.toNat_lt
  have hpos : 0 < fuel.toNat := by simpa [UInt16.lt_iff_toNat_lt] using hfuel
  rw [toNat_fuel_sub fuel hn]
  omega

theorem pressed_le (input : UInt8) : pressed input ≤ 3 := by
  rw [pressed]
  have := (thrusts input).toNat_le
  have := (steersLeft input).toNat_le
  have := (steersRight input).toNat_le
  omega

/-- Moving the lander gives the same exactly if it is regular. -/
theorem agree_moved_iff (h : Agree l s) (hstatus : l.status = .playing) :
    Agree (l.moved input)
      { s with
        frameSeq := s.frameSeq + 1
        vx := l.nextVx input
        vy := l.nextVy input
        fuel := if 0 < l.fuel then max 0 (s.fuel - pressed input) else s.fuel
        x := s.x + l.nextVx input
        y := s.y + l.nextVy input } ↔
      l.Regular input := by
  have hfuel : (if 0 < l.fuel then max 0 (s.fuel - pressed input) else s.fuel) =
      ((if 0 < l.fuel then l.fuel - UInt16.ofNat (pressed input) else l.fuel).toNat : ℤ) ↔
      l.fuel = 0 ∨ pressed input ≤ l.fuel.toNat := by
    by_cases hpos : 0 < l.fuel
    · rw [if_pos hpos, if_pos hpos, h.fuel, fuel_agrees_iff _ hpos _ (pressed_le input),
        or_iff_right fun hzero => by
          rw [hzero] at hpos
          exact absurd hpos (by decide)]
    · rw [if_neg hpos, if_neg hpos, h.fuel]
      simp only [true_iff]
      left
      simpa [UInt16.lt_iff_toNat_lt, ← UInt16.toNat_inj] using hpos
  rw [GameLander.Regular, hstatus]
  simp only
  rw [← hfuel, ← isInt16_iff, ← isInt16_iff, ← isInt16_iff, ← isInt16_iff, h.x, h.y]
  -- The numbers of the firmware are those of the simulator, wrapped around.
  constructor
  · rintro ⟨hx, hy, hvx, hvy, hfuel, -, -⟩
    exact ⟨hfuel, hvx, hvy, hx, hy⟩
  · rintro ⟨hfuel, hvx, hvy, hx, hy⟩
    exact ⟨hx, hy, hvx, hvy, hfuel, h.score, h.status⟩

/-- After the end, the score is what makes a difference. -/
theorem agree_finished_iff (h : Agree l s) (hstatus : l.status ≠ .playing) :
    Agree (l.task input) (s.tick input) ↔ l.Regular input := by
  have hs : s.status ≠ 0 := by
    rw [h.status]
    cases hl : l.status with
    | playing => exact absurd hl hstatus
    | landed => decide
    | crashed => decide
  have hrestarts : (input &&& 0x10 ≠ 0 ∨ input &&& 0x20 ≠ 0) ↔ restarts input = true := by
    rw [restarts, Bool.or_eq_true, decide_eq_true_eq, decide_eq_true_eq]
    rfl
  have hregular : l.Regular input ↔ (restarts input = true → l.score = 0) := by
    rw [GameLander.Regular]
    split
    · next hl => exact absurd hl hstatus
    · rfl
  rw [GameLander.task_of_finished hstatus, hregular, SimLander.tick]
  simp only
  rw [if_neg hs]
  simp only [hrestarts]
  by_cases hr : restarts input = true
  · -- The score is all that `reset_lander` leaves.
    rw [if_pos hr, if_pos hr]
    constructor
    · intro hreset _
      have hzero : (0 : ℤ) = l.score.toNat := hreset.score
      exact UInt16.toNat_inj.1 (by rw [UInt16.toNat_zero]; omega)
    · intro hscore
      have hzero : (0 : ℤ) = l.score.toNat := by rw [hscore hr]; rfl
      exact ⟨rfl, rfl, rfl, rfl, rfl, hzero, rfl⟩
  · rw [if_neg hr, if_neg hr]
    exact ⟨fun _ h => absurd h hr, fun _ => ⟨h.x, h.y, h.vx, h.vy, h.fuel, h.score, h.status⟩⟩

/-- A frame is the same for both exactly if it is regular. -/
theorem agree_task_iff (h : Agree l s) (hinv : s.Inv) :
    Agree (l.task input) (s.tick input) ↔ l.Regular input := by
  have hframe : Agree l { s with frameSeq := s.frameSeq + 1 } :=
    ⟨h.x, h.y, h.vx, h.vy, h.fuel, h.score, h.status⟩
  by_cases hstatus : l.status = .playing
  · have hs : s.status = 0 := by rw [h.status, hstatus]; rfl
    rw [GameLander.task_of_playing hstatus, SimLander.tick]
    simp only
    rw [if_pos hs, SimLander.play, SimLander.applyControls_eq hframe, ← agree_moved_iff h hstatus]
    refine ⟨fun hboundary => hboundary.of_checkBoundary h.score h.status, fun hmoved => ?_⟩
    -- The score does not wrap, as it was 0.
    have hscore := h.score.symm.trans (hinv.score hs)
    have hfuel := hmoved.fuel
    have hle := hinv.fuel
    have hpos := h.fuel
    simp only [GameLander.moved] at hfuel
    refine hmoved.checkBoundary ⟨hinv.padX, hinv.padY, hinv.padW, ?_, hinv.score⟩ ?_
    · simp only
      split_ifs <;> omega
    · simp only [GameLander.moved]
      split_ifs at hfuel ⊢ <;> omega
  · exact agree_finished_iff h hstatus

/-! ## Runs -/

theorem lander_frame {g : RetroGames} (h : g.running = true) (mask : UInt8) :
    (g.frame mask).lander = g.lander.task mask := by
  have hrunning : (g.inputSetState mask).running = true := h
  rw [RetroGames.frame, RetroGames.retroGamesTask, if_pos hrunning, inputGetState, UInt8.or_zero]
  rfl

/-- The frames of a run after `retro_games_start` are all of a running game. -/
theorem running_frame {g : RetroGames} (h : g.running = true) (mask : UInt8) :
    (g.frame mask).running = true := by
  rw [RetroGames.frame, RetroGames.retroGamesTask]
  split_ifs
  · exact h
  · exact h

theorem lander_frame_sim {s : SliverSimulator} (h : s.activeApp = 3) (mask : UInt8) :
    (s.frame mask).lander = s.lander.tick mask := by
  have hactive : (s.setInput mask).activeApp = 3 := h
  rw [SliverSimulator.frame, SliverSimulator.gameTick, if_neg (not_not.2 hactive)]
  rfl

/-- The states of a run: the game of the firmware is running, and that of the simulator is
    shown. -/
structure Running (g : RetroGames) (s : SliverSimulator) : Prop where
  running : g.running = true
  activeApp : s.activeApp = 3
  inv : s.lander.Inv

/-- The games are in lockstep as long as frames are regular. -/
theorem lockstep : Streams.Lockstep RetroGames.frame SliverSimulator.frame
    (fun g s => Agree g.lander s.lander) Running (fun g mask => g.lander.Regular mask) where
  related_iff mask hagree h := by
    rw [lander_frame h.running, lander_frame_sim h.activeApp]
    exact agree_task_iff hagree h.inv
  inv {g s} mask _ h _ := by
    refine ⟨running_frame h.running mask, ?_, ?_⟩
    · rw [SliverSimulator.frame, SliverSimulator.gameTick]
      split_ifs
      · exact h.activeApp
      · exact h.activeApp
    · rw [lander_frame_sim h.activeApp]
      exact h.inv.tick mask

/-- The landers are the same after every frame of a run exactly if all of its frames are
    regular. -/
theorem agree_run_iff (masks : List UInt8) :
    (∀ ms, ms <+: masks → Agree (ms.foldl RetroGames.frame .started).lander
      (ms.foldl SliverSimulator.frame .constructed).lander) ↔
    ∀ ms m, ms ++ [m] <+: masks → (ms.foldl RetroGames.frame .started).lander.Regular m :=
  lockstep.forall_prefix_iff ⟨rfl, rfl, rfl, rfl, rfl, rfl, rfl⟩
    ⟨rfl, rfl, rfl, rfl, rfl, Int.le_refl _, fun _ => rfl⟩ masks

/-- Steering right, then left, then left with thrust lands on the pad. -/
def landing : List UInt8 :=
  List.replicate 16 inputBtnRight ++ List.replicate 7 inputBtnLeft ++
    List.replicate 17 (inputBtnUp ||| inputBtnLeft)

/-- Started again after a landing, the firmware keeps the score and the simulator clears it. -/
theorem restart_disagrees :
    ((landing ++ [inputBtnA]).foldl RetroGames.frame .started).lander.score = 543 ∧
      ((landing ++ [inputBtnA]).foldl SliverSimulator.frame .constructed).lander.score = 0 ∧
      ¬ Agree ((landing ++ [inputBtnA]).foldl RetroGames.frame .started).lander
        ((landing ++ [inputBtnA]).foldl SliverSimulator.frame .constructed).lander := by
  have hfirmware :
      ((landing ++ [inputBtnA]).foldl RetroGames.frame .started).lander.score = 543 := by
    decide +kernel
  have hsimulator :
      ((landing ++ [inputBtnA]).foldl SliverSimulator.frame .constructed).lander.score = 0 := by
    decide +kernel
  refine ⟨hfirmware, hsimulator, fun h => ?_⟩
  have hscore := h.score
  rw [hfirmware, hsimulator] at hscore
  exact absurd hscore (by decide)

-- With thrust and both sides pressed, two units of fuel are one too few.
example :
    ((List.replicate 167 0x0D).foldl RetroGames.frame .started).lander.fuel = 65535 ∧
      ((List.replicate 167 0x0D).foldl SliverSimulator.frame .constructed).lander.fuel = 0 := by
  decide +kernel

end SliverOS
