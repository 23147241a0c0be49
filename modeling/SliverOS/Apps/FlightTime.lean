import SliverOS.Apps.LanderFlight

/-!
# How long a flight can be

A thrust burns at least one unit of fuel, and changes the speed by two, so that the frames of a
flight are as many as its speed at the end and twice its thrusts. The speed at the end is limited by
the height that the lander has fallen. With the fuel that is left after a frame burned more than
there was, the lander hovers on.

* `flight_bounded`: a flight whose frames burn no more fuel than there is ends within 1258 frames,
  and others last as long as one likes.
-/

namespace SliverOS

open Streams

variable {g : RetroGames} {l : GameLander} {mask : UInt8} {masks : List UInt8} {n : ℕ}

/-- The lander flies, before the frames and after each of them. -/
def RetroGames.Flies (g : RetroGames) (masks : List UInt8) : Prop :=
  ∀ ms, ms <+: masks → (ms.foldl RetroGames.frame g).lander.status = .playing

namespace GameLander

/-! ## The end of a flight -/

/-- A lander that has flown for some frames: the fuel burned pays for the thrusts, and the speed
    downwards for the height. -/
structure Aloft (n : ℕ) (l : GameLander) : Prop where
  status : l.status = .playing
  thrusts : ∃ thrusts : ℕ, thrusts + l.fuel.toNat ≤ 500 ∧ l.vy.toInt = n - 2 * thrusts
  height : l.y.toInt < 560
  fall : 0 ≤ l.vy.toInt → l.vy.toInt * (l.vy.toInt + 1) ≤ 2 * (l.y.toInt + 2 ^ 15)

/-- The speed of a fall is limited by its height. -/
theorem Aloft.vy_le (h : Aloft n l) : l.vy.toInt ≤ 257 := by
  by_contra hlt
  have hfall := h.fall (by omega)
  have hheight := h.height
  nlinarith

theorem Aloft.length_le (h : Aloft n l) : n ≤ 1257 := by
  obtain ⟨thrusts, hfuel, hvy⟩ := h.thrusts
  have hle := h.vy_le
  omega

/-- A lander that flies on after the boundary was checked is above it. -/
theorem of_checkBoundary_playing (h : l.checkBoundary.status = .playing) :
    l.checkBoundary = l ∧ l.y.toInt < 560 := by
  have hhigh : ¬landingPadY - 4 ≤ l.y.toInt.tdiv 10 := by
    intro hlow
    rw [checkBoundary] at h
    simp only [hlow, if_true] at h
    split_ifs at h
  refine ⟨by rw [checkBoundary]; exact if_neg hhigh, ?_⟩
  by_contra hge
  have hdiv : (560 : ℤ).tdiv 10 ≤ l.y.toInt.tdiv 10 := Int.tdiv_le_tdiv (by decide) (by omega)
  exact hhigh hdiv

/-- The fuel of a frame: a thrust burns one unit at least. -/
theorem fuel_moved (h : l.status = .playing) (hfuel : l.EnoughFuel mask) :
    ((l.moved mask).fuel.toNat + if 0 < l.fuel then (SliverOS.thrusts mask).toNat else 0) ≤
      l.fuel.toNat := by
  have hpressed := pressed_le mask
  have hthrusts : (SliverOS.thrusts mask).toNat ≤ pressed mask := by
    rw [pressed]
    omega
  by_cases hpos : 0 < l.fuel
  · have hne : l.fuel.toNat ≠ 0 := by
      rw [UInt16.lt_iff_toNat_lt, UInt16.toNat_zero] at hpos
      omega
    have hle := (hfuel h).resolve_left fun hzero => hne (by rw [hzero, UInt16.toNat_zero])
    have hlt := l.fuel.toNat_lt
    simp only [moved, hpos, if_true, toNat_fuel_sub l.fuel hpressed]
    omega
  · simp only [moved, hpos, if_false]
    omega

/-- A lander that is not below the ground has not gone above what is representable. -/
theorem y_moved (hup : -2 ^ 11 ≤ l.nextVy mask) (hdown : l.nextVy mask ≤ 2 ^ 11)
    (hheight : l.y.toInt < 560) (hheight' : (l.moved mask).y.toInt < 560) :
    (l.moved mask).y.toInt = l.y.toInt + l.nextVy mask := by
  by_contra hwraps
  have hlow := Int16.le_toInt l.y
  have hnot : ¬IsInt16 (l.y.toInt + l.nextVy mask) := fun hfits =>
    hwraps ((isInt16_iff _).2 hfits).symm
  have hmod : (l.moved mask).y.toInt = (l.y.toInt + l.nextVy mask).bmod (2 ^ 16) :=
    Int16.toInt_ofInt ..
  rw [IsInt16] at hnot
  rw [Int.bmod_def] at hmod
  split_ifs at hmod <;> omega

/-- A fall starts, or goes on with a speed that is one more or less. -/
theorem fall_next {vy y : ℤ} {burns : ℕ} (hburns : burns ≤ 1)
    (hfall : 0 ≤ vy → vy * (vy + 1) ≤ 2 * (y + 2 ^ 15)) (hvy : 0 ≤ vy + 1 - 2 * burns)
    (hlow : -2 ^ 15 ≤ y + (vy + 1 - 2 * burns)) :
    (vy + 1 - 2 * burns) * (vy + 1 - 2 * burns + 1) ≤
      2 * (y + (vy + 1 - 2 * burns) + 2 ^ 15) := by
  by_cases hrises : vy < 0
  · -- The fall starts.
    have hzero : vy + 1 - 2 * burns = 0 := by omega
    rw [hzero] at hlow ⊢
    omega
  · have hcast : (burns : ℤ) = 0 ∨ (burns : ℤ) = 1 := by omega
    have hbefore := hfall (by omega)
    rcases hcast with hzero | hone
    · rw [hzero]
      nlinarith
    · rw [hone]
      nlinarith

/-- A frame after which the lander still flies. -/
theorem Aloft.task (h : Aloft n l) (hfuel : l.EnoughFuel mask)
    (hstatus : (l.task mask).status = .playing) : Aloft (n + 1) (l.task mask) := by
  rw [task_of_playing h.status] at hstatus ⊢
  obtain ⟨heq, hheight⟩ := of_checkBoundary_playing hstatus
  rw [heq] at hstatus ⊢
  obtain ⟨thrusts, hsum, hvy⟩ := h.thrusts
  have hburned := fuel_moved h.status hfuel
  have hle := h.vy_le
  have hlength := h.length_le
  have hbelow := h.height
  have hup : (SliverOS.thrusts mask).toNat ≤ 1 := Bool.toNat_le _
  have hnext : l.nextVy mask =
      l.vy.toInt + 1 - 2 * (if 0 < l.fuel then (SliverOS.thrusts mask).toNat else 0 : ℕ) := by
    rw [nextVy]
    split_ifs <;> simp
  set burns := if 0 < l.fuel then (SliverOS.thrusts mask).toNat else 0 with hburns
  have hburns' : burns ≤ 1 := by
    rw [hburns]
    split_ifs
    · exact hup
    · exact Nat.zero_le 1
  have hvy' : (l.moved mask).vy.toInt = l.nextVy mask :=
    ((isInt16_iff _).2 ⟨by omega, by omega⟩).symm
  have hy' := y_moved (by omega) (by omega) hbelow hheight
  refine ⟨hstatus, ⟨thrusts + burns, by omega, ?_⟩, hheight, fun hfalls => ?_⟩
  · rw [hvy', hnext]
    push_cast
    omega
  · have hlow' := Int16.le_toInt (l.moved mask).y
    rw [hvy', hnext] at hfalls ⊢
    rw [hy', hnext] at hlow' ⊢
    exact fall_next hburns' h.fall hfalls hlow'

end GameLander

/-- A flight whose frames burn no more fuel than there is ends within 1258 frames. -/
theorem length_le_of_flies (h : Throughout RetroGames.frame
      (fun g mask => g.lander.EnoughFuel mask) g.retroGamesStart masks)
    (hflies : g.retroGamesStart.Flies masks) : masks.length ≤ 1257 := by
  have hplaying := (forall_prefix_iff (f := RetroGames.frame)
    (G := fun g : RetroGames => g.lander.status = .playing)).1 hflies
  have hrun : Throughout RetroGames.frame (fun g mask => g.lander.EnoughFuel mask ∧
      (g.frame mask).lander.status = .playing) g.retroGamesStart masks :=
    fun ms mask hms => ⟨h ms mask hms, hplaying.2 ms mask hms⟩
  have hstart : g.retroGamesStart.lander.Aloft 0 :=
    ⟨rfl, ⟨0, by change 0 + (500 : UInt16).toNat ≤ 500; decide, rfl⟩,
      by change (5 * 10 : Int16).toInt < 560; decide, fun _ => by
        change (0 : Int16).toInt * ((0 : Int16).toInt + 1) ≤ 2 * ((5 * 10 : Int16).toInt + 2 ^ 15)
        decide⟩
  have hinv := hrun.inv_length
    (I := fun n g => g.running = true ∧ g.lander.Aloft n) ⟨rfl, hstart⟩
    fun n g mask ⟨hrunning, haloft⟩ ⟨hfuel, hstatus⟩ => by
      rw [lander_frame hrunning] at hstatus ⊢
      exact ⟨running_frame hrunning mask, haloft.task hfuel hstatus⟩
  exact hinv.2.length_le

/-! ## A flight without an end -/

namespace GameLander

/-- The lander is near the height of its start: nothing wraps around there, and nothing is below
    it. -/
structure Near (l : GameLander) (y vy : ℤ) (fuel : ℕ) : Prop where
  status : l.status = .playing
  y : l.y.toInt = y
  vy : l.vy.toInt = vy
  fuel : l.fuel.toNat = fuel

variable {y vy : ℤ} {fuel : ℕ}

theorem Near.task (h : Near l y vy fuel) (hy : 40 ≤ y ∧ y ≤ 60) (hvy : -2 ≤ vy ∧ vy ≤ 2)
    (hfuel : 0 < fuel) (mask : UInt8) :
    let vy' := vy + 1 - (2 * (SliverOS.thrusts mask).toNat : ℕ)
    Near (l.task mask) (y + vy') vy' ((2 ^ 16 - pressed mask + fuel) % 2 ^ 16) := by
  intro vy'
  have hpos : 0 < l.fuel := by
    rw [UInt16.lt_iff_toNat_lt, h.fuel, UInt16.toNat_zero]
    exact hfuel
  have hup : (SliverOS.thrusts mask).toNat ≤ 1 := Bool.toNat_le _
  have hnext : l.nextVy mask = vy' := by
    rw [nextVy, if_pos hpos, h.vy]
  have hvy' : (l.moved mask).vy.toInt = vy' := by
    rw [← hnext]
    exact ((isInt16_iff _).2 ⟨by omega, by omega⟩).symm
  have hy' : (l.moved mask).y.toInt = y + vy' := by
    rw [← h.y, ← hnext]
    exact ((isInt16_iff _).2 ⟨by rw [h.y]; omega, by rw [h.y]; omega⟩).symm
  have hhigh : ¬landingPadY - 4 ≤ (l.moved mask).y.toInt.tdiv 10 := by
    have hdiv : (l.moved mask).y.toInt.tdiv 10 ≤ (100 : ℤ).tdiv 10 :=
      Int.tdiv_le_tdiv (by decide) (by omega)
    exact fun hlow => absurd (hlow.trans hdiv) (by decide)
  rw [task_of_playing h.status, checkBoundary, if_neg hhigh]
  refine ⟨h.status, hy', hvy', ?_⟩
  rw [moved, if_pos hpos]
  simp only
  rw [toNat_fuel_sub l.fuel (pressed_le mask), h.fuel]

theorem Near.fuel_lt (h : Near l y vy fuel) : fuel < 2 ^ 16 := by
  rw [← h.fuel]
  exact l.fuel.toNat_lt

/-- A frame without controls. -/
theorem Near.coast (h : Near l y vy fuel) (hy : 40 ≤ y ∧ y ≤ 60) (hvy : -2 ≤ vy ∧ vy ≤ 2)
    (hfuel : 0 < fuel) : Near (l.task 0) (y + (vy + 1)) (vy + 1) fuel := by
  have htask := h.task hy hvy hfuel 0
  have hthrusts : SliverOS.thrusts 0 = false := by decide
  have hpressed : pressed 0 = 0 := by decide
  have hlt := h.fuel_lt
  have hmod : (2 ^ 16 - 0 + fuel) % 2 ^ 16 = fuel := by omega
  simp only [hthrusts, hpressed, hmod] at htask
  simpa using htask

/-- A frame with a thrust. -/
theorem Near.thrust (h : Near l y vy fuel) (hy : 40 ≤ y ∧ y ≤ 60) (hvy : -2 ≤ vy ∧ vy ≤ 2)
    (hfuel : 0 < fuel) (hmask : SliverOS.thrusts mask = true) :
    Near (l.task mask) (y + (vy - 1)) (vy - 1) ((2 ^ 16 - pressed mask + fuel) % 2 ^ 16) := by
  have htask := h.task hy hvy hfuel mask
  have hvy' : vy + 1 - (2 * (SliverOS.thrusts mask).toNat : ℕ) = vy - 1 := by
    rw [hmask, Bool.toNat_true]
    push_cast
    ring
  simp only [hvy'] at htask
  exact htask

/-- The first mask of a round: a thrust, with both sides if the fuel is just enough for two. -/
def firstMask (l : GameLander) : UInt8 := if l.fuel = 2 then 0x1C else inputBtnA

/-- Four frames that leave the lander where it was. -/
def round (l : GameLander) : List UInt8 := [l.firstMask, 0, 0, inputBtnA]

/-- The lander may go on with such a round. -/
def Hovers (l : GameLander) : Prop := ∃ fuel, 2 ≤ fuel ∧ fuel % 2 = 0 ∧ Near l 50 0 fuel

/-- It has an odd number of units of fuel after the first frame, more than there were if they
    were two. -/
theorem fuel_firstMask (h : Near l 50 0 fuel) (htwo : 2 ≤ fuel) (heven : fuel % 2 = 0) :
    SliverOS.thrusts l.firstMask = true ∧
      3 ≤ (2 ^ 16 - pressed l.firstMask + fuel) % 2 ^ 16 ∧
      (2 ^ 16 - pressed l.firstMask + fuel) % 2 ^ 16 % 2 = 1 := by
  have hlt := h.fuel_lt
  rw [firstMask]
  split_ifs with htwo'
  · have hfuel : fuel = 2 := by
      rw [← h.fuel, htwo']
      rfl
    subst hfuel
    decide
  · have hne : fuel ≠ 2 := fun heq => htwo' (UInt16.toNat_inj.1 (h.fuel.trans heq))
    have hpressed : pressed inputBtnA = 1 := by decide
    rw [hpressed]
    exact ⟨by decide, by omega, by omega⟩

end GameLander

namespace RetroGames

theorem flies_cons : g.Flies (mask :: masks) ↔
    g.lander.status = .playing ∧ (g.frame mask).Flies masks := by
  constructor
  · exact fun h => ⟨h [] (List.nil_prefix ..),
      fun ms hms => h (mask :: ms) (List.cons_prefix_cons.2 ⟨rfl, hms⟩)⟩
  · rintro ⟨hstatus, h⟩ ms hms
    cases ms with
    | nil => exact hstatus
    | cons mask' ms =>
      obtain ⟨rfl, hms'⟩ := List.cons_prefix_cons.1 hms
      exact h ms hms'

theorem flies_nil : g.Flies [] ↔ g.lander.status = .playing := by
  refine ⟨fun h => h [] (List.nil_prefix ..), fun h ms hms => ?_⟩
  rw [List.prefix_nil.1 hms]
  exact h

instance decidableFlies (g : RetroGames) : (masks : List UInt8) → Decidable (g.Flies masks)
  | [] => decidable_of_iff _ flies_nil.symm
  | mask :: masks =>
    have : Decidable ((g.frame mask).Flies masks) := decidableFlies (g.frame mask) masks
    decidable_of_iff _ flies_cons.symm

theorem flies_append {masks' : List UInt8} (h : g.Flies masks)
    (h' : (masks.foldl frame g).Flies masks') : g.Flies (masks ++ masks') := by
  induction masks generalizing g with
  | nil => exact h'
  | cons mask masks ih =>
    rw [flies_cons] at h
    rw [List.cons_append, flies_cons]
    exact ⟨h.1, ih h.2 h'⟩

/-- The masks of some rounds. -/
def hovering (g : RetroGames) : ℕ → List UInt8
  | 0 => []
  | n + 1 => g.lander.round ++ (g.lander.round.foldl frame g).hovering n

theorem length_hovering (g : RetroGames) (n : ℕ) : (g.hovering n).length = 4 * n := by
  induction n generalizing g with
  | zero => rfl
  | succ n ih =>
    rw [hovering, List.length_append, ih, GameLander.round, Nat.mul_succ, Nat.add_comm]
    rfl

/-- The lander flies through a round, and is where it was. -/
theorem flies_round (hrunning : g.running = true) (h : g.lander.Hovers) :
    g.Flies g.lander.round ∧ (g.lander.round.foldl frame g).running = true ∧
      (g.lander.round.foldl frame g).lander.Hovers := by
  obtain ⟨fuel, htwo, heven, hnear⟩ := h
  obtain ⟨hthrusts, hfuel, hodd⟩ := GameLander.fuel_firstMask hnear htwo heven
  have hfirst := hnear.thrust (by omega) (by omega) (by omega) hthrusts
  set fuel' := (2 ^ 16 - pressed g.lander.firstMask + fuel) % 2 ^ 16
  have hsecond := hfirst.coast (by omega) (by omega) (by omega)
  have hthird := hsecond.coast (by omega) (by omega) (by omega)
  have hfourth := hthird.thrust (by omega) (by omega) (by omega)
    (show thrusts inputBtnA = true by decide)
  have hpressed : pressed inputBtnA = 1 := by decide
  have hlander (g : RetroGames) (mask : UInt8) (h : g.running = true) :
      (g.frame mask).running = true ∧ (g.frame mask).lander = g.lander.task mask :=
    ⟨running_frame h mask, lander_frame h mask⟩
  obtain ⟨hrunning1, hlander1⟩ := hlander g g.lander.firstMask hrunning
  obtain ⟨hrunning2, hlander2⟩ := hlander _ 0 hrunning1
  obtain ⟨hrunning3, hlander3⟩ := hlander _ 0 hrunning2
  obtain ⟨hrunning4, hlander4⟩ := hlander _ inputBtnA hrunning3
  rw [hlander1] at hlander2
  rw [hlander2] at hlander3
  rw [hlander3] at hlander4
  simp only [GameLander.round, flies_cons, flies_nil, List.foldl_cons, List.foldl_nil]
  rw [hlander4, hlander3, hlander2, hlander1]
  refine ⟨⟨hnear.status, hfirst.status, hsecond.status, hthird.status, hfourth.status⟩, hrunning4,
    _, ?_, ?_, hfourth⟩
  · rw [hpressed]
    omega
  · rw [hpressed]
    omega

theorem flies_hovering (hrunning : g.running = true) (h : g.lander.Hovers) (n : ℕ) :
    g.Flies (g.hovering n) := by
  induction n generalizing g with
  | zero =>
    obtain ⟨fuel, -, -, hnear⟩ := h
    exact flies_nil.2 hnear.status
  | succ n ih =>
    obtain ⟨hflies, hrunning', hhovers⟩ := flies_round hrunning h
    exact flies_append hflies (ih hrunning' hhovers)

end RetroGames

/-- A flight whose frames burn no more fuel than there is ends within 1258 frames; others go on as
    long as one likes. -/
theorem flight_bounded (g : RetroGames) :
    (∀ masks, Throughout RetroGames.frame (fun g mask => g.lander.EnoughFuel mask)
      g.retroGamesStart masks → g.retroGamesStart.Flies masks → masks.length ≤ 1257) ∧
    ∀ n, ∃ masks, masks.length = n ∧ g.retroGamesStart.Flies masks := by
  refine ⟨fun masks => length_le_of_flies, fun n => ?_⟩
  have hhovers : g.retroGamesStart.lander.Hovers :=
    ⟨500, by decide, by decide, rfl, rfl, rfl, rfl⟩
  refine ⟨(g.retroGamesStart.hovering n).take n, ?_, fun ms hms => ?_⟩
  · rw [List.length_take, RetroGames.length_hovering]
    omega
  · exact RetroGames.flies_hovering rfl hhovers n ms (hms.trans (List.take_prefix ..))

/-- With the main thruster pressed in every other frame, there is enough fuel for 200 frames. -/
example : Throughout RetroGames.frame (fun g mask => g.lander.EnoughFuel mask) .started
      (List.replicate 100 [inputBtnA, 0]).flatten ∧
    RetroGames.started.Flies (List.replicate 100 [inputBtnA, 0]).flatten := by
  decide +kernel

end SliverOS
