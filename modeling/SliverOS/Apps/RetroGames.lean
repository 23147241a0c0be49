import Mathlib

/-!
# Space Micro-Lander

The lander game twice: that of the firmware, `os/apps/retro_games/retro_games.c`, with the
input of `input.c`, and that of the browser, the lander of `flasher/src/protocol/simulator.js`.

The numbers of the simulator are integers here, which those of JavaScript are up to `2 ^ 53`.
-/

namespace SliverOS

/-! ## Input -/

/-- `INPUT_BTN_UP`. -/
def inputBtnUp : UInt8 := 0x01

/-- `INPUT_BTN_LEFT`. -/
def inputBtnLeft : UInt8 := 0x04

/-- `INPUT_BTN_RIGHT`. -/
def inputBtnRight : UInt8 := 0x08

/-- `INPUT_BTN_A`. -/
def inputBtnA : UInt8 := 0x10

/-- `INPUT_BTN_B`. -/
def inputBtnB : UInt8 := 0x20

/-- The input thrusts. -/
def thrusts (input : UInt8) : Bool := input &&& inputBtnUp ≠ 0 || input &&& inputBtnA ≠ 0

/-- The input steers left. -/
def steersLeft (input : UInt8) : Bool := input &&& inputBtnLeft ≠ 0

/-- The input steers right. -/
def steersRight (input : UInt8) : Bool := input &&& inputBtnRight ≠ 0

/-- The input starts a finished game again. -/
def restarts (input : UInt8) : Bool := input &&& inputBtnA ≠ 0 || input &&& inputBtnB ≠ 0

/-- `input_get_state`: the input of the host, and the wired buttons that are low. -/
def inputGetState (hostInputState low : UInt8) : UInt8 := hostInputState ||| low

/-! ## The firmware -/

/-- `LANDING_PAD_X`. -/
def landingPadX : ℤ := 50

/-- `LANDING_PAD_Y`. -/
def landingPadY : ℤ := 60

/-- `LANDING_PAD_W`. -/
def landingPadW : ℤ := 28

/-- `game_status_t`. -/
inductive GameStatus
  | playing
  | landed
  | crashed
  deriving DecidableEq

/-- The value of a status. -/
def GameStatus.value : GameStatus → ℤ
  | playing => 0
  | landed => 1
  | crashed => 2

/-- `game_lander_t`. -/
structure GameLander where
  x : Int16
  y : Int16
  vx : Int16
  vy : Int16
  fuel : UInt16
  score : UInt16
  status : GameStatus

namespace GameLander

variable (l : GameLander) (input : UInt8)

/-- `reset_lander`. -/
def resetLander : GameLander :=
  { l with x := 20 * 10, y := 5 * 10, vx := 5, vy := 0, fuel := 500, status := .playing }

/-- The player controls of `retro_games_task`. -/
def applyControls : GameLander :=
  if 0 < l.fuel then
    let l := if thrusts input then { l with vy := l.vy - 2, fuel := l.fuel - 1 } else l
    let l := if steersLeft input then { l with vx := l.vx - 1, fuel := l.fuel - 1 } else l
    if steersRight input then { l with vx := l.vx + 1, fuel := l.fuel - 1 } else l
  else l

/-- The landing boundary of `retro_games_task`. -/
def checkBoundary : GameLander :=
  let px := l.x.toInt.tdiv 10
  let py := l.y.toInt.tdiv 10
  if landingPadY - 4 ≤ py then
    if landingPadX ≤ px ∧ px + 6 ≤ landingPadX + landingPadW ∧ l.vy.toInt < 8 ∧
        |l.vx.toInt| < 4 then
      { l with status := .landed, score := l.score + (100 + l.fuel) }
    else { l with status := .crashed }
  else l

/-- `retro_games_task` while the game is played. -/
def play : GameLander :=
  let l := applyControls { l with vy := l.vy + 1 } input
  checkBoundary { l with x := l.x + l.vx, y := l.y + l.vy }

/-- The lander of `retro_games_task`. -/
def task : GameLander :=
  match l.status with
  | .playing => l.play input
  | _ => if restarts input then l.resetLander else l

end GameLander

/-- The variables of `retro_games.c` and `input.c`. -/
structure RetroGames where
  lander : GameLander
  frameCounter : UInt32
  running : Bool
  hostInputState : UInt8

namespace RetroGames

/-- The variables before any call. -/
def zero : RetroGames := ⟨⟨0, 0, 0, 0, 0, 0, .playing⟩, 0, false, 0⟩

variable (g : RetroGames)

/-- `input_set_state`. -/
def inputSetState (state : UInt8) : RetroGames := { g with hostInputState := state }

/-- `retro_games_init`. -/
def retroGamesInit : RetroGames :=
  { g with
    lander := { g.lander.resetLander with score := 0 }
    running := false
    hostInputState := 0 }

/-- `retro_games_start`. -/
def retroGamesStart : RetroGames := { g with running := true, lander := g.lander.resetLander }

/-- `retro_games_reset`. -/
def retroGamesReset : RetroGames := { g with lander := { g.lander.resetLander with score := 0 } }

/-- `retro_games_task`, with the wired buttons that are low. -/
def retroGamesTask (low : UInt8) : RetroGames :=
  if g.running then
    { g with
      frameCounter := g.frameCounter + 1
      lander := g.lander.task (inputGetState g.hostInputState low) }
  else g

/-- A frame with an input of the host only. -/
def frame (mask : UInt8) : RetroGames := (g.inputSetState mask).retroGamesTask 0

/-- The game as it is started. -/
def started : RetroGames := zero.retroGamesInit.retroGamesStart

end RetroGames

/-! ## The simulator -/

/-- `lander` of a `SliverSimulator`. -/
structure SimLander where
  x : ℤ
  y : ℤ
  vx : ℤ
  vy : ℤ
  fuel : ℤ
  score : ℤ
  status : ℤ
  padX : ℤ
  padY : ℤ
  padW : ℤ
  frameSeq : ℤ

namespace SimLander

variable (l : SimLander) (inputState : UInt8)

/-- `resetGame`. -/
def resetGame : SimLander :=
  { l with x := 200, y := 50, vx := 5, vy := 0, fuel := 500, status := 0, score := 0 }

/-- The controls of `_gameTick`. -/
def applyControls : SimLander :=
  if 0 < l.fuel then
    let l := if inputState &&& 0x01 ≠ 0 ∨ inputState &&& 0x10 ≠ 0 then
      { l with vy := l.vy - 2, fuel := max 0 (l.fuel - 1) } else l
    let l := if inputState &&& 0x04 ≠ 0 then
      { l with vx := l.vx - 1, fuel := max 0 (l.fuel - 1) } else l
    if inputState &&& 0x08 ≠ 0 then
      { l with vx := l.vx + 1, fuel := max 0 (l.fuel - 1) } else l
  else l

/-- The boundary of `_gameTick`. -/
def checkBoundary : SimLander :=
  let px := l.x.fdiv 10
  let py := l.y.fdiv 10
  if l.padY - 4 ≤ py then
    if (l.padX ≤ px ∧ px + 6 ≤ l.padX + l.padW) ∧ l.vy < 8 ∧ |l.vx| < 4 then
      { l with status := 1, score := l.score + (100 + l.fuel) }
    else { l with status := 2 }
  else l

/-- `_gameTick` while the game is played. -/
def play : SimLander :=
  let l := applyControls { l with vy := l.vy + 1 } inputState
  checkBoundary { l with x := l.x + l.vx, y := l.y + l.vy }

/-- The lander of `_gameTick`. -/
def tick : SimLander :=
  let l := { l with frameSeq := l.frameSeq + 1 }
  if l.status = 0 then l.play inputState
  else if inputState &&& 0x10 ≠ 0 ∨ inputState &&& 0x20 ≠ 0 then l.resetGame
  else l

end SimLander

/-- The game of a `SliverSimulator`. -/
structure SliverSimulator where
  activeApp : ℤ
  lander : SimLander
  inputState : UInt8

namespace SliverSimulator

/-- A simulator as it is constructed. -/
def constructed : SliverSimulator where
  activeApp := 3
  lander :=
    { x := 200, y := 50, vx := 5, vy := 0, fuel := 500, score := 0, status := 0
      padX := 50, padY := 60, padW := 28, frameSeq := 0 }
  inputState := 0

variable (s : SliverSimulator)

/-- `setInput`. -/
def setInput (mask : UInt8) : SliverSimulator := { s with inputState := mask }

/-- `_gameTick`. -/
def gameTick : SliverSimulator :=
  if s.activeApp ≠ 3 then s else { s with lander := s.lander.tick s.inputState }

/-- A frame with an input. -/
def frame (mask : UInt8) : SliverSimulator := (s.setInput mask).gameTick

end SliverSimulator

end SliverOS
