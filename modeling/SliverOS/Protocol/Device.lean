import SliverOS.Apps.RetroGames
import SliverOS.Protocol.Messages
import SliverOS.Protocol.Shell
import SliverOS.Streams.Run

/-!
# The protocol service

`os/protocol/protocol_service.c` on a host: its task takes the bytes received one at a time,
handles the commands in them, and then sends what is due of the telemetry. The bytes received
are injected, and those sent popped, by a test or a simulation.

What the service reads of the other subsystems is part of the state, and may be changed by
anything between two calls of the task (`Board.setOutside`).
-/

namespace SliverOS

open Bytes Firmware Queues Wire

/-- The static variables of the service, but for the bytes received, and what it reads and
    writes of the other subsystems, with the frames handled since the start. -/
structure Board where
  service : Service
  parser : SlvrParser
  lastStatusTick : UInt32
  lastGameTick : UInt32
  gameFrameSeq : UInt32
  out : Outgoing
  games : RetroGames
  mem : MkMemStats
  diag : MkDiagIdentity
  block : VfsBlock
  handled : List SlvrFrame

/-- What the other subsystems change of it. -/
structure Outside where
  kernel : MkKernel
  faults : List MkFault
  wifiStats : List UInt8
  netReport : List UInt8
  games : RetroGames
  mem : MkMemStats
  diag : MkDiagIdentity
  block : VfsBlock
  stack : SlvrFrame

namespace Board

variable (b : Board)

/-- The other subsystems have changed what is theirs. -/
def setOutside (o : Outside) : Board :=
  { b with
    service :=
      { b.service with
        kernel := o.kernel
        faults := o.faults
        wifiStats := o.wifiStats
        netReport := o.netReport }
    out := { b.out with stack := o.stack }
    games := o.games
    mem := o.mem
    diag := o.diag
    block := o.block }

/-! ## Commands -/

/-- The messages that a call sends. -/
def messages : Call → List Message
  | .sendHello text => [.of 0x01 (ascii text)]
  | .sendDeviceInfo => [.of SlvrMsg.deviceInfo.toByte (recordImage (sendDeviceInfo b.diag).fields)]
  | .sendDeviceStatus status => [.of SlvrMsg.deviceStatus.toByte status.image]
  | .sendMemoryStatus =>
    [.of SlvrMsg.memoryStatus.toByte (recordImage (sendMemoryStatus b.mem b.diag).fields)]
  | .sendStorageStatus =>
    [.of SlvrMsg.storageStatus.toByte (recordImage (sendStorageStatus b.block).fields)]
  | .sendAppState status => [.of slvrMsgAppState status.image]
  | .sendLog level msg =>
    [.of SlvrMsg.log.toByte
      (recordImage (protocolServiceSendLog level msg b.service.kernel.tick).fields)]
  | .sendPong payload => [.of 0x0C payload]
  | .handleTerminalCommand cmdLine =>
    (handleTerminalCommand b.service.kernel b.mem b.block b.diag cmdLine).map fun text =>
      .of SlvrMsg.terminalOutput.toByte (recordImage (protocolServiceSendTerminal text).fields)
  | .inputSetState _ => []
  | .retroGamesReset => []

/-- A call of `handle_incoming_frame` is made. -/
def perform (c : Call) : Board :=
  match c with
  | .inputSetState mask => { b with games := b.games.inputSetState mask }
  | .retroGamesReset => { b with games := b.games.retroGamesReset }
  | c => { b with out := b.out.sendAll (b.messages c) }

/-- `handle_incoming_frame`, with the calls it makes. -/
def handle (frame : SlvrFrame) : Board :=
  let (service, calls) := handleIncomingFrame b.service frame
  calls.foldl perform { b with service, handled := b.handled ++ [frame] }

/-- `slvr_parser_feed_byte`, and the command handled that it delivers. -/
def feed (byte : UInt8) : Board :=
  match slvrParserFeedByte b.parser byte with
  | (parser, some frame) => handle { b with parser } frame
  | (parser, none) => { b with parser }

/-! ## Telemetry -/

/-- The game state of `protocol_service_task`. -/
def gameState : GameState where
  landerX := b.games.lander.x
  landerY := b.games.lander.y
  landerVx := b.games.lander.vx
  landerVy := b.games.lander.vy
  fuel := b.games.lander.fuel
  score := b.games.lander.score
  status := UInt8.ofNat b.games.lander.status.ctorIdx
  padX := 50
  padY := 60
  padW := 28
  frameSeq := b.gameFrameSeq

/-- The message with the game state. -/
def gameMessage : Message := .of SlvrMsg.gameState.toByte (recordImage b.gameState.fields)

/-- The game is the active application. -/
def Playing : Prop := b.service.kernel.activeApp = MkAppId.retroGames.toByte

instance : Decidable b.Playing := inferInstanceAs (Decidable (_ = _))

/-- The game state is to be sent. -/
def GameDue (currentTick : UInt32) : Prop :=
  b.service.connected = true ∧ b.Playing ∧ 50 ≤ currentTick - b.lastGameTick

instance (currentTick : UInt32) : Decidable (b.GameDue currentTick) :=
  inferInstanceAs (Decidable (_ ∧ _ ∧ _))

/-- The status is to be sent. -/
def StatusDue (currentTick : UInt32) : Prop :=
  b.service.connected = true ∧ 500 ≤ currentTick - b.lastStatusTick

instance (currentTick : UInt32) : Decidable (b.StatusDue currentTick) :=
  inferInstanceAs (Decidable (_ ∧ _))

/-- The messages with the status: `send_app_state` sends none for an application that is not
    there. -/
def statusMessages : List Message :=
  b.messages b.service.sendDeviceStatus ++ b.messages .sendMemoryStatus ++
    if b.Playing then []
    else ((MkAppId.ofByte? b.service.kernel.activeApp).map fun appId =>
      b.messages (b.service.sendAppState appId)).getD []

/-- The game state is sent when it is to be. -/
def broadcastGame (currentTick : UInt32) : Board :=
  if b.GameDue currentTick then
    { b with
      out := b.out.send b.gameMessage
      gameFrameSeq := b.gameFrameSeq + 1
      lastGameTick := currentTick }
  else b

/-- The status is sent when it is to be. -/
def broadcastStatus (currentTick : UInt32) : Board :=
  if b.StatusDue currentTick then
    { b with out := b.out.sendAll b.statusMessages, lastStatusTick := currentTick }
  else b

/-- The telemetry of `protocol_service_task`. -/
def broadcast (currentTick : UInt32) : Board :=
  (b.broadcastGame currentTick).broadcastStatus currentTick

end Board

/-- `mk_kernel_get_diag_identity` on a host. -/
def mkKernelGetDiagIdentity : MkDiagIdentity where
  gitRevision := "20260904-rev2"
  chipFamily := "ESP32-S3-SIM"
  chipRevision := 1
  flashSizeBytes := 8 * 1024 * 1024
  psramSizeBytes := 8 * 1024 * 1024
  internalSramTotal := 512 * 1024
  internalSramFree := 384 * 1024
  psramTotal := 8 * 1024 * 1024
  psramFree := 8 * 1024 * 1024

/-- The service, with the bytes received. -/
structure Device where
  board : Board
  mockRx : GapRing 2048 UInt8

namespace Device

variable (d : Device)

/-- The loop of `protocol_service_task` on the bytes received, for at most as many iterations as
    `fuel`. -/
def drain : ℕ → Device → Device
  | 0, d => d
  | fuel + 1, d =>
    if d.mockRx.tail = d.mockRx.head then d
    else
      let byte := d.mockRx.slots d.mockRx.tail
      drain fuel ⟨d.board.feed byte, { d.mockRx with tail := d.mockRx.tail + 1 }⟩

/-- `protocol_service_task`: the ring never has more bytes than slots. -/
def protocolServiceTask : Device :=
  let currentTick := d.board.service.kernel.tick
  let d := d.drain 2048
  { d with board := d.board.broadcast currentTick }

/-- `protocol_service_inject_rx_bytes`. -/
def protocolServiceInjectRxBytes (bytes : List UInt8) : Device :=
  { d with mockRx := d.mockRx.offerAll bytes }

/-- `protocol_service_pop_tx_bytes`: the bytes popped. -/
def protocolServicePopTxBytes (maxLen : ℕ) : List UInt8 × Device :=
  let (bytes, transmit) := d.board.out.transmit.protocolServicePopTxBytes maxLen
  (bytes, { d with board := { d.board with out := { d.board.out with transmit } } })

/-- `protocol_service_init`. -/
def protocolServiceInit : Device where
  board :=
    { d.board with
      service := { d.board.service with connected := false, rxFrames := 0 }
      parser := slvrParserInit
      lastStatusTick := 0
      lastGameTick := 0
      gameFrameSeq := 0
      out :=
        { d.board.out with
          txSeq := 0
          transmit := ⟨{ d.board.out.transmit.mock with head := 0, tail := 0 }, 0⟩
          sent := [] }
      handled := [] }
  mockRx := { d.mockRx with head := 0, tail := 0 }

/-- The variables when `app_main` calls `protocol_service_init`, on a simulated flash. -/
def booted : Device where
  board :=
    { service := ⟨MkKernel.booted, [], false, 0, [], []⟩
      parser := slvrParserInit
      lastStatusTick := 0
      lastGameTick := 0
      gameFrameSeq := 0
      out := ⟨0, ⟨⟨fun _ => 0, 0, 0⟩, 0⟩, .zero, []⟩
      games := RetroGames.zero.retroGamesInit
      mem := ⟨0, 0, 0, 0, 0, 0, 0, 0, 0, 0⟩
      diag := mkKernelGetDiagIdentity
      block := (Vfs.powerOn .sim (fun _ => Flash.blank) []).block
      handled := [] }
  mockRx := ⟨fun _ => 0, 0, 0⟩

end Device

/-! ## What is sent -/

/-- What a call does to the game. -/
def Call.play (games : RetroGames) : Call → RetroGames
  | .inputSetState mask => games.inputSetState mask
  | .retroGamesReset => games.retroGamesReset
  | _ => games

/-- The type of the messages of a call. -/
def Call.type? : Call → Option UInt8
  | .sendHello _ => some 0x01
  | .sendDeviceInfo => some SlvrMsg.deviceInfo.toByte
  | .sendDeviceStatus _ => some SlvrMsg.deviceStatus.toByte
  | .sendMemoryStatus => some SlvrMsg.memoryStatus.toByte
  | .sendStorageStatus => some SlvrMsg.storageStatus.toByte
  | .sendAppState _ => some slvrMsgAppState
  | .sendLog .. => some SlvrMsg.log.toByte
  | .sendPong _ => some 0x0C
  | .handleTerminalCommand _ => some SlvrMsg.terminalOutput.toByte
  | .inputSetState _ | .retroGamesReset => none

namespace Board

variable {b : Board}

/-- The messages of a call are of its type. -/
theorem type?_of_mem_messages {c : Call} {m : Message} (h : m ∈ b.messages c) :
    c.type? = some m.type := by
  cases c with
  | inputSetState | retroGamesReset => cases h
  | handleTerminalCommand =>
    obtain ⟨text, -, rfl⟩ := List.mem_map.1 h
    rfl
  | _ =>
    obtain rfl := List.mem_singleton.1 h
    rfl

theorem perform_eq (b : Board) (c : Call) :
    b.perform c = { b with out := b.out.sendAll (b.messages c), games := c.play b.games } := by
  cases c <;> rfl

/-- Calls send their messages in turn, and change nothing else but the game. -/
theorem foldl_perform (calls : List Call) (b : Board) :
    calls.foldl perform b =
      { b with
        out := b.out.sendAll (calls.flatMap b.messages)
        games := calls.foldl Call.play b.games } := by
  induction calls generalizing b with
  | nil => rfl
  | cons c calls ih =>
    rw [List.foldl_cons, ih, perform_eq, List.flatMap_cons, Outgoing.sendAll_append]
    rfl

/-- The messages sent in reply to a frame. -/
def replies (b : Board) (frame : SlvrFrame) : List Message :=
  let (service, calls) := handleIncomingFrame b.service frame
  calls.flatMap ({ b with service } : Board).messages

theorem handle_eq (b : Board) (frame : SlvrFrame) :
    b.handle frame =
      { b with
        service := (handleIncomingFrame b.service frame).1
        handled := b.handled ++ [frame]
        out := b.out.sendAll (b.replies frame)
        games := (handleIncomingFrame b.service frame).2.foldl Call.play b.games } := by
  rw [handle]
  exact foldl_perform _ _

/-- The messages sent when a byte is fed. -/
def feedReplies (b : Board) (byte : UInt8) : List Message :=
  match slvrParserFeedByte b.parser byte with
  | (parser, some frame) => replies { b with parser } frame
  | (_, none) => []

theorem out_feed (b : Board) (byte : UInt8) :
    (b.feed byte).out = b.out.sendAll (b.feedReplies byte) := by
  rw [feed, feedReplies]
  rcases slvrParserFeedByte b.parser byte with ⟨parser, _ | frame⟩
  · rfl
  · simp only [handle_eq]

/-- The parser is fed the byte, and the frame it delivers is handled. -/
theorem parser_feed (b : Board) (byte : UInt8) :
    (b.feed byte).parser = (slvrParserFeedByte b.parser byte).1 ∧
      (b.feed byte).handled = b.handled ++ (slvrParserFeedByte b.parser byte).2.toList := by
  rw [feed]
  rcases slvrParserFeedByte b.parser byte with ⟨parser, _ | frame⟩
  · exact ⟨rfl, (List.append_nil _).symm⟩
  · simp [handle_eq]

theorem out_foldl_feed (b : Board) (bytes : List UInt8) :
    (bytes.foldl feed b).out = b.out.sendAll (Streams.collect feed feedReplies b bytes) := by
  induction bytes generalizing b with
  | nil => rfl
  | cons byte bytes ih =>
    rw [List.foldl_cons, ih, out_feed, Streams.collect, Outgoing.sendAll_append]

/-- The parser reads the bytes fed, and the frames it delivers are handled. -/
theorem parser_foldl_feed (b : Board) (bytes : List UInt8) :
    (bytes.foldl feed b).parser = Streams.Transducer.state slvrParserFeedByte b.parser bytes ∧
      (bytes.foldl feed b).handled =
        b.handled ++ Streams.Transducer.outputs slvrParserFeedByte b.parser bytes := by
  induction bytes generalizing b with
  | nil => exact ⟨rfl, (List.append_nil _).symm⟩
  | cons byte bytes ih =>
    obtain ⟨hparser, hhandled⟩ := b.parser_feed byte
    obtain ⟨ihparser, ihhandled⟩ := ih (b.feed byte)
    rw [List.foldl_cons, ihparser, ihhandled, hparser, hhandled, List.append_assoc]
    exact ⟨rfl, rfl⟩

/-- The telemetry that is due. -/
def due (b : Board) (currentTick : UInt32) : List Message :=
  (if b.GameDue currentTick then [b.gameMessage] else []) ++
    if b.StatusDue currentTick then b.statusMessages else []

theorem type_gameMessage (b : Board) : b.gameMessage.type = 0x0D := rfl

/-- The status starts with a message of its type, and has no other one. -/
theorem statusMessages_eq (b : Board) : ∃ m ms, b.statusMessages = m :: ms ∧ m.type = 0x06 ∧
    ∀ m ∈ ms, m.type = 0x07 ∨ m.type = 0x05 := by
  refine ⟨_, _, rfl, rfl, fun m hm => ?_⟩
  rcases List.mem_cons.1 hm with rfl | hm
  · exact .inl rfl
  · change m ∈ ite _ _ _ at hm
    split_ifs at hm
    · cases hm
    · cases happ : MkAppId.ofByte? b.service.kernel.activeApp with
      | none =>
        rw [happ] at hm
        cases hm
      | some appId =>
        rw [happ] at hm
        obtain rfl := List.mem_singleton.1 hm
        exact .inr rfl

theorem type_statusMessages (b : Board) :
    ∀ m ∈ b.statusMessages, m.type = 0x06 ∨ m.type = 0x07 ∨ m.type = 0x05 := by
  obtain ⟨status, ms, hstatus, htype, hms⟩ := b.statusMessages_eq
  rw [hstatus]
  exact List.forall_mem_cons.2 ⟨.inl htype, fun m hm => .inr (hms m hm)⟩

/-- No telemetry is of another type. -/
theorem type_due (b : Board) (currentTick : UInt32) : ∀ m ∈ b.due currentTick,
    m.type = 0x0D ∨ m.type = 0x06 ∨ m.type = 0x07 ∨ m.type = 0x05 := by
  intro m hm
  rw [due, List.mem_append] at hm
  rcases hm with hm | hm <;> split_ifs at hm
  · obtain rfl := List.mem_singleton.1 hm
    exact .inl b.type_gameMessage
  · cases hm
  · exact .inr (b.type_statusMessages m hm)
  · cases hm

theorem broadcast_eq (b : Board) (currentTick : UInt32) :
    b.broadcast currentTick =
      { b with
        out := b.out.sendAll (b.due currentTick)
        gameFrameSeq := if b.GameDue currentTick then b.gameFrameSeq + 1 else b.gameFrameSeq
        lastGameTick := if b.GameDue currentTick then currentTick else b.lastGameTick
        lastStatusTick := if b.StatusDue currentTick then currentTick else b.lastStatusTick } := by
  rw [broadcast, broadcastGame, due, Outgoing.sendAll_append]
  -- What is due of the status does not depend on the game state sent before.
  by_cases hgame : b.GameDue currentTick
  · simp only [if_pos hgame, broadcastStatus]
    by_cases hstatus : b.StatusDue currentTick
    · simp only [if_pos hstatus]
      exact if_pos hstatus
    · simp only [if_neg hstatus]
      exact if_neg hstatus
  · simp only [if_neg hgame, broadcastStatus]
    by_cases hstatus : b.StatusDue currentTick
    · simp only [if_pos hstatus]
      rfl
    · simp only [if_neg hstatus]
      rfl

end Board

namespace Device

variable {d : Device}

/-- The bytes received are all fed, and the ring is empty then. -/
theorem drain_eq {fuel : ℕ} (d : Device) (h : d.mockRx.contents.length ≤ fuel) :
    (d.drain fuel).board = d.mockRx.contents.foldl Board.feed d.board ∧
      (d.drain fuel).mockRx.contents = [] := by
  induction fuel generalizing d with
  | zero =>
    have hnil := List.length_eq_zero_iff.1 (Nat.le_zero.1 h)
    rw [drain, hnil]
    exact ⟨rfl, rfl⟩
  | succ fuel ih =>
    rw [drain]
    by_cases hempty : d.mockRx.tail = d.mockRx.head
    · have hnil := GapRing.contents_eq_nil hempty
      rw [if_pos hempty, hnil]
      exact ⟨rfl, rfl⟩
    · have hcons := GapRing.contents_eq_cons hempty
      rw [hcons, List.length_cons] at h
      rw [if_neg hempty, hcons, List.foldl_cons]
      exact ih _ (Nat.le_of_succ_le_succ h)

/-- The messages that the task sends. -/
def taskMessages (d : Device) : List Message :=
  Streams.collect Board.feed Board.feedReplies d.board d.mockRx.contents ++
    (d.mockRx.contents.foldl Board.feed d.board).due d.board.service.kernel.tick

/-- The task feeds the bytes received, and sends what is due. -/
theorem protocolServiceTask_eq (d : Device) :
    d.protocolServiceTask.board =
        (d.mockRx.contents.foldl Board.feed d.board).broadcast d.board.service.kernel.tick ∧
      d.protocolServiceTask.mockRx.contents = [] := by
  have hfuel : d.mockRx.contents.length ≤ 2048 := d.mockRx.length_contents_le.trans (by decide)
  obtain ⟨hboard, hempty⟩ := d.drain_eq hfuel
  exact ⟨congrArg (Board.broadcast · d.board.service.kernel.tick) hboard, hempty⟩

theorem out_protocolServiceTask (d : Device) :
    d.protocolServiceTask.board.out = d.board.out.sendAll d.taskMessages := by
  rw [(protocolServiceTask_eq d).1, Board.broadcast_eq, taskMessages, Outgoing.sendAll_append,
    ← Board.out_foldl_feed]

end Device

end SliverOS
