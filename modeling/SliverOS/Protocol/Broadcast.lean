import SliverOS.Protocol.Link

/-!
# The telemetry of the device

What `protocol_service_task` broadcasts, beside its replies to commands, over the runs of the link,
whatever the host writes to the port and however much of it arrives:

* `Link.telemetry_paced`: nothing before a CONNECT has been handled; two game states in turn are
  50 ticks apart at least, two statuses that are broadcast 500; and while the device is connected,
  its task leaves none of them due. A reply can be a status, at any time, but no game state;
* `Link.game_frames_counted`: the client emits the game states with the frame numbers 0, 1, 2, …,
  none of them missing or twice.

Ticks are subtracted modulo 2^32, so that the kernel may run for longer than its counter.
-/

namespace SliverOS

open Browser Bytes Firmware Queues Streams Wire

/-! ## Commands and telemetry -/

/-- The command connects the host. -/
def Firmware.SlvrFrame.Connects (frame : SlvrFrame) : Prop :=
  SlvrCmd.ofType? frame.type = some .connect

instance (frame : SlvrFrame) : Decidable frame.Connects := inferInstanceAs (Decidable (_ = _))

/-- Transitions of applications do not touch the tick and the tasks. -/
@[simp] theorem mkAppTransition_kernel (k : MkKernel) (appId : MkAppId) (newState : MkAppState) :
    (k.mkAppTransition appId newState).1.tick = k.tick ∧
      (k.mkAppTransition appId newState).1.tasks = k.tasks := by
  rw [MkKernel.mkAppTransition]
  split_ifs <;> exact ⟨rfl, rfl⟩

/-- Commands do not touch the tick and the tasks. -/
theorem handleIncomingFrame_kernel (s : Service) (frame : SlvrFrame) :
    (handleIncomingFrame s frame).1.kernel.tick = s.kernel.tick ∧
      (handleIncomingFrame s frame).1.kernel.tasks = s.kernel.tasks := by
  rw [handleIncomingFrame]
  cases SlvrCmd.ofType? frame.type with
  | none => exact ⟨rfl, rfl⟩
  | some cmd =>
    cases cmd with
    | launchApp | exitApp =>
      cases happ : frame.app? <;>
        simp [Service.handleApp, Service.launchApp, Service.exitApp, Service.requestTransition]
    | _ => exact ⟨rfl, rfl⟩

/-- A command connects the host when it says so. -/
theorem connected_handleIncomingFrame (s : Service) (frame : SlvrFrame) :
    (handleIncomingFrame s frame).1.connected = true ↔ s.connected = true ∨ frame.Connects := by
  rw [handleIncomingFrame, SlvrFrame.Connects]
  cases SlvrCmd.ofType? frame.type with
  | none => simp
  | some cmd =>
    cases cmd with
    | launchApp | exitApp =>
      cases happ : frame.app? <;>
        simp [Service.handleApp, Service.launchApp, Service.exitApp, Service.requestTransition]
    | _ => simp

namespace Board

variable {b : Board}

/-- The variables of the telemetry. -/
def schedule (b : Board) : UInt32 × UInt32 × UInt32 :=
  (b.lastStatusTick, b.lastGameTick, b.gameFrameSeq)

theorem feed_schedule (b : Board) (byte : UInt8) :
    (b.feed byte).schedule = b.schedule ∧
      (b.feed byte).service.kernel.tick = b.service.kernel.tick := by
  rw [feed]
  rcases slvrParserFeedByte b.parser byte with ⟨parser, _ | frame⟩
  · exact ⟨rfl, rfl⟩
  · simp only [handle_eq]
    exact ⟨rfl, (handleIncomingFrame_kernel _ _).1⟩

/-- Commands leave the telemetry to the task. -/
theorem foldl_feed_schedule (bytes : List UInt8) (b : Board) :
    (bytes.foldl feed b).schedule = b.schedule ∧
      (bytes.foldl feed b).service.kernel.tick = b.service.kernel.tick := by
  induction bytes generalizing b with
  | nil => exact ⟨rfl, rfl⟩
  | cons byte bytes ih =>
    obtain ⟨hschedule, htick⟩ := b.feed_schedule byte
    obtain ⟨ihschedule, ihtick⟩ := ih (b.feed byte)
    exact ⟨ihschedule.trans hschedule, ihtick.trans htick⟩

/-- The device is connected when a frame handled has connected it. -/
def ConnectedByHost (b : Board) : Prop :=
  b.service.connected = true ↔ ∃ frame ∈ b.handled, frame.Connects

theorem ConnectedByHost.feed (h : b.ConnectedByHost) (byte : UInt8) :
    (b.feed byte).ConnectedByHost := by
  rw [Board.feed]
  rcases slvrParserFeedByte b.parser byte with ⟨parser, _ | frame⟩
  · exact h
  · simp only [handle_eq]
    rw [ConnectedByHost] at h ⊢
    rw [connected_handleIncomingFrame, h]
    simp [or_and_right, exists_or]

theorem ConnectedByHost.foldl_feed (h : b.ConnectedByHost) (bytes : List UInt8) :
    (bytes.foldl Board.feed b).ConnectedByHost := by
  induction bytes generalizing b with
  | nil => exact h
  | cons byte bytes ih => exact ih (h.feed byte)

/-! ## Messages of a type -/

/-- The telemetry due has one game state when that is due, and one status when that is. -/
theorem countP_due (b : Board) (currentTick : UInt32) :
    (b.due currentTick).countP (·.type = 0x0D) = (if b.GameDue currentTick then 1 else 0) ∧
      (b.due currentTick).countP (·.type = 0x06) = if b.StatusDue currentTick then 1 else 0 := by
  obtain ⟨status, ms, hstatus, htype, hms⟩ := b.statusMessages_eq
  have hcount (type : UInt8) (hne : ∀ m ∈ ms, m.type ≠ type) : ms.countP (·.type = type) = 0 :=
    List.countP_eq_zero.2 fun m hm => by simpa using hne m hm
  have hgame : ms.countP (·.type = 0x0D) = 0 := hcount _ fun m hm heq => by
    rcases hms m hm with h | h <;> exact absurd (heq.symm.trans h) (by decide)
  have hrest : ms.countP (·.type = 0x06) = 0 := hcount _ fun m hm heq => by
    rcases hms m hm with h | h <;> exact absurd (heq.symm.trans h) (by decide)
  rw [due, hstatus]
  by_cases hgameDue : b.GameDue currentTick <;> by_cases hstatusDue : b.StatusDue currentTick <;>
    simp [hgameDue, hstatusDue, type_gameMessage, htype, hgame, hrest]

/-- No reply to a command is a game state. -/
theorem type_messages_ne (b : Board) (c : Call) : ∀ m ∈ b.messages c, m.type ≠ 0x0D := by
  intro m hm hgame
  have htype := type?_of_mem_messages hm
  rw [hgame] at htype
  cases c with
  | inputSetState | retroGamesReset => cases htype
  | _ => exact absurd (Option.some.inj htype) (by decide)

theorem type_feedReplies_ne (b : Board) (byte : UInt8) :
    ∀ m ∈ b.feedReplies byte, m.type ≠ 0x0D := by
  intro m hm
  rw [feedReplies] at hm
  split at hm
  · obtain ⟨c, -, hc⟩ := List.mem_flatMap.1 hm
    exact type_messages_ne _ c m hc
  · cases hm

end Board

/-- The frame number of a game state. -/
def Message.frameSeq? (m : Message) : Option ℕ :=
  if m.type = 0x0D then (unpackGameState m.payload).map UnpackedGameState.frameSeq else none

/-- The frame number of a game state, as it is received. -/
def Wire.Received.frameSeq? (frame : Received) : Option ℕ :=
  if frame.type = 0x0D then (unpackGameState frame.payload).map UnpackedGameState.frameSeq
  else none

/-- The frame number of the event of a game state. -/
def Browser.ClientEvent.frameSeq? : ClientEvent → Option ℕ
  | .gameState game => some game.frameSeq
  | _ => none

/-- The event of a game state is emitted for a game state, and for nothing else. -/
theorem filterMap_frameSeq?_frameEvents (frame : Received) :
    (frameEvents frame).filterMap ClientEvent.frameSeq? = frame.frameSeq?.toList := by
  by_cases hgame : frame.type = 0x0D
  · rw [Received.frameSeq?, if_pos hgame, frameEvents, hgame]
    cases hunpack : unpackGameState frame.payload <;> simp [onFrame, hunpack, ClientEvent.frameSeq?]
  · rw [Received.frameSeq?, if_neg hgame]
    exact filterMap_frameEvents (fun e he => by cases e <;> first | rfl | cases he) hgame

/-- A game state is numbered by the frames sent so far. -/
theorem Board.frameSeq?_gameMessage (b : Board) :
    b.gameMessage.frameSeq? = some b.gameFrameSeq.toNat := by
  have hlen : (recordImage b.gameState.fields).length ≤ 512 := by
    simp [length_recordImage, GameState.fields]
  have hreads : Reads b.gameMessage.payload 0 b.gameState.fields := by
    rw [gameMessage, Message.payload_of hlen]
    exact List.append_nil (recordImage b.gameState.fields) ▸ reads_recordImage_zero b.gameState.fits
  rw [Message.frameSeq?, if_pos b.type_gameMessage, unpackGameState_of_reads hreads]
  rfl

/-- The frame numbers of the telemetry due. -/
theorem Board.filterMap_due (b : Board) (currentTick : UInt32) :
    (b.due currentTick).filterMap Message.frameSeq? =
      if b.GameDue currentTick then [b.gameFrameSeq.toNat] else [] := by
  have hstatus : b.statusMessages.filterMap Message.frameSeq? = [] := by
    refine List.filterMap_eq_nil_iff.2 fun m hm => if_neg fun hgame => ?_
    rcases b.type_statusMessages m hm with h | h | h <;>
      exact absurd (hgame.symm.trans h) (by decide)
  rw [due, List.filterMap_append]
  by_cases hgame : b.GameDue currentTick <;> by_cases hdue : b.StatusDue currentTick <;>
    simp [hgame, hdue, hstatus, b.frameSeq?_gameMessage]

/-! ## The schedule -/

namespace Link

variable (l : Link)

/-- The tick. -/
def tick : UInt32 := l.device.board.service.kernel.tick

/-- The service when its task has read the bytes received. -/
def drained : Board := l.device.mockRx.contents.foldl Board.feed l.device.board

/-- The replies of an action. -/
def replies : Action → List Message
  | .task => collect Board.feed Board.feedReplies l.device.board l.device.mockRx.contents
  | _ => []

/-- The telemetry of an action. -/
def telemetry : Action → List Message
  | .task => l.drained.due l.tick
  | _ => []

/-- The tick at which an action sends messages of a type as telemetry. -/
def sentAt? (type : UInt8) (a : Action) : Option UInt32 :=
  if ∃ m ∈ l.telemetry a, m.type = type then some l.tick else none

/-- The ticks at which a run sends messages of a type as telemetry. -/
def ticks (type : UInt8) (acts : List Action) : List UInt32 :=
  collect step (fun l a => (l.sentAt? type a).toList) l acts

variable {l : Link}

/-- The task sends its messages. -/
theorem sent_task (l : Link) : (l.step .task).device.board.out.sent =
    l.device.board.out.sent ++ l.device.taskMessages :=
  (congrArg Outgoing.sent (Device.out_protocolServiceTask l.device)).trans Outgoing.sent_sendAll

/-- A run sends its replies and its telemetry. -/
theorem sent_run (l : Link) (acts : List Action) :
    (l.run acts).device.board.out.sent = l.device.board.out.sent ++
      collect step (fun l a => l.replies a ++ l.telemetry a) l acts := by
  induction acts generalizing l with
  | nil => exact (List.append_nil _).symm
  | cons a acts ih =>
    have hstep : (l.step a).device.board.out.sent =
        l.device.board.out.sent ++ (l.replies a ++ l.telemetry a) := by
      cases a with
      | task => exact l.sent_task
      | _ => exact (List.append_nil _).symm
    rw [run, List.foldl_cons, collect]
    exact (ih (l.step a)).trans (by rw [hstep, List.append_assoc])

theorem board_task (l : Link) : (l.step .task).device.board = l.drained.broadcast l.tick :=
  (Device.protocolServiceTask_eq l.device).1

theorem schedule_drained (l : Link) : l.drained.schedule = l.device.board.schedule :=
  (Board.foldl_feed_schedule _ _).1

/-- Nothing but the task sends telemetry. -/
theorem sentAt?_of_telemetry_nil {type : UInt8} {a : Action} (h : l.telemetry a = []) :
    l.sentAt? type a = none := by
  simp [sentAt?, h]

/-- The task sends what is due at the tick. -/
theorem sentAt?_task (l : Link) :
    l.sentAt? 0x0D .task = (if l.drained.GameDue l.tick then some l.tick else none) ∧
      l.sentAt? 0x06 .task = if l.drained.StatusDue l.tick then some l.tick else none := by
  obtain ⟨hgame, hstatus⟩ := l.drained.countP_due l.tick
  have hsent (type : UInt8) (Due : Prop) [Decidable Due]
      (h : (l.drained.due l.tick).countP (·.type = type) = if Due then 1 else 0) :
      l.sentAt? type .task = if Due then some l.tick else none := by
    have hexists : (∃ m ∈ l.telemetry .task, m.type = type) ↔
        0 < (l.drained.due l.tick).countP (·.type = type) := by
      simp [List.countP_pos_iff, telemetry]
    refine if_congr (hexists.trans ?_) rfl rfl
    rw [h]
    split_ifs with hdue
    · exact iff_of_true Nat.one_pos hdue
    · exact iff_of_false (Nat.lt_irrefl 0) hdue
  exact ⟨hsent _ _ hgame, hsent _ _ hstatus⟩

/-- The messages of a type that are sent as telemetry are as many as their ticks, if no action
    sends two of them. -/
theorem countP_telemetry {type : UInt8}
    (hone : ∀ l : Link, (l.drained.due l.tick).countP (·.type = type) ≤ 1) (l : Link)
    (acts : List Action) :
    (collect step telemetry l acts).countP (·.type = type) = (l.ticks type acts).length := by
  induction acts generalizing l with
  | nil => rfl
  | cons a acts ih =>
    have hle : (l.telemetry a).countP (·.type = type) ≤ 1 := by
      cases a with
      | task => exact hone l
      | _ => exact Nat.zero_le 1
    have haction : (l.telemetry a).countP (·.type = type) =
        (l.sentAt? type a).toList.length := by
      rw [sentAt?]
      split_ifs with hsent
      · exact Nat.le_antisymm hle (List.countP_pos_iff.2 (by simpa using hsent))
      · exact List.countP_eq_zero.2 fun m hm => by simpa using fun heq => hsent ⟨m, hm, heq⟩
    rw [ticks, collect, collect, List.countP_append, List.length_append, ih, haction]
    rfl

/-- A part of the telemetry that is due a while after the last tick kept, and is kept then, is
    paced. -/
theorem paced {type : UInt8} {limit : UInt32} (last : Board → UInt32)
    (Due : Board → UInt32 → Prop) [∀ b t, Decidable (Due b t)]
    (hsent : ∀ l : Link, l.sentAt? type .task =
      if Due l.drained l.tick then some l.tick else none)
    (hfar : ∀ b t, Due b t → limit ≤ t - last b)
    (hbroadcast : ∀ b t, last (b.broadcast t) = if Due b t then t else last b)
    (hdrained : ∀ l : Link, last l.drained = last l.device.board)
    (hother : ∀ (l : Link) (a : Action), a ≠ .task →
      last (l.step a).device.board = last l.device.board) :
    Paced step (fun t t' : UInt32 => limit ≤ t' - t) (fun l => last l.device.board)
      (fun l a => l.sentAt? type a) where
  far l a t ht := by
    cases a with
    | task =>
      rw [hsent, Option.ite_none_right_eq_some] at ht
      obtain ⟨hdue, ht⟩ := ht
      rw [← hdrained, ← Option.some.inj ht]
      exact hfar _ _ hdue
    | _ =>
      rw [sentAt?_of_telemetry_nil rfl] at ht
      cases ht
  last l a := by
    cases a with
    | task =>
      rw [board_task, hbroadcast, hsent, ← hdrained]
      split_ifs <;> rfl
    | _ =>
      rw [sentAt?_of_telemetry_nil rfl]
      exact hother l _ nofun

/-- The game states are paced. -/
theorem paced_game : Paced step (fun t t' : UInt32 => 50 ≤ t' - t)
    (fun l => l.device.board.lastGameTick) (fun l a => l.sentAt? 0x0D a) := by
  refine paced Board.lastGameTick Board.GameDue (fun l => (sentAt?_task l).1)
    (fun _ _ h => h.2.2) (fun b t => by rw [Board.broadcast_eq])
    (fun l => congrArg (·.2.1) l.schedule_drained) fun l a ha => ?_
  cases a with
  | task => exact absurd rfl ha
  | _ => rfl

/-- The statuses are paced. -/
theorem paced_status : Paced step (fun t t' : UInt32 => 500 ≤ t' - t)
    (fun l => l.device.board.lastStatusTick) (fun l a => l.sentAt? 0x06 a) := by
  refine paced Board.lastStatusTick Board.StatusDue (fun l => (sentAt?_task l).2)
    (fun _ _ h => h.2) (fun b t => by rw [Board.broadcast_eq])
    (fun l => congrArg (·.1) l.schedule_drained) fun l a ha => ?_
  cases a with
  | task => exact absurd rfl ha
  | _ => rfl

/-- The task leaves nothing due. -/
theorem not_due_of_task (l : Link) (hconnected : (l.step .task).device.board.service.connected) :
    (l.step .task).tick - (l.step .task).device.board.lastStatusTick < 500 ∧
      ((l.step .task).device.board.Playing →
        (l.step .task).tick - (l.step .task).device.board.lastGameTick < 50) := by
  have htick : (l.step .task).tick = l.tick := by
    rw [tick, board_task, Board.broadcast_eq]
    exact (Board.foldl_feed_schedule _ _).2
  rw [htick, board_task, Board.broadcast_eq] at *
  refine ⟨?_, fun hplaying => ?_⟩
  · by_cases hdue : l.drained.StatusDue l.tick
    · simp [hdue]
    · simp only [if_neg hdue]
      exact UInt32.not_le.1 fun hfar => hdue ⟨hconnected, hfar⟩
  · by_cases hdue : l.drained.GameDue l.tick
    · simp [hdue]
    · simp only [if_neg hdue]
      exact UInt32.not_le.1 fun hfar => hdue ⟨hconnected, hplaying, hfar⟩

/-- What the host has connected stays so, whatever goes next. -/
theorem connectedByHost_step (h : l.device.board.ConnectedByHost) (a : Action) :
    (l.step a).device.board.ConnectedByHost := by
  cases a with
  | task =>
    rw [board_task, Board.broadcast_eq]
    exact h.foldl_feed _
  | _ => exact h

theorem connectedByHost_run (d : Device) (acts : List Action) :
    ((start d).run acts).device.board.ConnectedByHost := by
  induction acts using List.reverseRecOn with
  | nil => exact iff_of_false Bool.false_ne_true fun ⟨_, hmem, _⟩ => List.not_mem_nil hmem
  | append_singleton acts a ih =>
    rw [run, List.foldl_concat]
    exact connectedByHost_step ih a

/-- The frames handled stay so. -/
theorem handled_step (l : Link) (a : Action) :
    l.device.board.handled <+: (l.step a).device.board.handled := by
  cases a with
  | task =>
    rw [board_task, Board.broadcast_eq]
    exact (Board.parser_foldl_feed _ _).2 ▸ List.prefix_append _ _
  | _ => exact List.prefix_refl _

/-- Before the host connects, there is no telemetry. -/
theorem telemetry_eq_nil (d : Device) {acts : List Action}
    (h : ∀ frame ∈ ((start d).run acts).device.board.handled, ¬frame.Connects) :
    collect step telemetry (start d) acts = [] := by
  induction acts using List.reverseRecOn with
  | nil => rfl
  | append_singleton acts a ih =>
    have hrun : (start d).run (acts ++ [a]) = ((start d).run acts).step a := List.foldl_concat ..
    rw [hrun] at h
    have hbefore := ih fun frame hframe => h frame ((handled_step _ a).subset hframe)
    rw [collect_concat, hbefore, List.nil_append]
    change ((start d).run acts).telemetry a = []
    cases a with
    | task =>
      have hdrained := (connectedByHost_run d acts).foldl_feed
        ((start d).run acts).device.mockRx.contents
      rw [board_task, Board.broadcast_eq] at h
      have hoff : ¬((start d).run acts).drained.service.connected = true := fun hon => by
        obtain ⟨frame, hmem, hconnects⟩ := hdrained.1 hon
        exact h frame hmem hconnects
      rw [telemetry, Board.due, if_neg fun hdue => hoff hdue.1, if_neg fun hdue => hoff hdue.1]
      rfl
    | _ => rfl

/-- No reply is a game state. -/
theorem type_replies_ne {l : Link} {a : Action} {m : Message} (hm : m ∈ l.replies a) :
    m.type ≠ 0x0D := by
  cases a with
  | task =>
    obtain ⟨b, byte, hm⟩ := exists_of_mem_collect hm
    exact b.type_feedReplies_ne byte m hm
  | _ => cases hm

/-- The device sends its replies and its telemetry, and no reply is a game state. The telemetry is
    paced, whatever goes next: between two game states in turn there are at least 50 ticks, and
    between two of its statuses 500, counted from 0, with one message at each of these ticks; after
    the task of a device that is connected, neither is due; and there is none before a command has
    connected it. -/
theorem telemetry_paced (d : Device) (acts : List Action) :
    let l := (start d).run acts
    l.device.board.out.sent =
        collect step (fun l a => l.replies a ++ l.telemetry a) (start d) acts ∧
      (∀ m ∈ collect step replies (start d) acts, m.type ≠ 0x0D) ∧
      (collect step telemetry (start d) acts).countP (·.type = 0x0D) =
        ((start d).ticks 0x0D acts).length ∧
      (collect step telemetry (start d) acts).countP (·.type = 0x06) =
        ((start d).ticks 0x06 acts).length ∧
      (0 :: (start d).ticks 0x0D acts).IsChain (fun t t' => 50 ≤ t' - t) ∧
      (0 :: (start d).ticks 0x06 acts).IsChain (fun t t' => 500 ≤ t' - t) ∧
      (∀ before, acts = before ++ [.task] → l.device.board.service.connected = true →
        l.tick - (0 :: (start d).ticks 0x06 acts).getLast (List.cons_ne_nil _ _) < 500 ∧
        (l.device.board.Playing →
          l.tick - (0 :: (start d).ticks 0x0D acts).getLast (List.cons_ne_nil _ _) < 50)) ∧
      ((∀ frame ∈ l.device.board.handled, ¬frame.Connects) →
        collect step telemetry (start d) acts = []) := by
  intro l
  obtain ⟨hgame, hlastGame⟩ := paced_game.isChain (start d) acts
  obtain ⟨hstatus, hlastStatus⟩ := paced_status.isChain (start d) acts
  refine ⟨sent_run (start d) acts, fun m hm => ?_, countP_telemetry (fun l => ?_) _ _,
    countP_telemetry (fun l => ?_) _ _, hgame, hstatus, ?_, telemetry_eq_nil d⟩
  · obtain ⟨_, _, hreply⟩ := exists_of_mem_collect hm
    exact type_replies_ne hreply
  · rw [(l.drained.countP_due l.tick).1]
    split_ifs <;> decide
  · rw [(l.drained.countP_due l.tick).2]
    split_ifs <;> decide
  · rintro before rfl hconnected
    have hrun : l = ((start d).run before).step .task := List.foldl_concat ..
    have hdue := not_due_of_task ((start d).run before)
    rw [← hrun] at hdue
    obtain ⟨hfresh, hplay⟩ := hdue hconnected
    exact ⟨hlastStatus ▸ hfresh, fun hplaying => hlastGame ▸ hplay hplaying⟩

/-! ## Frame numbers -/

/-- The frame numbers of the game states that the client has emitted. -/
def gameFrames (l : Link) : List ℕ := l.client.events.filterMap ClientEvent.frameSeq?

theorem gameFrames_eq (l : Link) : l.gameFrames = l.client.seen.filterMap Received.frameSeq? := by
  rw [gameFrames, SliverClient.events, List.filterMap_flatMap, List.filterMap_eq_flatMap_toList]
  simp only [filterMap_frameSeq?_frameEvents]

/-- The game states sent so far are numbered from 0 on, and the next one by the number kept. -/
def GameCounted (b : Board) : Prop := ∃ n, b.gameFrameSeq = UInt32.ofNat n ∧
  b.out.sent.filterMap Message.frameSeq? = (List.range n).map (· % 2 ^ 32)

/-- The frame numbers sent. -/
theorem filterMap_frames (o : Outgoing) :
    (o.frames.map Frame.received).filterMap Received.frameSeq? =
      o.sent.filterMap Message.frameSeq? :=
  Message.filterMap_framesFrom (fun type payload =>
    if type = 0x0D then (unpackGameState payload).map UnpackedGameState.frameSeq else none) 0 o.sent

/-- When the client has read everything, it has emitted the game states sent. -/
theorem gameFrames_of_read {l : Link} (h : l.Inv) (hread : l.Read) :
    l.gameFrames = l.device.board.out.sent.filterMap Message.frameSeq? := by
  rw [gameFrames_eq, h.seen_eq hread, filterMap_frames]

theorem gameCounted_task {l : Link} (h : GameCounted l.device.board) :
    GameCounted (l.step .task).device.board := by
  obtain ⟨n, hseq, hsent⟩ := h
  have hdrained : l.drained.gameFrameSeq = UInt32.ofNat n :=
    (congrArg (·.2.2) l.schedule_drained).trans hseq
  have hreplies : l.drained.out.sent.filterMap Message.frameSeq? =
      (List.range n).map (· % 2 ^ 32) := by
    rw [drained, Board.out_foldl_feed, Outgoing.sent_sendAll, List.filterMap_append, hsent,
      List.filterMap_eq_nil_iff.2 fun m hm => ?_, List.append_nil]
    exact if_neg (type_replies_ne (l := l) (a := .task) hm)
  rw [board_task, Board.broadcast_eq]
  refine ⟨if l.drained.GameDue l.tick then n + 1 else n, ?_, ?_⟩
  · simp only [hdrained]
    split_ifs
    · exact (UInt32.ofNat_add n 1).symm
    · rfl
  · rw [Outgoing.sent_sendAll, List.filterMap_append, hreplies, Board.filterMap_due, hdrained]
    split_ifs
    · rw [List.range_succ, List.map_append, UInt32.toNat_ofNat']
      rfl
    · exact List.append_nil _

theorem gameCounted_run (d : Device) (acts : List Action) :
    GameCounted ((start d).run acts).device.board := by
  induction acts using List.reverseRecOn with
  | nil => exact ⟨0, rfl, rfl⟩
  | append_singleton acts a ih =>
    rw [run, List.foldl_concat]
    cases a with
    | task => exact gameCounted_task ih
    | _ => exact ih

/-- In every run in which there is room, whatever goes next, the game states that the client emits
    have the frame numbers 0, 1, 2, …: none is missing, and none comes twice. When nothing is on
    the way, the next one is that of the device. -/
theorem game_frames_counted (d : Device) {acts : List Action}
    (hroom : Throughout step Roomy (start d) acts) :
    let l := (start d).run acts
    ∃ n, l.gameFrames = (List.range n).map (· % 2 ^ 32) ∧
      (l.Read → l.device.board.gameFrameSeq = UInt32.ofNat n) := by
  intro l
  have h : l.Inv := (inv_start d).run hroom
  obtain ⟨n, hseq, hsent⟩ := gameCounted_run d acts
  by_cases hread : l.Read
  · refine ⟨n, ?_, fun _ => hseq⟩
    rw [gameFrames_of_read h hread, hsent]
  · have hprefix := h.seen_prefix.filterMap Received.frameSeq?
    rw [filterMap_frames, hsent, ← gameFrames_eq] at hprefix
    refine ⟨min l.gameFrames.length n, ?_, fun hr => absurd hr hread⟩
    rw [← List.take_range, List.map_take]
    exact List.prefix_iff_eq_take.1 hprefix

/-- The bytes queued are no more than those of the messages sent. -/
theorem length_contents_le {l : Link} (h : l.Inv) : l.device.board.out.contents.length ≤
    (l.device.board.out.sent.map Message.size).sum := by
  obtain ⟨read, hcarries, -⟩ := h.messages
  have hlen := congrArg List.length hcarries
  rw [Outgoing.frames, Message.length_flatMap_framesFrom, List.length_append,
    List.length_append] at hlen
  omega

/-- There is room for a task, if all that has been sent after it would fit. -/
theorem roomy_task {l : Link} (h : l.Inv)
    (hfits : ((l.step .task).device.board.out.sent.map Message.size).sum ≤ 2047) :
    l.Roomy .task := by
  rw [sent_task, List.map_append, List.sum_append] at hfits
  have hqueued := length_contents_le h
  rw [Roomy, Outgoing.HasRoom]
  omega

theorem sent_pop_read (l : Link) (maxLen n : ℕ) :
    ((l.step (.pop maxLen)).step (.read n)).device.board.out.sent = l.device.board.out.sent := rfl

/-- The client has everything when all that is queued has been popped and read. -/
theorem read_all (l : Link) (hclient : l.toClient = []) :
    ((l.step (.pop 2047)).step (.read 2047)).Read := by
  have hlen : l.device.board.out.contents.length ≤ 2047 :=
    l.device.board.out.transmit.mock.length_contents_le
  obtain ⟨hbytes, hrest⟩ := l.device.board.out.transmit.mock.take_eq 2047
  constructor
  · change (l.toClient ++ (l.device.board.out.transmit.mock.take 2047).1).drop 2047 = []
    rw [hclient, hbytes, List.nil_append]
    exact List.drop_eq_nil_of_le (List.length_take_le _ _)
  · change (l.device.board.out.transmit.mock.take 2047).2.contents = []
    rw [hrest]
    exact List.drop_eq_nil_of_le hlen

/-- What is outside of the service of a device that has booted, with another kernel. -/
def withKernel (kernel : MkKernel) : Outside where
  kernel
  faults := []
  wifiStats := []
  netReport := []
  games := RetroGames.zero.retroGamesInit.retroGamesStart
  mem := Device.booted.board.mem
  diag := mkKernelGetDiagIdentity
  block := Device.booted.board.block
  stack := .zero

/-- The kernel when the games have been launched. -/
def gamesLaunched : MkKernel := (Service.booted.launchApp .retroGames).kernel

/-- The host connects and launches the games. A game state is due at the task that reads this, and
    will be at the next one. -/
def firstGameState : List Action :=
  [.command 0x81 none, .command 0x84 (some [MkAppId.retroGames.toByte]), .inject 25,
    .outside (withKernel { MkKernel.booted with tick := 50 }), .task,
    .outside (withKernel { gamesLaunched with tick := 100 })]

/-- The next task sends another one, and then the client reads all that there is. -/
def twoGameStates : List Action := firstGameState ++ [.task] ++ [.pop 2047] ++ [.read 2047]

set_option maxRecDepth 10000 in
theorem throughout_firstGameState : Throughout step Roomy (start .booted) firstGameState := by
  decide +kernel

set_option maxRecDepth 10000 in
theorem throughout_twoGameStates : Throughout step Roomy (start .booted) twoGameStates := by
  have hroom : ((start .booted).run firstGameState).Roomy .task := by
    refine roomy_task ((inv_start .booted).run throughout_firstGameState) ?_
    decide +kernel
  have htasks := (throughout_concat _).2 ⟨throughout_firstGameState, hroom⟩
  exact (throughout_concat _).2 ⟨(throughout_concat _).2 ⟨htasks, trivial⟩, trivial⟩

theorem read_twoGameStates : ((start .booted).run twoGameStates).Read := by
  rw [twoGameStates, run, List.foldl_concat, List.foldl_concat]
  exact read_all _ rfl

set_option maxRecDepth 10000 in
theorem gameFrames_twoGameStates : ((start .booted).run twoGameStates).gameFrames = [0, 1] := by
  rw [gameFrames_of_read ((inv_start .booted).run throughout_twoGameStates) read_twoGameStates,
    twoGameStates, run, List.foldl_concat, List.foldl_concat, sent_pop_read]
  decide +kernel

theorem game_frames_counted_twoGameStates :
    let l := (start .booted).run twoGameStates
    l.gameFrames = [0, 1] ∧ l.Read ∧
      ∃ n, l.gameFrames = (List.range n).map (· % 2 ^ 32) ∧
        (l.Read → l.device.board.gameFrameSeq = UInt32.ofNat n) :=
  ⟨gameFrames_twoGameStates, read_twoGameStates,
    game_frames_counted .booted throughout_twoGameStates⟩

end Link

end SliverOS
