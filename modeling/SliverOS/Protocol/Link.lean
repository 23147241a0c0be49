import SliverOS.Protocol.Client
import SliverOS.Protocol.Device

/-!
# The link between the browser and the device

The client and the protocol service with the bytes between them, as a system of which any part
may go next (`Link.Action`): a command is written to the port, some of the bytes written arrive in
the ring of the device, its task runs, some of the bytes sent are popped, some of these are read
by the client, or another subsystem changes what the service reads. Every interleaving is a run.

Both rings drop the bytes for which there is no room; in a run in which there always is
(`Link.Roomy`),

* `Link.agreement`: what each side has handled is a prefix of what the other one has sent, and all
  of it when nothing is on the way, with the sequence numbers counting the messages;
* `Link.pings_answered`: the payloads of the pongs are those of the first pings, in order, and
  those of all of them when nothing is on the way.
-/

namespace SliverOS

open Browser Bytes Firmware Queues Streams Wire

/-! ## The messages of the device -/

namespace Message

/-- The client can read a message. -/
def Readable (m : Message) : Prop := (onFrame m.type m.payload).isSome

/-- The payload of a pong. -/
def pong? (m : Message) : Option (List UInt8) := if m.type = 0x0C then some m.payload else none

theorem Readable.of_length {type : UInt8} {payload : List UInt8}
    (h : requiredLength type ≤ payload.length) (hle : payload.length ≤ 512) :
    (Message.of type payload).Readable :=
  isSome_onFrame (by rwa [payload_of hle])

/-- A structure with all of its fields is read. -/
theorem Readable.of_fields {type : UInt8} {fields : List Field}
    (h : requiredLength type ≤ (fields.map Field.width).sum)
    (hle : (fields.map Field.width).sum ≤ 512) : (Message.of type (recordImage fields)).Readable :=
  .of_length (by rwa [length_recordImage]) (by rwa [length_recordImage])

end Message

/-- The payload of a ping. -/
def Firmware.SlvrFrame.ping? (frame : SlvrFrame) : Option (List UInt8) :=
  if SlvrCmd.ofType? frame.type = some .ping then some frame.payloadBytes else none

/-- The payload of a ping, as it is received. -/
def Wire.Received.ping? (frame : Received) : Option (List UInt8) :=
  if SlvrCmd.ofType? frame.type = some .ping then some frame.payload else none

/-- The payload of a pong, as it is received. -/
def Wire.Received.pong? (frame : Received) : Option (List UInt8) :=
  if frame.type = 0x0C then some frame.payload else none

/-- The event of a pong is emitted for a pong, and for nothing else. -/
theorem filterMap_pong?_frameEvents (frame : Received) :
    (frameEvents frame).filterMap ClientEvent.pong? = frame.pong?.toList := by
  by_cases hpong : frame.type = 0x0C
  · simp [frameEvents, hpong, onFrame, ClientEvent.pong?, Received.pong?]
  · rw [Received.pong?, if_neg hpong]
    exact filterMap_frameEvents (fun e he => by cases e <;> first | rfl | cases he) hpong

namespace Board

variable {b : Board}

/-- Every message of a call can be read. -/
theorem readable_messages (b : Board) (c : Call) : ∀ m ∈ b.messages c, m.Readable := by
  intro m hm
  cases c with
  | inputSetState | retroGamesReset => cases hm
  | handleTerminalCommand =>
    obtain ⟨text, -, rfl⟩ := List.mem_map.1 hm
    exact .of_fields (by simp [TerminalPayload.fields, SlvrMsg.toByte, requiredLength])
      (by simp [TerminalPayload.fields])
  | sendHello | sendPong =>
    obtain rfl := List.mem_singleton.1 hm
    exact isSome_onFrame (Nat.zero_le _)
  | sendDeviceStatus status =>
    obtain rfl := List.mem_singleton.1 hm
    exact .of_length (by rw [status.length_image]; decide) (by rw [status.length_image]; decide)
  | sendAppState status =>
    obtain rfl := List.mem_singleton.1 hm
    exact isSome_onFrame (Nat.zero_le _)
  | sendDeviceInfo =>
    obtain rfl := List.mem_singleton.1 hm
    exact .of_fields (by simp [DeviceInfo.fields, SlvrMsg.toByte, requiredLength])
      (by simp [DeviceInfo.fields])
  | sendMemoryStatus =>
    obtain rfl := List.mem_singleton.1 hm
    exact .of_fields (by simp [MemoryStatus.fields, SlvrMsg.toByte, requiredLength])
      (by simp [MemoryStatus.fields])
  | sendStorageStatus =>
    obtain rfl := List.mem_singleton.1 hm
    exact .of_fields (by simp [StorageStatus.fields, SlvrMsg.toByte, requiredLength])
      (by simp [StorageStatus.fields])
  | sendLog =>
    obtain rfl := List.mem_singleton.1 hm
    exact .of_fields (by simp [LogPayload.fields, SlvrMsg.toByte, requiredLength])
      (by simp [LogPayload.fields])

/-- The status is sent by calls. -/
theorem mem_statusMessages {m : Message} (h : m ∈ b.statusMessages) : ∃ c, m ∈ b.messages c := by
  rw [statusMessages, List.mem_append, List.mem_append] at h
  rcases h with (h | h) | h
  · exact ⟨_, h⟩
  · exact ⟨_, h⟩
  · split_ifs at h with hplaying
    · cases h
    · cases happ : MkAppId.ofByte? b.service.kernel.activeApp with
      | none =>
        rw [happ] at h
        cases h
      | some appId =>
        rw [happ, Option.map_some, Option.getD_some] at h
        exact ⟨_, h⟩

theorem readable_due (b : Board) (currentTick : UInt32) :
    ∀ m ∈ b.due currentTick, m.Readable := by
  intro m hm
  rw [due, List.mem_append] at hm
  rcases hm with hm | hm
  · split_ifs at hm
    · obtain rfl := List.mem_singleton.1 hm
      exact .of_fields (by simp [GameState.fields, SlvrMsg.toByte, requiredLength])
        (by simp [GameState.fields])
    · cases hm
  · split_ifs at hm
    · obtain ⟨c, hc⟩ := mem_statusMessages hm
      exact b.readable_messages c m hc
    · cases hm

theorem readable_replies (b : Board) (frame : SlvrFrame) : ∀ m ∈ b.replies frame, m.Readable := by
  intro m hm
  obtain ⟨c, -, hc⟩ := List.mem_flatMap.1 hm
  exact readable_messages _ c m hc

/-- Only a pong is of the type of a pong. -/
theorem pongs_messages (b : Board) (c : Call) (h : ∀ payload, c ≠ .sendPong payload) :
    ∀ m ∈ b.messages c, m.pong? = none := by
  refine fun m hm => if_neg fun hpong => ?_
  have htype := type?_of_mem_messages hm
  rw [hpong] at htype
  cases c with
  | sendPong payload => exact h payload rfl
  | inputSetState | retroGamesReset => cases htype
  | _ => exact absurd (Option.some.inj htype) (by decide)

/-- The telemetry has no pongs. -/
theorem pongs_due (b : Board) (currentTick : UInt32) :
    (b.due currentTick).filterMap Message.pong? = [] := by
  refine List.filterMap_eq_nil_iff.2 fun m hm => if_neg fun hpong => ?_
  rcases b.type_due currentTick m hm with h | h | h | h <;>
    exact absurd (hpong.symm.trans h) (by decide)

/-- Only a ping makes a pong be sent. -/
theorem sendPong_not_mem {s : Service} {frame : SlvrFrame}
    (h : SlvrCmd.ofType? frame.type ≠ some .ping) (payload : List UInt8) :
    .sendPong payload ∉ (handleIncomingFrame s frame).2 := by
  cases hcmd : SlvrCmd.ofType? frame.type with
  | none => simp [handleIncomingFrame, hcmd]
  | some cmd =>
    cases cmd with
    | ping => exact absurd hcmd h
    | launchApp | exitApp =>
      cases happ : frame.app? <;>
        simp [handleIncomingFrame, hcmd, Service.handleApp, happ, Service.sendAppState,
          Service.sendDeviceStatus]
    | _ => simp [handleIncomingFrame, hcmd, Service.sendDeviceStatus]

/-- A ping is replied to with a pong with its payload, and nothing else with one. -/
theorem pongs_replies (b : Board) (frame : SlvrFrame) :
    (b.replies frame).filterMap Message.pong? = frame.ping?.toList := by
  rw [SlvrFrame.ping?]
  by_cases hping : SlvrCmd.ofType? frame.type = some .ping
  · have hlen : frame.payloadBytes.length ≤ 512 :=
      (List.length_take_le' _ _).trans_eq frame.payload.length_toList
    rw [if_pos hping, replies, handleIncomingFrame]
    simp [hping, messages, Message.pong?, Message.of, List.take_of_length_le hlen]
  · rw [if_neg hping]
    refine List.filterMap_eq_nil_iff.2 fun m hm => ?_
    obtain ⟨c, hc, hm⟩ := List.mem_flatMap.1 hm
    exact pongs_messages _ c (fun payload heq => sendPong_not_mem hping payload (heq ▸ hc)) m hm

theorem rxFrames_handleIncomingFrame (s : Service) (frame : SlvrFrame) :
    (handleIncomingFrame s frame).1.rxFrames = s.rxFrames + 1 := by
  cases hcmd : SlvrCmd.ofType? frame.type with
  | none => simp [handleIncomingFrame, hcmd]
  | some cmd =>
    cases cmd with
    | launchApp | exitApp =>
      cases happ : frame.app? <;>
        simp [handleIncomingFrame, hcmd, Service.handleApp, happ, Service.launchApp,
          Service.exitApp, Service.requestTransition]
    | _ => simp [handleIncomingFrame, hcmd]

/-- What holds of the messages sent so far: they are numbered and can be read, the frames handled
    are counted, and the pings among them are answered. -/
structure Ok (b : Board) : Prop where
  numbered : b.out.Numbered
  readable : ∀ m ∈ b.out.sent, m.Readable
  rxFrames : b.service.rxFrames = UInt32.ofNat b.handled.length
  pongs : b.out.sent.filterMap Message.pong? = b.handled.filterMap SlvrFrame.ping?

theorem Ok.handle (h : b.Ok) (frame : SlvrFrame) : (b.handle frame).Ok := by
  rw [handle_eq]
  refine ⟨h.numbered.sendAll _, ?_, ?_, ?_⟩
  · rw [Outgoing.sent_sendAll]
    exact List.forall_mem_append.2 ⟨h.readable, b.readable_replies frame⟩
  · rw [rxFrames_handleIncomingFrame, h.rxFrames, List.length_append, List.length_singleton]
    exact (UInt32.ofNat_add _ _).symm
  · simp only [Outgoing.sent_sendAll, List.filterMap_append, h.pongs, pongs_replies]
    cases hping : frame.ping? <;> simp [hping]

theorem Ok.feed (h : b.Ok) (byte : UInt8) : (b.feed byte).Ok := by
  rw [Board.feed]
  rcases slvrParserFeedByte b.parser byte with ⟨parser, _ | frame⟩
  · exact ⟨h.numbered, h.readable, h.rxFrames, h.pongs⟩
  · exact Ok.handle (b := { b with parser }) ⟨h.numbered, h.readable, h.rxFrames, h.pongs⟩ frame

theorem Ok.foldl_feed (h : b.Ok) (bytes : List UInt8) : (bytes.foldl Board.feed b).Ok := by
  induction bytes generalizing b with
  | nil => exact h
  | cons byte bytes ih => exact ih (h.feed byte)

theorem Ok.broadcast (h : b.Ok) (currentTick : UInt32) : (b.broadcast currentTick).Ok := by
  rw [broadcast_eq]
  refine ⟨h.numbered.sendAll _, ?_, h.rxFrames, ?_⟩
  · rw [Outgoing.sent_sendAll]
    exact List.forall_mem_append.2 ⟨h.readable, b.readable_due currentTick⟩
  · rw [Outgoing.sent_sendAll, List.filterMap_append, h.pongs, pongs_due, List.append_nil]

end Board

/-! ## The system -/

/-- The two sides, with the bytes written to the port that have not arrived, the bytes popped
    that have not been read, and the commands sent since the start. -/
structure Link where
  client : SliverClient
  toDevice : List UInt8
  device : Device
  toClient : List UInt8
  commands : List Frame

namespace Link

/-- What may happen next. -/
inductive Action
  | command (type : UInt8) (payload : Option (List UInt8))
  | inject (n : ℕ)
  | task
  | pop (maxLen : ℕ)
  | read (n : ℕ)
  | outside (o : Outside)

/-- The frame of a command, when its payload is not too long. -/
def commandFrame (c : SliverClient) (type : UInt8) (payload : Option (List UInt8)) : Option Frame :=
  if h : (payload.getD []).length ≤ maxPayloadLen then
    some ⟨type, 0, UInt8.ofNat c.sequence, payload.getD [], h⟩
  else none

variable (l : Link)

/-- The system after an action. -/
def step : Action → Link
  | .command type payload =>
    let (client, bytes) := l.client.sendCommand type.toNat payload
    { l with
      client
      toDevice := l.toDevice ++ bytes.toOption.getD []
      commands := l.commands ++ (commandFrame l.client type payload).toList }
  | .inject n =>
    { l with
      toDevice := l.toDevice.drop n
      device := l.device.protocolServiceInjectRxBytes (l.toDevice.take n) }
  | .task => { l with device := l.device.protocolServiceTask }
  | .pop maxLen =>
    let (bytes, device) := l.device.protocolServicePopTxBytes maxLen
    { l with device, toClient := l.toClient ++ bytes }
  | .read n =>
    { l with client := l.client.receive (l.toClient.take n), toClient := l.toClient.drop n }
  | .outside o => { l with device := { l.device with board := l.device.board.setOutside o } }

/-- The system after some actions. -/
def run (acts : List Action) : Link := acts.foldl step l

/-- There is room for the bytes that the action puts into a ring. -/
def Roomy : Action → Prop
  | .inject n => l.device.mockRx.contents.length + (l.toDevice.take n).length ≤ 2047
  | .task => l.device.board.out.HasRoom l.device.taskMessages
  | _ => True

instance (a : Action) : Decidable (l.Roomy a) :=
  match a with
  | .inject _ => inferInstanceAs (Decidable (_ ≤ _))
  | .task => inferInstanceAs (Decidable (l.device.board.out.HasRoom l.device.taskMessages))
  | .command .. | .pop _ | .read _ | .outside _ => isTrue trivial

/-- A new client, and a device whose service has just been initialised. -/
def start (d : Device) : Link := ⟨.new, [], d.protocolServiceInit, [], []⟩

/-- Nothing is on the way to the device. -/
def Delivered : Prop := l.toDevice = [] ∧ l.device.mockRx.contents = []

/-- Nothing is on the way to the client. -/
def Read : Prop := l.toClient = [] ∧ l.device.board.out.contents = []

/-! ## The invariant -/

/-- The device has read the first bytes of the commands, and the client those of the messages. -/
structure Inv (l : Link) : Prop where
  ok : l.device.board.Ok
  commands : ∃ read, Carries Frame.bytes l.commands read (l.device.mockRx.contents ++ l.toDevice) ∧
    l.device.board.parser = Transducer.state slvrParserFeedByte slvrParserInit read ∧
    l.device.board.handled = Transducer.outputs slvrParserFeedByte slvrParserInit read
  messages : ∃ read, Carries Frame.bytes l.device.board.out.frames read
      (l.toClient ++ l.device.board.out.contents) ∧ l.client.HasRead read

variable {l : Link}

theorem contents_init (d : Device) : d.protocolServiceInit.mockRx.contents = [] ∧
    d.protocolServiceInit.board.out.contents = [] :=
  ⟨GapRing.contents_eq_nil rfl, GapRing.contents_eq_nil rfl⟩

theorem inv_start (d : Device) : (start d).Inv where
  ok := ⟨⟨rfl, rfl⟩, fun _ hm => absurd hm List.not_mem_nil, rfl, rfl⟩
  commands := by
    refine ⟨[], ?_, rfl, rfl⟩
    rw [start, (contents_init d).1]
    exact .start
  messages := by
    refine ⟨[], ?_, SliverClient.hasRead_new⟩
    rw [start, (contents_init d).2]
    exact .start

/-- A command is written as the bytes of its frame, or not at all. -/
theorem sendCommand_eq (c : SliverClient) (type : UInt8) (payload : Option (List UInt8)) :
    ((c.sendCommand type.toNat payload).2.toOption.getD []) =
      (commandFrame c type payload).toList.flatMap Frame.bytes := by
  rw [commandFrame, SliverClient.sendCommand]
  split_ifs with hle
  · have hmask : c.sequence &&& 0xFF = (UInt8.ofNat c.sequence).toNat :=
      Nat.and_two_pow_sub_one_eq_mod c.sequence 8
    have hholds : (⟨type.toNat, some 0, some (c.sequence &&& 0xFF), payload⟩ : FrameArg).Holds
        ⟨type, 0, UInt8.ofNat c.sequence, payload.getD [], hle⟩ := ⟨rfl, rfl, hmask, rfl⟩
    rw [encodeFrame_of_holds hholds]
    exact (List.append_nil _).symm
  · rw [encodeFrame]
    simp only [if_pos (Nat.not_le.1 hle)]
    rfl

theorem Inv.command (h : l.Inv) (type : UInt8) (payload : Option (List UInt8)) :
    (l.step (.command type payload)).Inv where
  ok := h.ok
  commands := by
    obtain ⟨read, hcarries, hparser, hhandled⟩ := h.commands
    refine ⟨read, ?_, hparser, hhandled⟩
    have hsend := hcarries.send (commandFrame l.client type payload).toList
    rwa [List.append_assoc, ← sendCommand_eq] at hsend
  messages := h.messages

theorem Inv.inject (h : l.Inv) {n : ℕ} (hroom : l.Roomy (.inject n)) :
    (l.step (.inject n)).Inv where
  ok := h.ok
  commands := by
    obtain ⟨read, hcarries, hparser, hhandled⟩ := h.commands
    refine ⟨read, ?_, hparser, hhandled⟩
    have hcontents : (l.step (.inject n)).device.mockRx.contents =
        l.device.mockRx.contents ++ l.toDevice.take n := by
      refine (l.device.mockRx.contents_offerAll _).trans ?_
      rw [List.take_of_length_le (Nat.le_sub_of_add_le (by rwa [Nat.add_comm]))]
    rw [hcontents, List.append_assoc]
    exact (List.take_append_drop n l.toDevice).symm ▸ hcarries
  messages := h.messages

/-- The task reads all that has arrived, and its messages are sent. -/
theorem Inv.task (h : l.Inv) (hroom : l.Roomy .task) : (l.step .task).Inv := by
  obtain ⟨hboard, hempty⟩ := Device.protocolServiceTask_eq l.device
  have hout := Device.out_protocolServiceTask l.device
  refine ⟨?_, ?_, ?_⟩
  · change l.device.protocolServiceTask.board.Ok
    rw [hboard]
    exact (h.ok.foldl_feed _).broadcast _
  · obtain ⟨read, hcarries, hparser, hhandled⟩ := h.commands
    obtain ⟨hparser', hhandled'⟩ :=
      Board.parser_foldl_feed l.device.board l.device.mockRx.contents
    refine ⟨read ++ l.device.mockRx.contents, ?_, ?_, ?_⟩
    · change Carries _ _ _ (l.device.protocolServiceTask.mockRx.contents ++ l.toDevice)
      rw [hempty]
      exact hcarries.receive
    · change l.device.protocolServiceTask.board.parser = _
      rw [hboard, Board.broadcast_eq, Transducer.state_append, ← hparser]
      exact hparser'
    · change l.device.protocolServiceTask.board.handled = _
      rw [hboard, Board.broadcast_eq, Transducer.outputs_append, ← hparser, ← hhandled]
      exact hhandled'
  · obtain ⟨read, hcarries, hread⟩ := h.messages
    refine ⟨read, ?_, hread⟩
    change Carries _ l.device.protocolServiceTask.board.out.frames _
      (l.toClient ++ l.device.protocolServiceTask.board.out.contents)
    rw [hout, Outgoing.frames_sendAll, Outgoing.contents_sendAll h.ok.numbered hroom,
      ← List.append_assoc]
    exact hcarries.send _

theorem Inv.pop (h : l.Inv) (maxLen : ℕ) : (l.step (.pop maxLen)).Inv where
  ok := ⟨⟨h.ok.numbered.txSeq, h.ok.numbered.txFrames⟩, h.ok.readable, h.ok.rxFrames, h.ok.pongs⟩
  commands := h.commands
  messages := by
    obtain ⟨read, hcarries, hread⟩ := h.messages
    obtain ⟨hbytes, hrest⟩ := l.device.board.out.transmit.mock.take_eq maxLen
    refine ⟨read, ?_, hread⟩
    change Carries _ _ _ ((l.toClient ++ (l.device.board.out.transmit.mock.take maxLen).1) ++
      (l.device.board.out.transmit.mock.take maxLen).2.contents)
    rw [hbytes, hrest, List.append_assoc, List.take_append_drop]
    exact hcarries

/-- What is read is made of the frames of messages, which can be read. -/
theorem Inv.readable (h : l.Inv) {read inFlight : List UInt8}
    (hcarries : Carries Frame.bytes l.device.board.out.frames read inFlight) :
    ∀ f ∈ greedy read, (onFrame f.type f.payload).isSome := by
  intro f hf
  have hsent := (hcarries.delivered decoder_greedy).subset (List.mem_map_of_mem hf)
  obtain ⟨g, hg, heq⟩ := List.mem_map.1 hsent
  obtain ⟨m, hm, n, rfl⟩ := Message.mem_framesFrom hg
  have htype : m.type = f.type := congrArg Received.type heq
  have hpayload : m.payload = f.payload := congrArg Received.payload heq
  rw [← htype, ← hpayload]
  exact h.ok.readable m hm

theorem Inv.read (h : l.Inv) (n : ℕ) : (l.step (.read n)).Inv where
  ok := h.ok
  commands := h.commands
  messages := by
    obtain ⟨read, hcarries, hread⟩ := h.messages
    rw [← List.take_append_drop n l.toClient, List.append_assoc] at hcarries
    exact ⟨read ++ l.toClient.take n, hcarries.receive, hread.receive (h.readable hcarries.receive)⟩

theorem Inv.outside (h : l.Inv) (o : Outside) : (l.step (.outside o)).Inv where
  ok := ⟨⟨h.ok.numbered.txSeq, h.ok.numbered.txFrames⟩, h.ok.readable, h.ok.rxFrames, h.ok.pongs⟩
  commands := h.commands
  messages := h.messages

theorem Inv.step (h : l.Inv) {a : Action} (hroom : l.Roomy a) : (l.step a).Inv := by
  cases a with
  | command type payload => exact h.command type payload
  | inject n => exact h.inject hroom
  | task => exact h.task hroom
  | pop maxLen => exact h.pop maxLen
  | read n => exact h.read n
  | outside o => exact h.outside o

theorem Inv.run (h : l.Inv) {acts : List Action} (hroom : Throughout Link.step Roomy l acts) :
    (l.run acts).Inv :=
  hroom.inv h fun _ _ hl ha => hl.step ha

/-! ## Results -/

theorem decoder_firmware : Decoder Frame.bytes Frame.received fun xs =>
    (Transducer.outputs slvrParserFeedByte slvrParserInit xs).map SlvrFrame.received :=
  Transducer.decoder _ _ fun items => (outputs_flatMap_bytes good_init rfl items).1

theorem Inv.handled_prefix (h : l.Inv) :
    l.device.board.handled.map SlvrFrame.received <+: l.commands.map Frame.received := by
  obtain ⟨read, hcarries, -, hhandled⟩ := h.commands
  rw [hhandled]
  exact hcarries.delivered decoder_firmware

theorem Inv.handled_eq (h : l.Inv) (hdelivered : l.Delivered) :
    l.device.board.handled.map SlvrFrame.received = l.commands.map Frame.received := by
  obtain ⟨read, hcarries, -, hhandled⟩ := h.commands
  rw [hdelivered.1, hdelivered.2] at hcarries
  rw [hhandled]
  exact hcarries.all_delivered decoder_firmware

theorem Inv.seen_prefix (h : l.Inv) :
    l.client.seen <+: l.device.board.out.frames.map Frame.received := by
  obtain ⟨read, hcarries, hread⟩ := h.messages
  rw [hread.seen_eq]
  exact hcarries.delivered decoder_greedy

theorem Inv.seen_eq (h : l.Inv) (hread : l.Read) :
    l.client.seen = l.device.board.out.frames.map Frame.received := by
  obtain ⟨read, hcarries, hhas⟩ := h.messages
  rw [hread.1, hread.2] at hcarries
  rw [hhas.seen_eq]
  exact hcarries.all_delivered decoder_greedy

/-- In every run in which there is room, whatever goes next: each side has handled the first
    frames that the other has sent, in order and none twice, and all of them when nothing is on
    the way; none of these makes an unpacker throw; and the counts that the firmware reports are
    the numbers of the frames handled and sent. -/
theorem agreement (d : Device) {acts : List Action}
    (hroom : Throughout step Roomy (start d) acts) :
    let l := (start d).run acts
    l.device.board.handled.map SlvrFrame.received <+: l.commands.map Frame.received ∧
      l.client.seen <+: l.device.board.out.frames.map Frame.received ∧
      (l.Delivered → l.device.board.handled.map SlvrFrame.received =
        l.commands.map Frame.received) ∧
      (l.Read → l.client.seen = l.device.board.out.frames.map Frame.received) ∧
      (∀ frame ∈ l.client.seen, (onFrame frame.type frame.payload).isSome) ∧
      l.device.board.service.rxFrames = UInt32.ofNat l.device.board.handled.length ∧
      l.device.board.out.transmit.txFrames = UInt32.ofNat l.device.board.out.sent.length := by
  have h := (inv_start d).run hroom
  refine ⟨h.handled_prefix, h.seen_prefix, h.handled_eq, h.seen_eq, fun frame hframe => ?_,
    h.ok.rxFrames, h.ok.numbered.txFrames⟩
  obtain ⟨read, hcarries, hread⟩ := h.messages
  rw [hread.seen_eq] at hframe
  obtain ⟨f, hf, rfl⟩ := List.mem_map.1 hframe
  exact h.readable hcarries f hf

/-- Two pings are sent, and answered. -/
def twoPings : List Action :=
  [.command 0x8D (some [0x2A]), .command 0x8D (some [0x2B]), .inject 26, .task, .pop 26, .read 26]

set_option maxRecDepth 10000 in
theorem throughout_twoPings : Throughout step Roomy (start .booted) twoPings := by decide +kernel

theorem agreement_twoPings :
    let l := (start .booted).run twoPings
    l.device.board.handled.map SlvrFrame.received <+: l.commands.map Frame.received ∧
      l.client.seen <+: l.device.board.out.frames.map Frame.received ∧
      (l.Delivered → l.device.board.handled.map SlvrFrame.received =
        l.commands.map Frame.received) ∧
      (l.Read → l.client.seen = l.device.board.out.frames.map Frame.received) ∧
      (∀ frame ∈ l.client.seen, (onFrame frame.type frame.payload).isSome) ∧
      l.device.board.service.rxFrames = UInt32.ofNat l.device.board.handled.length ∧
      l.device.board.out.transmit.txFrames = UInt32.ofNat l.device.board.out.sent.length :=
  agreement .booted throughout_twoPings

/-! ## Pings -/

/-- The payloads of the pings sent. -/
def pings (l : Link) : List (List UInt8) := (l.commands.map Frame.received).filterMap Received.ping?

/-- The payloads of the pongs that the client has emitted. -/
def pongs (l : Link) : List (List UInt8) := l.client.events.filterMap ClientEvent.pong?

theorem pongs_eq (l : Link) : l.pongs = l.client.seen.filterMap Received.pong? := by
  rw [pongs, SliverClient.events, List.filterMap_flatMap, List.filterMap_eq_flatMap_toList]
  simp only [filterMap_pong?_frameEvents]

/-- The pongs sent are those for the pings handled. -/
theorem Inv.filterMap_frames (h : l.Inv) :
    (l.device.board.out.frames.map Frame.received).filterMap Received.pong? =
      (l.device.board.handled.map SlvrFrame.received).filterMap Received.ping? := by
  refine (Message.filterMap_framesFrom
    (fun type payload => if type = 0x0C then some payload else none) 0 _).trans ?_
  refine h.ok.pongs.trans ?_
  rw [List.filterMap_map]
  rfl

/-- In every run in which there is room, whatever goes next: the payloads of the pongs that the
    client emits are those of the first pings sent, in order and none twice, and those of all of
    them when nothing is on the way. -/
theorem pings_answered (d : Device) {acts : List Action}
    (hroom : Throughout step Roomy (start d) acts) :
    let l := (start d).run acts
    l.pongs <+: l.pings ∧ (l.Delivered → l.Read → l.pongs = l.pings) := by
  have h := (inv_start d).run hroom
  refine ⟨?_, fun hdelivered hread => ?_⟩
  · rw [pongs_eq]
    refine (h.seen_prefix.filterMap Received.pong?).trans ?_
    rw [h.filterMap_frames]
    exact h.handled_prefix.filterMap Received.ping?
  · rw [pongs_eq, h.seen_eq hread, h.filterMap_frames, h.handled_eq hdelivered]
    rfl

theorem pings_answered_twoPings :
    let l := (start .booted).run twoPings
    l.pongs <+: l.pings ∧ (l.Delivered → l.Read → l.pongs = l.pings) :=
  pings_answered .booted throughout_twoPings

end Link

end SliverOS
