import SliverOS.Protocol.Agreement
import SliverOS.Protocol.AppState
import SliverOS.Streams.Channel

/-!
# The client in the browser

`SliverClient` of `flasher/src/protocol/sliver_client.js`, once it is connected: the commands it
writes to the port, each with the next sequence number, and what it makes of the bytes it reads
(`onFrame`). The exception of an unpacker leaves the parser, and is caught by the loop reading
the port, which goes on with the next chunk.

* `isSome_onFrame`: no unpacker throws on a payload that is long enough;
* `SliverClient.HasRead.receive`: when none does, the frames passed to `_onFrame` are all those of
  the stream read, whichever way it comes.
-/

namespace SliverOS.Browser

open Bytes Utf8 Wire

/-- The events that `_onFrame` emits. -/
inductive ClientEvent
  | hello
  | deviceInfo (info : UnpackedDeviceInfo)
  | deviceStatus (status : UnpackedDeviceStatus)
  | memoryStatus (mem : UnpackedMemoryStatus)
  | storageStatus (storage : UnpackedStorageStatus)
  | gameState (game : UnpackedGameState)
  | appState (state : AppStateEvent)
  | log (log : UnpackedLog)
  | terminalOutput (text : String)
  | pong (payload : List UInt8)
  deriving DecidableEq

/-- `_onFrame`: the events it emits, or none when an unpacker throws. -/
def onFrame (type : UInt8) (payload : List UInt8) : Option (List ClientEvent) :=
  match type with
  | 0x01 => some [.hello]
  | 0x02 => (unpackDeviceInfo payload).map fun info => [.deviceInfo info]
  | 0x06 => (unpackDeviceStatus payload).map fun status => [.deviceStatus status]
  | 0x07 => (unpackMemoryStatus payload).map fun mem => [.memoryStatus mem]
  | 0x08 => (unpackStorageStatus payload).map fun storage => [.storageStatus storage]
  | 0x0D => (unpackGameState payload).map fun game => [.gameState game]
  | 0x05 => some [.appState (onAppState payload)]
  | 0x09 => (unpackLog payload).map fun log => [.log log]
  | 0x0E => (unpackTerminal payload).map fun term => [.terminalOutput term.text]
  | 0x0C => some [.pong payload]
  | _ => some []

/-- The event with the information on the device. -/
def ClientEvent.info? : ClientEvent → Option UnpackedDeviceInfo
  | deviceInfo info => some info
  | _ => none

/-- The payload of the event of a pong. -/
def ClientEvent.pong? : ClientEvent → Option (List UInt8)
  | pong payload => some payload
  | _ => none

/-- The events of a frame. -/
def frameEvents (frame : Received) : List ClientEvent :=
  (onFrame frame.type frame.payload).getD []

/-- The type of the frames for which an event is emitted. -/
def ClientEvent.type : ClientEvent → UInt8
  | hello => 0x01
  | deviceInfo _ => 0x02
  | deviceStatus _ => 0x06
  | memoryStatus _ => 0x07
  | storageStatus _ => 0x08
  | gameState _ => 0x0D
  | appState _ => 0x05
  | log _ => 0x09
  | terminalOutput _ => 0x0E
  | pong _ => 0x0C

/-- The events of a frame are of its type. -/
theorem type_of_mem_frameEvents {frame : Received} {e : ClientEvent} (h : e ∈ frameEvents frame) :
    e.type = frame.type := by
  rw [frameEvents] at h
  cases hevents : onFrame frame.type frame.payload with
  | none =>
    rw [hevents] at h
    cases h
  | some events =>
    rw [hevents, Option.getD_some] at h
    unfold onFrame at hevents
    split at hevents
    case h_11 =>
      obtain rfl := Option.some.inj hevents
      cases h
    case h_1 htype | h_7 htype | h_10 htype =>
      obtain rfl := Option.some.inj hevents
      obtain rfl := List.mem_singleton.1 h
      exact htype.symm
    case h_2 htype | h_3 htype | h_4 htype | h_5 htype | h_6 htype | h_8 htype | h_9 htype =>
      obtain ⟨_, -, rfl⟩ := Option.map_eq_some_iff.1 hevents
      obtain rfl := List.mem_singleton.1 h
      exact htype.symm

/-- What is made of events of one type only is made of the frames of this type only. -/
theorem filterMap_frameEvents {α : Type*} {f : ClientEvent → Option α} {type : UInt8}
    (hf : ∀ e, (f e).isSome → e.type = type) {frame : Received} (hne : frame.type ≠ type) :
    (frameEvents frame).filterMap f = [] := by
  refine List.filterMap_eq_nil_iff.2 fun e he => ?_
  rw [← Option.not_isSome_iff_eq_none]
  exact fun hsome => hne ((type_of_mem_frameEvents he).symm.trans (hf e hsome))

/-- `SliverClient`, with a writer, and the frames passed to `_onFrame` since the start. -/
structure SliverClient where
  parser : SlvrStreamParser
  sequence : ℕ
  deviceInfo : Option UnpackedDeviceInfo
  seen : List Received

namespace SliverClient

/-- The constructor. -/
def new : SliverClient := ⟨.new, 0, none, []⟩

variable (c : SliverClient)

/-! ## Writing -/

/-- `sendCommand`: the bytes it writes to the port, or the error that `encodeFrame` throws. The
    sequence number is counted in both cases. -/
def sendCommand (type : ℕ) (payload : Option (List UInt8)) :
    SliverClient × Except EncodeError (List UInt8) :=
  ({ c with sequence := c.sequence + 1 },
    encodeFrame ⟨type, some 0, some (c.sequence &&& 0xFF), payload⟩)

/-! ## Reading -/

/-- `feed` of a chunk, with `_onFrame` as its callback. -/
def feed (value : List UInt8) : SlvrStreamParser.Call :=
  c.parser.feedWith (fun _ frame => (onFrame frame.type frame.payload).isNone) c.seen value

/-- A chunk read by the loop of `_startReadLoop`. -/
def receive (value : List UInt8) : SliverClient where
  parser := (c.feed value).parser
  sequence := c.sequence
  deviceInfo := (((c.feed value).passed.drop c.seen.length).flatMap frameEvents
    |>.filterMap ClientEvent.info?).getLast?.or c.deviceInfo
  seen := (c.feed value).passed

/-- The events emitted since the start. -/
def events : List ClientEvent := c.seen.flatMap frameEvents

end SliverClient

/-! ## Payloads long enough -/

/-- The number of bytes that the unpacker of a type reads at least. -/
def requiredLength : UInt8 → ℕ
  | 0x02 => 128
  | 0x06 => 16
  | 0x07 => 36
  | 0x08 => 20
  | 0x0D => 20
  | 0x09 => 5
  | 0x0E => 2
  | _ => 0

section

variable {payload : List UInt8}

/-- A number is there when its bytes are. -/
theorem number?_of_le {w offset : ℕ} (h : offset + w ≤ payload.length) :
    number? w offset payload = some (ofLE ((payload.drop offset).take w)) := if_pos h

/-- The loop on the tasks passes those that are not there. -/
theorem isSome_unpackTasks (n offset : ℕ) : (unpackTasks payload n offset).isSome := by
  induction n generalizing offset with
  | zero => rfl
  | succ n ih =>
    rw [unpackTasks]
    split_ifs with hlen
    · obtain ⟨tasks, htasks⟩ := Option.isSome_iff_exists.1 (ih (offset + 36))
      rw [htasks]
      simp (disch := omega) [unpackTask, getUint8, getUint32, number?_of_le]
    · exact ih offset

/-- No unpacker throws on a payload that is long enough. -/
theorem isSome_onFrame {type : UInt8} (h : requiredLength type ≤ payload.length) :
    (onFrame type payload).isSome := by
  unfold onFrame
  split
  case h_1 => rfl
  case h_2 =>
    have hlen : 128 ≤ payload.length := h
    simp (disch := omega) [unpackDeviceInfo, getUint32, number?_of_le]
  case h_3 =>
    have hlen : 16 ≤ payload.length := h
    obtain ⟨tasks, htasks⟩ :=
      Option.isSome_iff_exists.1 (@isSome_unpackTasks payload 8 16)
    simp (disch := omega) [unpackDeviceStatus, getUint32, getUint8, number?_of_le, htasks]
  case h_4 =>
    have hlen : 36 ≤ payload.length := h
    simp (disch := omega) [unpackMemoryStatus, getUint32, number?_of_le]
  case h_5 =>
    have hlen : 20 ≤ payload.length := h
    simp (disch := omega) [unpackStorageStatus, getUint32, number?_of_le]
  case h_6 =>
    have hlen : 20 ≤ payload.length := h
    simp (disch := omega) [unpackGameState, getInt16, getUint16, getUint8, getUint32, number?_of_le]
  case h_7 => rfl
  case h_8 =>
    have hlen : 5 ≤ payload.length := h
    simp (disch := omega) [unpackLog, getUint8, getUint32, number?_of_le]
  case h_9 =>
    have hlen : 2 ≤ payload.length := h
    simp (disch := omega) [unpackTerminal, getUint16, number?_of_le]
  case h_10 => rfl
  case h_11 => rfl

end

/-! ## Chunks -/

namespace SlvrStreamParser

/-- An exception leaves `feed` at the last of the frames passed. -/
theorem throws_of_loopWith {throws : List Received → Received → Bool} {n : ℕ}
    {p : SlvrStreamParser} {passed : List Received} (h : (loopWith throws n p passed).threw) :
    ∃ before frame, (loopWith throws n p passed).passed = before ++ [frame] ∧
      throws before frame := by
  induction n generalizing p passed with
  | zero => cases h
  | succ n ih =>
    rw [loopWith] at h ⊢
    by_cases hshort : p.bufLen < frameOverhead
    · simp [hshort] at h
    · simp only [if_neg hshort] at h ⊢
      cases hit : p.iterate with
      | stop q =>
        rw [hit] at h
        cases h
      | next q =>
        rw [hit] at h
        exact ih h
      | frame q r =>
        simp only [hit] at h ⊢
        split_ifs at h ⊢ with hthrows
        · exact ⟨passed, r, rfl, hthrows⟩
        · exact ih h

/-- The frames passed so far are the first ones of the stream. -/
theorem Sound.passedOn_prefix {p : SlvrStreamParser} {h : List UInt8} {es : List Event}
    (hs : p.Sound h es) : passedOn es <+: (greedy h).map Frame.received := by
  have hevents := hs.resumes []
  rw [List.append_nil] at hevents
  rw [greedy_eq_filterMap, greedyEvents, hevents, List.filterMap_append, List.map_append]
  exact List.prefix_append _ _

end SlvrStreamParser

/-- The frames of a stream, as they are received, are found by a decoder. -/
theorem decoder_greedy :
    Streams.Decoder Frame.bytes Frame.received fun xs => (greedy xs).map Frame.received where
  mono xs ys := by
    refine List.IsPrefix.map _ ?_
    rw [greedy, greedy, incremental_greedyVerdict.scan_append]
    exact List.prefix_append _ _
  decodes frames := by
    have hframes : (frames.map Event.frame).filterMap Event.frame? = frames := by
      rw [List.filterMap_map]
      exact List.filterMap_some
    simp only [greedy_eq_filterMap, greedyEvents_flatMap_bytes, hframes]

/-- The client has read a stream: the frames passed are all those in it. -/
def SliverClient.HasRead (c : SliverClient) (read : List UInt8) : Prop :=
  (⟨c.parser, c.seen, false⟩ : SlvrStreamParser.Call).Follows read

namespace SliverClient

variable {c : SliverClient} {read value : List UInt8}

theorem hasRead_new : new.HasRead [] := SlvrStreamParser.follows_new

theorem HasRead.seen_eq (h : c.HasRead read) : c.seen = (greedy read).map Frame.received := by
  obtain ⟨es, hs, hseen, hquiet⟩ := h
  have hes : greedyEvents read = es := hs.resumes.items_eq (hquiet rfl)
  change c.seen = _ at hseen
  rw [hseen, greedy_eq_filterMap, hes]
  rfl

/-- A chunk is read whole when no frame in the stream makes an unpacker throw. -/
theorem HasRead.receive (h : c.HasRead read)
    (hframes : ∀ f ∈ greedy (read ++ value), (onFrame f.type f.payload).isSome) :
    (c.receive value).HasRead (read ++ value) := by
  by_cases hvalue : value = []
  · subst hvalue
    rw [List.append_nil]
    exact h
  have hfollows := SlvrStreamParser.follows_feedWith
    (fun _ frame => (onFrame frame.type frame.payload).isNone) h hvalue
  have hthrew : (c.feed value).threw = false := by
    by_contra hthrew
    rw [Bool.not_eq_false] at hthrew
    have hloop := hthrew
    rw [SliverClient.feed, SlvrStreamParser.feedWith, if_neg hvalue] at hloop
    obtain ⟨before, frame, hpassed, hnone⟩ := SlvrStreamParser.throws_of_loopWith hloop
    -- The frame that makes it throw is one of the stream.
    obtain ⟨es, hs, hes, -⟩ := hfollows
    have hmem : frame ∈ SlvrStreamParser.passedOn es := by
      rw [← hes, SlvrStreamParser.feedWith, if_neg hvalue, hpassed]
      exact List.mem_append_right _ (List.mem_singleton.2 rfl)
    obtain ⟨f, hf, rfl⟩ := List.mem_map.1 (hs.passedOn_prefix.subset hmem)
    have hsome := hframes f hf
    rw [Option.isNone_iff_eq_none] at hnone
    rw [show onFrame f.type f.payload = none from hnone] at hsome
    cases hsome
  obtain ⟨es, hs, hes, hquiet⟩ := hfollows
  exact ⟨es, hs, hes, fun _ => hquiet hthrew⟩

end SliverClient

end SliverOS.Browser
