import SliverOS.Kernel.Types
import SliverOS.Queues.Ring

/-!
# The queue of captured frames

`os/hal/hal_wifi.c`: a ring of `HAL_WIFI_QUEUE_CAPACITY` frames, filled by the
callback of the radio, or by `hal_wifi_inject_frame_for_test`, and emptied by
`hal_wifi_queue_pop`. Pointers passed are not `NULL`; the time read in a call is
given with it.

The ring loses the frame that comes when it is full, and not the oldest one. So it
holds the latest frames in the runs in which a frame only comes when it is not
full (`dropsOldest_of_run`), but not after 65 frames that differ
(`newest_frame_lost`). In every run, a frame captured is popped, in order, or
still in the queue, or counted as dropped (`Run.accounts`).
-/

namespace SliverOS

open Queues

/-- `hal_wifi_frame_meta_t`. -/
structure HalWifiFrameMeta where
  timestampMs : UInt32
  rssi : Int8
  channel : UInt8
  length : UInt16
  frameType : UInt8
  frameSubtype : UInt8
  deriving DecidableEq

/-- The fields of `wifi_promiscuous_pkt_t` that are read. -/
structure WifiPromiscuousPkt where
  sigLen : UInt32
  rssi : Int8
  channel : UInt8
  payload : List UInt8

/-- The static variables, with the one of `hal_wifi_queue_pop`. -/
structure HalWifi where
  queue : Fin 64 → HalWifiFrameMeta
  head : Fin 64
  tail : Fin 64
  count : UInt32
  dropped : UInt32
  captured : UInt32
  currentChannel : UInt8
  promiscuousActive : Bool
  simTick : UInt32

/-- What the code is built for. -/
inductive WifiTarget
  | espPlatform
  | host
  deriving DecidableEq

namespace HalWifi

/-! ## The code -/

/-- The static variables before any call. -/
def zero : HalWifi := ⟨fun _ => ⟨0, 0, 0, 0, 0, 0⟩, 0, 0, 0, 0, 0, 1, false, 0⟩

/-- `hal_wifi_init`, the radio apart. -/
def halWifiInit (s : HalWifi) : HalWifi :=
  { s with
    head := 0
    tail := 0
    count := 0
    dropped := 0
    captured := 0
    currentChannel := 1
    promiscuousActive := false }

/-- `hal_wifi_start_promiscuous`, the radio apart. -/
def halWifiStartPromiscuous (s : HalWifi) (initialChannel : UInt8) : HalWifi :=
  { s with
    currentChannel := if 1 ≤ initialChannel ∧ initialChannel ≤ 14 then initialChannel else 1
    promiscuousActive := true }

/-- `hal_wifi_stop_promiscuous`, the radio apart. -/
def halWifiStopPromiscuous (s : HalWifi) : HalWifi := { s with promiscuousActive := false }

/-- `hal_wifi_set_channel`, the radio apart. -/
def halWifiSetChannel (s : HalWifi) (channel : UInt8) : MkStatus × HalWifi :=
  if channel < 1 ∨ 14 < channel then (.invalidArg, s)
  else (.ok, { s with currentChannel := channel })

/-- The frame control field of a frame, `fc`. -/
def frameControl (payload : List UInt8) : UInt16 :=
  (payload.getD 0 0).toUInt16 ||| (payload.getD 1 0).toUInt16 <<< 8

/-- The type in a frame control field. -/
def frameType (fc : UInt16) : UInt8 := (fc >>> 2 &&& 0x03).toUInt8

/-- The subtype in a frame control field. -/
def frameSubtype (fc : UInt16) : UInt8 := (fc >>> 4 &&& 0x0F).toUInt8

/-- The end of the functions that capture a frame. -/
def enqueue (s : HalWifi) (frame : HalWifiFrameMeta) : HalWifi :=
  if 64 ≤ s.count then { s with dropped := s.dropped + 1 }
  else { s with
    queue := Function.update s.queue s.head frame
    head := s.head + 1
    count := s.count + 1
    captured := s.captured + 1 }

/-- What `wifi_promiscuous_rx_cb` stores of a packet, unless it is too short. -/
def rxFrame? (now : UInt32) (pkt : WifiPromiscuousPkt) : Option HalWifiFrameMeta :=
  if pkt.sigLen < 24 then none
  else
    let fc := frameControl pkt.payload
    some ⟨now, pkt.rssi, pkt.channel, pkt.sigLen.toUInt16, frameType fc, frameSubtype fc⟩

/-- What `hal_wifi_inject_frame_for_test` stores of a frame, unless it is too short. -/
def injectedFrame? (now : UInt32) (channel : UInt8) (payload : List UInt8) (len : UInt16)
    (rssi : Int8) : Option HalWifiFrameMeta :=
  if len < 2 then none
  else
    let fc := frameControl payload
    some ⟨now, rssi, channel, len, frameType fc, frameSubtype fc⟩

/-- `wifi_promiscuous_rx_cb`. -/
def wifiPromiscuousRxCb (s : HalWifi) (now : UInt32) (pkt : WifiPromiscuousPkt) : HalWifi :=
  (rxFrame? now pkt).elim s s.enqueue

/-- `hal_wifi_inject_frame_for_test`. -/
def halWifiInjectFrameForTest (s : HalWifi) (now : UInt32) (payload : List UInt8) (len : UInt16)
    (rssi : Int8) : HalWifi :=
  (injectedFrame? now s.currentChannel payload len rssi).elim s s.enqueue

/-- `hal_wifi_queue_pop`: the frame, if it returns one. -/
def halWifiQueuePop (target : WifiTarget) (s : HalWifi) (now : UInt32) :
    Option HalWifiFrameMeta × HalWifi :=
  if s.count = 0 then
    if target = .espPlatform then (none, s)
    else
      let s := { s with simTick := s.simTick + 1 }
      if s.simTick % 5 = 0 then
        (some ⟨now, -65, s.currentChannel, 128, 0, 8⟩, { s with captured := s.captured + 1 })
      else (none, s)
  else
    (some (s.queue s.tail), { s with
      tail := s.tail + 1
      count := s.count - 1 })

/-! ## Runs -/

/-- A call of the queue, or one that changes the channel. -/
inductive Call
  | wifiPromiscuousRxCb (now : UInt32) (pkt : WifiPromiscuousPkt)
  | halWifiInjectFrameForTest (now : UInt32) (payload : List UInt8) (len : UInt16) (rssi : Int8)
  | halWifiQueuePop (now : UInt32)
  | halWifiSetChannel (channel : UInt8)

/-- What a call asks of the queue: nothing, for a frame too short. -/
def request? (s : HalWifi) : Call → Option (Request HalWifiFrameMeta)
  | .wifiPromiscuousRxCb now pkt => (rxFrame? now pkt).map .post
  | .halWifiInjectFrameForTest now payload len rssi =>
    (injectedFrame? now s.currentChannel payload len rssi).map .post
  | .halWifiQueuePop _ => some .pop
  | .halWifiSetChannel _ => none

/-- The queue after a call. -/
def exec (target : WifiTarget) (s : HalWifi) : Call → HalWifi
  | .wifiPromiscuousRxCb now pkt => s.wifiPromiscuousRxCb now pkt
  | .halWifiInjectFrameForTest now payload len rssi =>
    s.halWifiInjectFrameForTest now payload len rssi
  | .halWifiQueuePop now => (s.halWifiQueuePop target now).2
  | .halWifiSetChannel channel => (s.halWifiSetChannel channel).2

/-- The frame that a call captures, if it does. -/
def capture? (s : HalWifi) (c : Call) : Option HalWifiFrameMeta :=
  match s.request? c with
  | some (.post frame) => some frame
  | _ => none

/-- The frame that a call pops, if it does. -/
def pop? (target : WifiTarget) (s : HalWifi) : Call → Option HalWifiFrameMeta
  | .halWifiQueuePop now => (s.halWifiQueuePop target now).1
  | _ => none

/-- The frames in the queue. -/
def ring (s : HalWifi) : Ring 64 HalWifiFrameMeta := ⟨s.queue, s.head, s.tail, s.count.toNat⟩

end HalWifi

/-- A run of the queue: the frames captured and popped so far, and those that a
    queue that loses its oldest frame when it is full would have. -/
structure WifiRun where
  wifi : HalWifi
  captured : List HalWifiFrameMeta
  popped : List HalWifiFrameMeta
  latest : List HalWifiFrameMeta

namespace WifiRun

open HalWifi

/-- The start of a run. -/
def init (s : HalWifi) : WifiRun := ⟨s.halWifiInit, [], [], []⟩

/-- One call more. -/
def exec (target : WifiTarget) (l : WifiRun) (c : Call) : WifiRun where
  wifi := l.wifi.exec target c
  captured := l.captured ++ (l.wifi.capture? c).toList
  popped := l.popped ++ (l.wifi.pop? target c).toList
  latest := (l.wifi.request? c).elim l.latest fun req => (dropOldest 64 l.latest req).1

/-- The runs with calls that are allowed, of which the pops return a frame of the queue. -/
inductive Run (target : WifiTarget) (Allowed : HalWifi → Call → Prop) : WifiRun → Prop
  | init (s : HalWifi) : Run target Allowed (init s)
  | call {l : WifiRun} (h : Run target Allowed l) (c : Call) (hc : Allowed l.wifi c)
      (hpop : ∀ now, c = .halWifiQueuePop now → l.wifi.count ≠ 0) :
      Run target Allowed (l.exec target c)

/-- What is known of the frames of a run: those popped are, in order, the first of
    those captured and not dropped, and those in the queue come after them; each of
    the others is counted as dropped. -/
structure Accounts (l : WifiRun) : Prop where
  ring : l.wifi.ring.Ok
  order : (l.popped ++ l.wifi.ring.contents).Sublist l.captured
  count : UInt32.ofNat l.captured.length =
    UInt32.ofNat (l.popped.length + l.wifi.ring.contents.length) + l.wifi.dropped

/-- The queue holds the latest frames, and the others are accounted for. -/
structure DropsOldest (l : WifiRun) : Prop where
  latest : l.wifi.ring.contents = l.latest
  accounts : Accounts l

/-- A frame only comes when the queue is not full. -/
def NotFull (s : HalWifi) (c : Call) : Prop := ∀ frame, s.capture? c = some frame → s.count < 64

variable {target : WifiTarget} {Allowed : HalWifi → Call → Prop} {l : WifiRun} {s : HalWifi}
  {c : Call}

theorem accounts_init (s : HalWifi) : Accounts (init s) where
  ring := ⟨Nat.zero_le _, rfl⟩
  order := .slnil
  count := rfl

theorem lt_count_iff : s.count < 64 ↔ s.ring.count < 64 := UInt32.lt_iff_toNat_lt

/-! ## What the calls do -/

theorem ring_count_pos (h : s.count ≠ 0) : 0 < s.ring.count :=
  Nat.pos_of_ne_zero fun hzero => h (UInt32.toNat_inj.1 hzero)

/-- The first frame of the queue is popped. -/
theorem halWifiQueuePop_of_ne (h : s.count ≠ 0) (target : WifiTarget) (now : UInt32) :
    (s.halWifiQueuePop target now).1 = some (s.ring.slots s.ring.tail) ∧
      (s.halWifiQueuePop target now).2.ring = s.ring.drop ∧
      (s.halWifiQueuePop target now).2.dropped = s.dropped := by
  have hpred := toNat_sub_one (ring_count_pos h).ne'
  rw [halWifiQueuePop, if_neg h]
  refine ⟨rfl, ?_, rfl⟩
  rw [HalWifi.ring, hpred]
  rfl

theorem ring_halWifiSetChannel (channel : UInt8) (s : HalWifi) :
    (s.halWifiSetChannel channel).2.ring = s.ring ∧
      (s.halWifiSetChannel channel).2.dropped = s.dropped := by
  rw [halWifiSetChannel]
  split_ifs
  · exact ⟨rfl, rfl⟩
  · exact ⟨rfl, rfl⟩

/-- A frame captured is queued, or counted as dropped. -/
theorem Accounts.enqueue (h : Accounts l) (frame : HalWifiFrameMeta) :
    Accounts { l with
        wifi := l.wifi.enqueue frame
        captured := l.captured ++ [frame] } ∧
      (l.wifi.enqueue frame).ring.contents =
        (fifo 64 l.wifi.ring.contents (.post frame)).1 := by
  obtain ⟨⟨hok, hcontents⟩, -⟩ := Ring.Represents.step ⟨h.ring, rfl⟩ (.post frame)
  have hcount := h.count
  rw [Ring.queue] at hok hcontents
  by_cases hroom : l.wifi.ring.count < 64
  · -- There is room, and the frame is the last one.
    rw [if_pos hroom] at hok hcontents
    have hsucc := toNat_add_one (Nat.lt_of_lt_of_le hroom (by decide))
    have hring : (l.wifi.enqueue frame).ring = l.wifi.ring.push frame := by
      rw [HalWifi.enqueue, if_neg (UInt32.not_le.2 (lt_count_iff.2 hroom)), HalWifi.ring, hsucc]
      rfl
    have hdropped : (l.wifi.enqueue frame).dropped = l.wifi.dropped := by
      rw [HalWifi.enqueue, if_neg (UInt32.not_le.2 (lt_count_iff.2 hroom))]
    have hpush := h.ring.contents_push hroom frame
    refine ⟨⟨hring ▸ hok, ?_, ?_⟩, hring ▸ hcontents⟩
    · simp only [hring, hpush, ← List.append_assoc]
      exact h.order.append (.refl _)
    · simp only [hring, hpush, hdropped, List.length_append, List.length_singleton,
        ← Nat.add_assoc, UInt32.ofNat_add (_ + _) 1, UInt32.ofNat_add l.captured.length 1]
      rw [hcount, add_right_comm]
  · -- The frame that comes is dropped, not one of the queue.
    rw [if_neg hroom] at hok hcontents
    have hfull : 64 ≤ l.wifi.count := UInt32.not_lt.1 fun hlt => hroom (lt_count_iff.1 hlt)
    have hdrop : l.wifi.enqueue frame = { l.wifi with dropped := l.wifi.dropped + 1 } := by
      rw [HalWifi.enqueue, if_pos hfull]
    rw [hdrop]
    refine ⟨⟨h.ring, h.order.trans (List.sublist_append_left _ _), ?_⟩, hcontents⟩
    change _ = _ + (l.wifi.dropped + 1)
    rw [List.length_append, List.length_singleton, UInt32.ofNat_add l.captured.length 1, hcount,
      add_assoc]
    rfl

/-- A frame popped is accounted for. -/
theorem Accounts.pop (h : Accounts l) (hcount : l.wifi.count ≠ 0) (now : UInt32) :
    Accounts (l.exec target (.halWifiQueuePop now)) ∧
      (l.wifi.halWifiQueuePop target now).2.ring.contents = l.wifi.ring.contents.tail := by
  have hpos := ring_count_pos hcount
  obtain ⟨hfirst, hring, hdropped⟩ := halWifiQueuePop_of_ne hcount target now
  -- The first frame of the ring is the one that is given.
  have hcons := Ring.contents_eq_cons hpos
  have horder := h.order
  have hnum := h.count
  rw [hcons] at horder hnum
  refine ⟨⟨?_, ?_, ?_⟩, by rw [hring, hcons]; rfl⟩
  · simp only [WifiRun.exec, HalWifi.exec, hring]
    exact h.ring.drop hpos
  · simp only [WifiRun.exec, HalWifi.exec, HalWifi.pop?, HalWifi.capture?, HalWifi.request?, hring,
      hfirst, Option.toList_some, Option.toList_none, List.append_nil, List.append_assoc]
    exact horder
  · simp only [WifiRun.exec, HalWifi.exec, HalWifi.pop?, HalWifi.capture?, HalWifi.request?, hring,
      hfirst, hdropped, Option.toList_some, Option.toList_none, List.append_nil,
      List.length_append, List.length_singleton]
    rw [hnum, List.length_cons, Nat.add_assoc, Nat.add_comm 1]

/-- A call that captures what is there to capture. -/
theorem Accounts.capture (h : Accounts l) {frame? : Option HalWifiFrameMeta}
    (hrequest : l.wifi.request? c = frame?.map .post)
    (hexec : l.wifi.exec target c = frame?.elim l.wifi l.wifi.enqueue)
    (hpop : l.wifi.pop? target c = none) :
    Accounts (l.exec target c) ∧ (l.wifi.exec target c).ring.contents =
      (l.wifi.request? c).elim l.wifi.ring.contents
        fun req => (fifo 64 l.wifi.ring.contents req).1 := by
  cases frame? with
  | none =>
    simp only [WifiRun.exec, capture?, hrequest, hexec, hpop, Option.map_none, Option.elim_none,
      Option.toList_none, List.append_nil]
    exact ⟨⟨h.ring, h.order, h.count⟩, trivial⟩
  | some frame =>
    obtain ⟨haccounts, hcontents⟩ := h.enqueue frame
    simp only [WifiRun.exec, capture?, hrequest, hexec, hpop, Option.map_some, Option.elim_some,
      Option.toList_none, Option.toList_some, List.append_nil]
    exact ⟨⟨haccounts.ring, haccounts.order, haccounts.count⟩, hcontents⟩

/-- One call: the queue is one that rejects what comes when it is full. -/
theorem Accounts.exec (h : Accounts l) (target : WifiTarget)
    (hpop : ∀ now, c = .halWifiQueuePop now → l.wifi.count ≠ 0) :
    Accounts (l.exec target c) ∧ (l.wifi.exec target c).ring.contents =
      (l.wifi.request? c).elim l.wifi.ring.contents
        fun req => (fifo 64 l.wifi.ring.contents req).1 := by
  cases c with
  | wifiPromiscuousRxCb now pkt => exact h.capture rfl rfl rfl
  | halWifiInjectFrameForTest now payload len rssi => exact h.capture rfl rfl rfl
  | halWifiQueuePop now => exact h.pop (hpop now rfl) now
  | halWifiSetChannel channel =>
    obtain ⟨hring, hdropped⟩ := ring_halWifiSetChannel channel l.wifi
    simp only [WifiRun.exec, HalWifi.exec, capture?, request?, pop?, Option.toList_none,
      List.append_nil, Option.elim_none]
    exact ⟨⟨hring ▸ h.ring, hring ▸ h.order, hring ▸ hdropped ▸ h.count⟩, by rw [hring]⟩

/-- In any run, every frame captured is popped, in order, or in the queue, or counted
    as dropped. -/
theorem Run.accounts (h : Run target Allowed l) : Accounts l := by
  induction h with
  | init s => exact accounts_init s
  | call _ c _ hpop ih => exact (ih.exec target hpop).1

/-- A call in which no frame comes to a full queue. -/
theorem DropsOldest.exec (h : DropsOldest l) (target : WifiTarget) (hc : NotFull l.wifi c)
    (hpop : ∀ now, c = .halWifiQueuePop now → l.wifi.count ≠ 0) :
    DropsOldest (l.exec target c) := by
  obtain ⟨haccounts, hcontents⟩ := h.accounts.exec target hpop
  refine ⟨hcontents.trans ?_, haccounts⟩
  rw [WifiRun.exec, h.latest]
  cases hrequest : l.wifi.request? c with
  | none => rfl
  | some req =>
    refine congrArg Prod.fst (dropOldest_eq fun frame hreq => ?_).symm
    have hlt := hc frame (by rw [capture?, hrequest, hreq])
    rw [← h.latest, Ring.length_contents]
    exact lt_count_iff.1 hlt

/-- In a run in which frames only come when fewer than 64 are in the queue, it holds
    the latest frames, in order, and the others are accounted for. -/
theorem dropsOldest_of_run (h : Run target NotFull l) : DropsOldest l := by
  induction h with
  | init s => exact ⟨rfl, accounts_init s⟩
  | call _ c hc hpop ih => exact ih.exec target hc hpop

/-- A beacon, with its strength. -/
def beacon (rssi : Int8) : Call := .halWifiInjectFrameForTest 0 [0x80, 0x00] 2 rssi

/-- A beacon is captured, and popped. -/
theorem dropsOldest_of_run_beacon :
    DropsOldest (((init zero).exec .host (beacon (-65))).exec .host (.halWifiQueuePop 1)) :=
  dropsOldest_of_run (.call (.call (.init zero) (beacon (-65)) (fun _ _ => by decide)
    (fun _ h => by cases h)) (.halWifiQueuePop 1) (fun _ h => by cases h) (fun _ _ => by decide))

/-! ## A full queue -/

/-- When a frame comes to a full queue, the queue still holds the latest frames only
    if all of them are the frame that comes. -/
theorem latest_enqueue_iff (h : DropsOldest l) (hfull : 64 ≤ l.wifi.count)
    (frame : HalWifiFrameMeta) :
    (l.wifi.enqueue frame).ring.contents = (dropOldest 64 l.latest (.post frame)).1 ↔
      ∀ other ∈ l.latest, other = frame := by
  have hlen : 64 ≤ l.latest.length := by
    rw [← h.latest, Ring.length_contents]
    exact UInt32.le_iff_toNat_le.1 hfull
  have hne : l.latest ≠ [] := fun hnil => by simp [hnil] at hlen
  rw [(h.accounts.enqueue frame).2, h.latest, eq_comm]
  exact dropOldest_full_iff (Nat.not_lt.2 hlen) hne frame

/-- A run of 65 beacons, each stronger than the one before. -/
def crowded : WifiRun :=
  ((List.range 65).map fun k => beacon (Int8.ofNat k)).foldl (exec .host) (init zero)

theorem run_foldl (h : Run target (fun _ _ => True) l) {calls : List Call}
    (hcalls : ∀ c ∈ calls, ∀ now, c ≠ .halWifiQueuePop now) :
    Run target (fun _ _ => True) (calls.foldl (exec target) l) := by
  induction calls generalizing l with
  | nil => exact h
  | cons c calls ih =>
    obtain ⟨hc, hrest⟩ := List.forall_mem_cons.1 hcalls
    exact ih (h.call c trivial fun now heq => absurd heq (hc now)) hrest

/-- The strongest beacon is lost, and the queue still has the weakest one. -/
theorem newest_frame_lost : Run .host (fun _ _ => True) crowded ∧
    crowded.wifi.dropped = 1 ∧
    (crowded.wifi.ring.contents.map (·.rssi)).head? = some 0 ∧
    (crowded.latest.map (·.rssi)).getLast? = some 64 ∧ ¬DropsOldest crowded := by
  have hrun : Run .host (fun _ _ => True) crowded :=
    run_foldl (.init zero) fun c hc now heq => by
      obtain ⟨k, -, rfl⟩ := List.mem_map.1 hc
      cases heq
  have hhead : (crowded.wifi.ring.contents.map (·.rssi)).head? = some 0 := by decide +kernel
  have hlast : (crowded.latest.map (·.rssi)).getLast? = some 64 := by decide +kernel
  refine ⟨hrun, by decide +kernel, hhead, hlast, fun h => ?_⟩
  have hfirst : (crowded.latest.map (·.rssi)).head? = some 1 := by decide +kernel
  rw [← h.latest, hhead] at hfirst
  exact absurd hfirst (by decide)

end WifiRun

end SliverOS
