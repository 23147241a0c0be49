import SliverOS.Hal.Wifi
import SliverOS.Vfs.Vfs

/-!
# The Wi-Fi diagnostics application

`os/apps/wifi_diagnostics/wifi_diagnostics.c`: a call of the task takes frames of the queue, counts
them by type, goes to the next channel and writes to the audit log. The tick of the kernel and the
times read by `hal_wifi_queue_pop` are arguments of the task.

A run keeps the frames analyzed since the latest `wifi_diagnostics_init`, and what the task has
asked of the radio. The counters are the numbers of these frames, modulo `2 ^ 32` (`Counted`).

* `WifiDiagnosticsRun.consistent`: after any run, they add up, at most eight frames have been taken
  by a call, the channel is one that the radio accepts, and the average strength is one that a
  frame can have.
-/

namespace SliverOS

open HalWifi

/-! ## The code -/

/-- `wifi_diag_stats_t`. -/
structure WifiDiagStats where
  totalFramesAnalyzed : UInt32
  mgmtFrames : UInt32
  ctrlFrames : UInt32
  dataFrames : UInt32
  beaconFrames : UInt32
  probeFrames : UInt32
  avgRssi : Int32
  activeChannel : UInt8

/-- The statistics as `memset` leaves them. -/
def WifiDiagStats.zero : WifiDiagStats := ⟨0, 0, 0, 0, 0, 0, 0, 0⟩

/-- The static variables, with those of the radio. -/
structure WifiDiagnostics where
  stats : WifiDiagStats
  lastHopTick : UInt32
  lastLogTick : UInt32
  active : Bool
  wifi : HalWifi

/-- The static variables before any call. -/
def WifiDiagnostics.zero : WifiDiagnostics := ⟨.zero, 0, 0, false, .zero⟩

/-- The frame is counted, in the body of the loop: the types are those of
    `hal_wifi_frame_type_t`. -/
def WifiDiagStats.count (s : WifiDiagStats) (frame : HalWifiFrameMeta) : WifiDiagStats :=
  let s := { s with totalFramesAnalyzed := s.totalFramesAnalyzed + 1 }
  if frame.frameType = 0 then
    let s := { s with mgmtFrames := s.mgmtFrames + 1 }
    if frame.frameSubtype = 8 then { s with beaconFrames := s.beaconFrames + 1 }
    else if frame.frameSubtype = 4 ∨ frame.frameSubtype = 5 then
      { s with probeFrames := s.probeFrames + 1 }
    else s
  else if frame.frameType = 1 then { s with ctrlFrames := s.ctrlFrames + 1 }
  else if frame.frameType = 2 then { s with dataFrames := s.dataFrames + 1 }
  else s

/-- The variables of the loop, with the frames that it has taken. -/
structure Slice where
  wifi : HalWifi
  stats : WifiDiagStats
  processed : UInt32
  rssiSum : Int32
  frames : List HalWifiFrameMeta

/-- The body of the loop, on a frame. -/
def Slice.take (l : Slice) (frame : HalWifiFrameMeta) (wifi : HalWifi) : Slice where
  wifi
  stats := l.stats.count frame
  processed := l.processed + 1
  rssiSum := l.rssiSum + frame.rssi.toInt32
  frames := l.frames ++ [frame]

/-- The loop, with as many turns left as `8 - processed`. -/
def Slice.drain (target : WifiTarget) (times : ℕ → UInt32) : ℕ → Slice → Slice
  | 0, l => l
  | n + 1, l =>
    match l.wifi.halWifiQueuePop target (times n) with
    | (some frame, wifi) => drain target times n (l.take frame wifi)
    | (none, wifi) => { l with wifi }

namespace WifiDiagnostics

/-- What a call of the task has done: the frames that it took, what `hal_wifi_set_channel` was
    asked and replied, and what was appended to the log. -/
structure Activity where
  frames : List HalWifiFrameMeta
  hops : List (UInt8 × MkStatus)
  logs : List (List UInt8 × List UInt8)

/-- `wifi_diagnostics_init`. -/
def wifiDiagnosticsInit (s : WifiDiagnostics) : WifiDiagnostics where
  stats := { WifiDiagStats.zero with activeChannel := 1 }
  lastHopTick := 0
  lastLogTick := 0
  active := false
  wifi := s.wifi

/-- `wifi_diagnostics_start`. -/
def wifiDiagnosticsStart (s : WifiDiagnostics) : WifiDiagnostics :=
  { s with active := true, wifi := s.wifi.halWifiStartPromiscuous s.stats.activeChannel }

/-- `wifi_diagnostics_stop`. -/
def wifiDiagnosticsStop (s : WifiDiagnostics) : WifiDiagnostics :=
  { s with active := false, wifi := s.wifi.halWifiStopPromiscuous }

/-- The line for the audit log, in a buffer of 128 characters. -/
def auditLine (s : WifiDiagStats) : List UInt8 :=
  (ascii "[WIFI_AUDIT] Ch:" ++ ascii (toString s.activeChannel) ++
    ascii " Tot:" ++ ascii (toString s.totalFramesAnalyzed) ++
    ascii " Mgmt:" ++ ascii (toString s.mgmtFrames) ++
    ascii " (Bcn:" ++ ascii (toString s.beaconFrames) ++
    ascii ",Prb:" ++ ascii (toString s.probeFrames) ++
    ascii ") Ctrl:" ++ ascii (toString s.ctrlFrames) ++
    ascii " Data:" ++ ascii (toString s.dataFrames) ++
    ascii " RSSI:" ++ ascii (toString s.avgRssi) ++ ascii "\n").take 127

/-- The frames are taken and averaged. -/
def analyze (target : WifiTarget) (times : ℕ → UInt32) (s : WifiDiagnostics) :
    List HalWifiFrameMeta × WifiDiagnostics :=
  let l := Slice.drain target times 8 ⟨s.wifi, s.stats, 0, 0, []⟩
  let stats := if 0 < l.processed then
      { l.stats with avgRssi := (l.stats.avgRssi + l.rssiSum / l.processed.toInt32) / 2 }
    else l.stats
  (l.frames, { s with stats, wifi := l.wifi })

/-- The channel hopping, every 50 ticks. -/
def hop (currentTick : UInt32) (s : WifiDiagnostics) : List (UInt8 × MkStatus) × WifiDiagnostics :=
  if 50 ≤ currentTick - s.lastHopTick then
    let channel := s.stats.activeChannel % 11 + 1
    let (status, wifi) := s.wifi.halWifiSetChannel channel
    ([(channel, status)],
      { s with stats.activeChannel := channel, wifi, lastHopTick := currentTick })
  else ([], s)

/-- The audit log, every 100 ticks. -/
def audit (currentTick : UInt32) (s : WifiDiagnostics) :
    List (List UInt8 × List UInt8) × WifiDiagnostics :=
  if 100 ≤ currentTick - s.lastLogTick then
    ([(ascii "wifi_audit.log", auditLine s.stats)], { s with lastLogTick := currentTick })
  else ([], s)

/-- `wifi_diagnostics_task`. -/
def wifiDiagnosticsTask (target : WifiTarget) (currentTick : UInt32) (times : ℕ → UInt32)
    (s : WifiDiagnostics) : Activity × WifiDiagnostics :=
  if s.active then
    let (frames, s) := s.analyze target times
    let (hops, s) := s.hop currentTick
    let (logs, s) := s.audit currentTick
    (⟨frames, hops, logs⟩, s)
  else (⟨[], [], []⟩, s)

/-- A call of the application, or of the queue and its callbacks. -/
inductive Call
  | halWifiInit
  | hal (c : HalWifi.Call)
  | wifiDiagnosticsInit
  | wifiDiagnosticsStart
  | wifiDiagnosticsStop
  | wifiDiagnosticsTask (currentTick : UInt32) (times : ℕ → UInt32)

end WifiDiagnostics

/-! ## Runs -/

/-- A run: the variables, and since the latest initialisation, the frames analyzed, the numbers of
    those taken by each call, and the channels asked for, with the replies. -/
structure WifiDiagnosticsRun where
  app : WifiDiagnostics
  analyzed : List HalWifiFrameMeta
  slices : List ℕ
  hops : List (UInt8 × MkStatus)

namespace WifiDiagnosticsRun

/-- Nothing has been called. -/
def zero : WifiDiagnosticsRun := ⟨.zero, [], [], []⟩

/-- One call more. -/
def exec (target : WifiTarget) (l : WifiDiagnosticsRun) :
    WifiDiagnostics.Call → WifiDiagnosticsRun
  | .halWifiInit => { l with app.wifi := l.app.wifi.halWifiInit }
  | .hal c => { l with app.wifi := l.app.wifi.exec target c }
  | .wifiDiagnosticsInit => ⟨l.app.wifiDiagnosticsInit, [], [], []⟩
  | .wifiDiagnosticsStart => { l with app := l.app.wifiDiagnosticsStart }
  | .wifiDiagnosticsStop => { l with app := l.app.wifiDiagnosticsStop }
  | .wifiDiagnosticsTask currentTick times =>
    let (activity, app) := l.app.wifiDiagnosticsTask target currentTick times
    { app
      analyzed := l.analyzed ++ activity.frames
      slices := l.slices ++ [activity.frames.length]
      hops := l.hops ++ activity.hops }

/-- The run after some calls. -/
def run (target : WifiTarget) (l : WifiDiagnosticsRun) (calls : List WifiDiagnostics.Call) :
    WifiDiagnosticsRun := calls.foldl (exec target) l

/-- The statistics agree with the frames analyzed, and what is asked of the radio is in order. -/
structure Consistent (l : WifiDiagnosticsRun) : Prop where
  total : l.app.stats.totalFramesAnalyzed =
    l.app.stats.mgmtFrames + l.app.stats.ctrlFrames + l.app.stats.dataFrames +
      UInt32.ofNat (l.analyzed.countP (·.frameType = 3))
  slices : ∀ n ∈ l.slices, n ≤ 8
  kinds : l.analyzed.countP (·.frameType = 0) < 2 ^ 32 →
    l.app.stats.beaconFrames.toNat + l.app.stats.probeFrames.toNat ≤
      l.app.stats.mgmtFrames.toNat
  channel : 1 ≤ l.app.stats.activeChannel ∧ l.app.stats.activeChannel ≤ 11
  hops : ∀ h ∈ l.hops, 1 ≤ h.1 ∧ h.1 ≤ 11 ∧ h.2 = .ok
  rssi : -128 ≤ l.app.stats.avgRssi.toInt ∧ l.app.stats.avgRssi.toInt ≤ 127

end WifiDiagnosticsRun

/-! ## The types of the frames -/

namespace HalWifi

/-- The frames in the slots of the queue have types of two bits. -/
def Typed (s : HalWifi) : Prop := ∀ k, (s.queue k).frameType ≤ 3

variable {target : WifiTarget} {s : HalWifi} {frame : HalWifiFrameMeta} {now : UInt32}

theorem frameType_le (fc : UInt16) : frameType fc ≤ 3 := by
  have hmask : (fc >>> 2 &&& 3).toNat ≤ 3 := by
    rw [UInt16.toNat_and]
    exact Nat.and_le_right
  rw [UInt8.le_iff_toNat_le, frameType, UInt16.toNat_toUInt8]
  exact (Nat.mod_le _ _).trans hmask

theorem Typed.enqueue (h : s.Typed) (hframe : frame.frameType ≤ 3) : (s.enqueue frame).Typed := by
  rw [HalWifi.enqueue]
  split_ifs
  · exact h
  · intro k
    rcases eq_or_ne k s.head with rfl | hne
    · simpa using hframe
    · simpa [hne] using h k

theorem Typed.captured (h : s.Typed) {frame? : Option HalWifiFrameMeta}
    (hframe : ∀ frame ∈ frame?, frame.frameType ≤ 3) : (frame?.elim s s.enqueue).Typed := by
  cases frame? with
  | none => exact h
  | some frame => exact h.enqueue (hframe frame rfl)

/-- A frame that is popped is one of the queue, or a beacon. -/
theorem Typed.pop (h : s.Typed) (hpop : (s.halWifiQueuePop target now).1 = some frame) :
    frame.frameType ≤ 3 := by
  rw [halWifiQueuePop] at hpop
  simp only at hpop
  split_ifs at hpop
  · obtain rfl := Option.some.inj hpop
    exact UInt8.zero_le
  · obtain rfl := Option.some.inj hpop
    exact h s.tail

theorem queue_halWifiQueuePop : (s.halWifiQueuePop target now).2.queue = s.queue := by
  rw [halWifiQueuePop]
  simp only
  split_ifs
  · rfl
  · rfl
  · rfl
  · rfl

theorem queue_halWifiSetChannel (channel : UInt8) :
    (s.halWifiSetChannel channel).2.queue = s.queue := by
  rw [halWifiSetChannel]
  split_ifs
  · rfl
  · rfl

theorem Typed.exec (h : s.Typed) (c : HalWifi.Call) : (s.exec target c).Typed := by
  cases c with
  | wifiPromiscuousRxCb now pkt =>
    refine h.captured fun frame hframe => ?_
    rw [Option.mem_def, rxFrame?] at hframe
    split_ifs at hframe
    obtain rfl := Option.some.inj hframe
    exact frameType_le _
  | halWifiInjectFrameForTest now payload len rssi =>
    refine h.captured fun frame hframe => ?_
    rw [Option.mem_def, injectedFrame?] at hframe
    split_ifs at hframe
    obtain rfl := Option.some.inj hframe
    exact frameType_le _
  | halWifiQueuePop now =>
    intro k
    rw [HalWifi.exec, queue_halWifiQueuePop]
    exact h k
  | halWifiSetChannel channel =>
    intro k
    rw [HalWifi.exec, queue_halWifiSetChannel]
    exact h k

end HalWifi

/-! ## The counters -/

/-- The counters are the numbers of the frames of their kinds. -/
structure Counted (frames : List HalWifiFrameMeta) (s : WifiDiagStats) : Prop where
  total : s.totalFramesAnalyzed = UInt32.ofNat frames.length
  mgmt : s.mgmtFrames = UInt32.ofNat (frames.countP (·.frameType = 0))
  ctrl : s.ctrlFrames = UInt32.ofNat (frames.countP (·.frameType = 1))
  data : s.dataFrames = UInt32.ofNat (frames.countP (·.frameType = 2))
  beacon : s.beaconFrames =
    UInt32.ofNat (frames.countP fun f => f.frameType = 0 ∧ f.frameSubtype = 8)
  probe : s.probeFrames = UInt32.ofNat
    (frames.countP fun f => f.frameType = 0 ∧ (f.frameSubtype = 4 ∨ f.frameSubtype = 5))

section Counted

variable {frames : List HalWifiFrameMeta} {s : WifiDiagStats}

/-- The counters of the kinds of a frame go up. -/
theorem count_eq (s : WifiDiagStats) (f : HalWifiFrameMeta) : s.count f = {
    totalFramesAnalyzed := s.totalFramesAnalyzed + 1
    mgmtFrames := if f.frameType = 0 then s.mgmtFrames + 1 else s.mgmtFrames
    ctrlFrames := if f.frameType = 1 then s.ctrlFrames + 1 else s.ctrlFrames
    dataFrames := if f.frameType = 2 then s.dataFrames + 1 else s.dataFrames
    beaconFrames :=
      if f.frameType = 0 ∧ f.frameSubtype = 8 then s.beaconFrames + 1 else s.beaconFrames
    probeFrames :=
      if f.frameType = 0 ∧ (f.frameSubtype = 4 ∨ f.frameSubtype = 5) then s.probeFrames + 1
      else s.probeFrames
    avgRssi := s.avgRssi
    activeChannel := s.activeChannel } := by
  by_cases hmgmt : f.frameType = 0
  · by_cases hbeacon : f.frameSubtype = 8
    · simp [WifiDiagStats.count, hmgmt, hbeacon]
    · by_cases hprobe : f.frameSubtype = 4 ∨ f.frameSubtype = 5
      · simp [WifiDiagStats.count, hmgmt, hbeacon, hprobe]
      · simp [WifiDiagStats.count, hmgmt, hbeacon, hprobe]
  · by_cases hctrl : f.frameType = 1
    · simp [WifiDiagStats.count, hctrl]
    · by_cases hdata : f.frameType = 2
      · simp [WifiDiagStats.count, hdata]
      · simp [WifiDiagStats.count, hmgmt, hctrl, hdata]

/-- A number of frames, with one more. -/
theorem ofNat_countP_concat {n : UInt32} {kind : HalWifiFrameMeta → Prop} [DecidablePred kind]
    (h : n = UInt32.ofNat (frames.countP (kind ·))) (frame : HalWifiFrameMeta) :
    (if kind frame then n + 1 else n) = UInt32.ofNat ((frames ++ [frame]).countP (kind ·)) := by
  rw [List.countP_append, List.countP_singleton]
  by_cases hkind : kind frame
  · rw [if_pos hkind, if_pos (decide_eq_true hkind), UInt32.ofNat_add, h]
    rfl
  · rw [if_neg hkind, if_neg (by simpa using hkind), h, Nat.add_zero]

/-- The average and the channel are not counters. -/
theorem Counted.settings (h : Counted frames s) (avgRssi : Int32) (activeChannel : UInt8) :
    Counted frames { s with avgRssi, activeChannel } :=
  ⟨h.total, h.mgmt, h.ctrl, h.data, h.beacon, h.probe⟩

/-- One frame more. -/
theorem Counted.count (h : Counted frames s) (frame : HalWifiFrameMeta) :
    Counted (frames ++ [frame]) (s.count frame) := by
  rw [count_eq]
  constructor
  · simp only [h.total, List.length_append, UInt32.ofNat_add]
    rfl
  · exact ofNat_countP_concat h.mgmt frame
  · exact ofNat_countP_concat h.ctrl frame
  · exact ofNat_countP_concat h.data frame
  · exact ofNat_countP_concat h.beacon frame
  · exact ofNat_countP_concat h.probe frame

/-- The frames have one type each. -/
theorem length_eq_countP (h : ∀ f ∈ frames, f.frameType ≤ 3) :
    frames.length = frames.countP (·.frameType = 0) + frames.countP (·.frameType = 1) +
      frames.countP (·.frameType = 2) + frames.countP (·.frameType = 3) := by
  induction frames with
  | nil => rfl
  | cons f frames ih =>
    rw [List.forall_mem_cons] at h
    have hone : f.frameType = 0 ∨ f.frameType = 1 ∨ f.frameType = 2 ∨ f.frameType = 3 := by
      have hle := UInt8.le_iff_toNat_le.1 h.1
      simp only [← UInt8.toNat_inj, UInt8.reduceToNat] at hle ⊢
      omega
    have hrest := ih h.2
    rcases hone with hf | hf | hf | hf
    all_goals
      simp only [List.countP_cons, hf, List.length_cons, hrest]
      simp
      omega

/-- The counters by type, and the frames of the type left, add up. -/
theorem Counted.total_eq (h : Counted frames s) (htypes : ∀ f ∈ frames, f.frameType ≤ 3) :
    s.totalFramesAnalyzed = s.mgmtFrames + s.ctrlFrames + s.dataFrames +
      UInt32.ofNat (frames.countP (·.frameType = 3)) := by
  rw [h.total, h.mgmt, h.ctrl, h.data, length_eq_countP htypes]
  simp only [UInt32.ofNat_add]

/-- Beacons and probes are of the first type, and no frame is both. -/
theorem countP_add_countP_le (frames : List HalWifiFrameMeta) :
    frames.countP (fun f => f.frameType = 0 ∧ f.frameSubtype = 8) +
        frames.countP (fun f => f.frameType = 0 ∧ (f.frameSubtype = 4 ∨ f.frameSubtype = 5)) ≤
      frames.countP (·.frameType = 0) := by
  induction frames with
  | nil => exact Nat.le_refl _
  | cons f frames ih =>
    have hone : (if f.frameType = 0 ∧ f.frameSubtype = 8 then 1 else 0) +
        (if f.frameType = 0 ∧ (f.frameSubtype = 4 ∨ f.frameSubtype = 5) then 1 else 0) ≤
          if f.frameType = 0 then 1 else 0 := by
      by_cases hbeacon : f.frameSubtype = 8
      · simp [hbeacon]
      · simp only [hbeacon, and_false, if_false, Nat.zero_add]
        split_ifs with hprobe hmgmt
        · exact Nat.le_refl _
        · exact absurd hprobe.1 hmgmt
        · exact Nat.zero_le _
        · exact Nat.le_refl _
    simp only [List.countP_cons, decide_eq_true_eq]
    omega

theorem Counted.kinds (h : Counted frames s)
    (hlt : frames.countP (·.frameType = 0) < 2 ^ 32) :
    s.beaconFrames.toNat + s.probeFrames.toNat ≤ s.mgmtFrames.toNat := by
  have hle := countP_add_countP_le frames
  rw [h.beacon, h.probe, h.mgmt, UInt32.toNat_ofNat_of_lt' hlt,
    UInt32.toNat_ofNat_of_lt' (Nat.lt_of_le_of_lt (by omega) hlt),
    UInt32.toNat_ofNat_of_lt' (Nat.lt_of_le_of_lt (by omega) hlt)]
  exact hle

end Counted

/-! ## The average -/

/-- A quotient between its bounds. -/
theorem tdiv_bounds {a n : ℤ} (hn : 0 < n) (hge : -128 * n ≤ a) (hle : a ≤ 127 * n) :
    -128 ≤ a.tdiv n ∧ a.tdiv n ≤ 127 := by
  have hge' := Int.tdiv_le_tdiv hn hge
  have hle' := Int.tdiv_le_tdiv hn hle
  rw [Int.mul_tdiv_cancel _ hn.ne'] at hge' hle'
  exact ⟨hge', hle'⟩

theorem toInt_add_of_bounds {a b : Int32} (hge : -2 ^ 31 ≤ a.toInt + b.toInt)
    (hlt : a.toInt + b.toInt < 2 ^ 31) : (a + b).toInt = a.toInt + b.toInt := by
  rw [Int32.toInt_add]
  exact Int.bmod_eq_of_le (by simpa using hge) (by simpa using hlt)

/-- An average of what a frame can have, and of as many frames as there are. -/
theorem average_bounds {avg sum : Int32} {n : ℕ} (hpos : 0 < n) (hn : n ≤ 8)
    (havg : -128 ≤ avg.toInt ∧ avg.toInt ≤ 127)
    (hsum : -128 * (n : ℤ) ≤ sum.toInt ∧ sum.toInt ≤ 127 * (n : ℤ)) :
    -128 ≤ ((avg + sum / (UInt32.ofNat n).toInt32) / 2).toInt ∧
      ((avg + sum / (UInt32.ofNat n).toInt32) / 2).toInt ≤ 127 := by
  have hcount : (UInt32.ofNat n).toInt32.toInt = n := by
    rw [UInt32.toInt32_ofNat', Int32.toInt_ofNat_of_lt (by omega)]
  have hne : (UInt32.ofNat n).toInt32 ≠ -1 := by
    intro heq
    rw [heq] at hcount
    exact absurd hcount (by rw [show (-1 : Int32).toInt = -1 from rfl]; omega)
  have hquot : (sum / (UInt32.ofNat n).toInt32).toInt = sum.toInt.tdiv n := by
    rw [Int32.toInt_div_of_ne_right _ _ hne, hcount]
  have hmean := tdiv_bounds (by omega : (0 : ℤ) < n) hsum.1 hsum.2
  have hboth : (avg + sum / (UInt32.ofNat n).toInt32).toInt = avg.toInt + sum.toInt.tdiv n := by
    rw [toInt_add_of_bounds (by rw [hquot]; omega) (by rw [hquot]; omega), hquot]
  have htwo : (2 : Int32).toInt = 2 := rfl
  rw [Int32.toInt_div_of_ne_right _ _ (by decide), hboth, htwo]
  exact tdiv_bounds (by decide) (by omega) (by omega)

/-! ## The loop -/

namespace Slice

/-- The loop, after `analyzed`: what it has taken is counted and summed. -/
structure Ok (analyzed : List HalWifiFrameMeta) (s : WifiDiagStats) (l : Slice) : Prop where
  typed : l.wifi.Typed
  types : ∀ f ∈ l.frames, f.frameType ≤ 3
  counted : Counted (analyzed ++ l.frames) l.stats
  processed : l.processed = UInt32.ofNat l.frames.length
  rssiSum : -128 * (l.frames.length : ℤ) ≤ l.rssiSum.toInt ∧
    l.rssiSum.toInt ≤ 127 * (l.frames.length : ℤ)
  avgRssi : l.stats.avgRssi = s.avgRssi
  activeChannel : l.stats.activeChannel = s.activeChannel

variable {analyzed : List HalWifiFrameMeta} {s : WifiDiagStats} {l : Slice} {wifi : HalWifi}
  {frame : HalWifiFrameMeta} {target : WifiTarget}

theorem Ok.take (h : Ok analyzed s l) (hlt : l.frames.length < 8) (hframe : frame.frameType ≤ 3)
    (hwifi : wifi.Typed) : Ok analyzed s (l.take frame wifi) where
  typed := hwifi
  types := by
    rw [Slice.take, List.forall_mem_append, List.forall_mem_singleton]
    exact ⟨h.types, hframe⟩
  counted := by
    rw [Slice.take, ← List.append_assoc]
    exact h.counted.count frame
  processed := by
    simp only [Slice.take, h.processed, List.length_append, UInt32.ofNat_add]
    rfl
  rssiSum := by
    have hge := Int8.le_toInt frame.rssi
    have hle := Int8.toInt_lt frame.rssi
    have hsum := h.rssiSum
    simp only [Slice.take, List.length_append, List.length_singleton, Nat.cast_add,
      Nat.cast_one]
    rw [toInt_add_of_bounds (by rw [Int8.toInt_toInt32]; omega)
      (by rw [Int8.toInt_toInt32]; omega), Int8.toInt_toInt32]
    omega
  avgRssi := by
    rw [Slice.take, count_eq]
    exact h.avgRssi
  activeChannel := by
    rw [Slice.take, count_eq]
    exact h.activeChannel

/-- The loop takes eight frames at most. -/
theorem Ok.drain (h : Ok analyzed s l) (target : WifiTarget) (times : ℕ → UInt32) {n : ℕ}
    (hn : l.frames.length + n ≤ 8) :
    Ok analyzed s (l.drain target times n) ∧ (l.drain target times n).frames.length ≤ 8 := by
  induction n generalizing l with
  | zero => exact ⟨h, hn⟩
  | succ n ih =>
    have htyped : (l.wifi.halWifiQueuePop target (times n)).2.Typed := by
      intro k
      rw [queue_halWifiQueuePop]
      exact h.typed k
    have hpop : ∀ frame, (l.wifi.halWifiQueuePop target (times n)).1 = some frame →
        frame.frameType ≤ 3 := fun frame => h.typed.pop
    rw [Slice.drain]
    generalize l.wifi.halWifiQueuePop target (times n) = turn at htyped hpop ⊢
    rcases turn with ⟨_ | frame, wifi⟩
    · refine ⟨⟨htyped, h.types, h.counted, h.processed, h.rssiSum, h.avgRssi, h.activeChannel⟩, ?_⟩
      change l.frames.length ≤ 8
      omega
    · refine ih (h.take (by omega) (hpop frame rfl) htyped) ?_
      rw [Slice.take, List.length_append, List.length_singleton]
      omega

end Slice

/-! ## The task -/

namespace WifiDiagnostics

/-- The variables, after `analyzed`. -/
structure Sound (analyzed : List HalWifiFrameMeta) (s : WifiDiagnostics) : Prop where
  typed : s.wifi.Typed
  types : ∀ f ∈ analyzed, f.frameType ≤ 3
  counted : Counted analyzed s.stats
  rssi : -128 ≤ s.stats.avgRssi.toInt ∧ s.stats.avgRssi.toInt ≤ 127

variable {analyzed : List HalWifiFrameMeta} {s : WifiDiagnostics} {target : WifiTarget}
  {currentTick : UInt32}

theorem zero_bounds : -128 ≤ (0 : Int32).toInt ∧ (0 : Int32).toInt ≤ 127 := by decide

theorem sound_wifiDiagnosticsInit (h : s.wifi.Typed) : Sound [] s.wifiDiagnosticsInit where
  typed := h
  types := List.forall_mem_nil _
  counted := ⟨rfl, rfl, rfl, rfl, rfl, rfl⟩
  rssi := zero_bounds

/-- What is taken is analyzed. -/
theorem Sound.analyze (h : Sound analyzed s) (target : WifiTarget) (times : ℕ → UInt32) :
    Sound (analyzed ++ (s.analyze target times).1) (s.analyze target times).2 ∧
      (s.analyze target times).1.length ≤ 8 ∧
      (s.analyze target times).2.stats.activeChannel = s.stats.activeChannel := by
  have hstart : Slice.Ok analyzed s.stats ⟨s.wifi, s.stats, 0, 0, []⟩ :=
    ⟨h.typed, List.forall_mem_nil _, by simpa using h.counted, rfl, by simp, rfl, rfl⟩
  obtain ⟨hok, hlength⟩ := hstart.drain target times (n := 8) (Nat.le_refl _)
  simp only [WifiDiagnostics.analyze]
  generalize Slice.drain target times 8 ⟨s.wifi, s.stats, 0, 0, []⟩ = l at hok hlength ⊢
  have htypes : ∀ f ∈ analyzed ++ l.frames, f.frameType ≤ 3 :=
    List.forall_mem_append.2 ⟨h.types, hok.types⟩
  split_ifs with hpos
  · have hframes : 0 < l.frames.length := by
      rw [hok.processed] at hpos
      by_contra hzero
      rw [Nat.eq_zero_of_not_pos hzero] at hpos
      exact absurd hpos (by decide)
    have haverage := average_bounds hframes hlength h.rssi hok.rssiSum
    rw [← hok.processed, ← hok.avgRssi] at haverage
    refine ⟨⟨hok.typed, htypes, ?_, haverage⟩, hlength, hok.activeChannel⟩
    exact hok.counted.settings _ l.stats.activeChannel
  · exact ⟨⟨hok.typed, htypes, hok.counted, hok.avgRssi ▸ h.rssi⟩, hlength, hok.activeChannel⟩

/-- The next channel is one of the first eleven. -/
theorem nextChannel_bounds (channel : UInt8) : 1 ≤ channel % 11 + 1 ∧ channel % 11 + 1 ≤ 11 := by
  have hlt := Nat.mod_lt channel.toNat (by decide : 0 < 11)
  have heleven : (11 : UInt8).toNat = 11 := rfl
  have hone : (1 : UInt8).toNat = 1 := rfl
  simp only [UInt8.le_iff_toNat_le, UInt8.toNat_add, UInt8.toNat_mod, heleven, hone]
  omega

theorem halWifiSetChannel_of_bounds {channel : UInt8} (h : 1 ≤ channel ∧ channel ≤ 11) :
    s.wifi.halWifiSetChannel channel = (.ok, { s.wifi with currentChannel := channel }) := by
  have hle : channel ≤ 14 := UInt8.le_trans h.2 (by decide)
  rw [halWifiSetChannel, if_neg]
  rw [not_or, UInt8.not_lt, UInt8.not_lt]
  exact ⟨h.1, hle⟩

/-- A hop is to a channel that the radio accepts. -/
theorem Sound.hop (h : Sound analyzed s) (currentTick : UInt32) :
    Sound analyzed (s.hop currentTick).2 ∧
      (∀ hop ∈ (s.hop currentTick).1, 1 ≤ hop.1 ∧ hop.1 ≤ 11 ∧ hop.2 = .ok) ∧
      (1 ≤ s.stats.activeChannel ∧ s.stats.activeChannel ≤ 11 →
        1 ≤ (s.hop currentTick).2.stats.activeChannel ∧
          (s.hop currentTick).2.stats.activeChannel ≤ 11) := by
  have hnext := nextChannel_bounds s.stats.activeChannel
  rw [WifiDiagnostics.hop]
  split_ifs
  · simp only [halWifiSetChannel_of_bounds hnext, List.forall_mem_singleton]
    refine ⟨⟨h.typed, h.types, ?_, h.rssi⟩, ⟨hnext.1, hnext.2, trivial⟩, fun _ => hnext⟩
    exact h.counted.settings s.stats.avgRssi _
  · exact ⟨h, List.forall_mem_nil _, id⟩

/-- The audit log tells the statistics, and leaves them. -/
theorem audit_eq (currentTick : UInt32) (s : WifiDiagnostics) :
    (s.audit currentTick).2.stats = s.stats ∧ (s.audit currentTick).2.wifi = s.wifi := by
  rw [audit]
  split_ifs
  · exact ⟨rfl, rfl⟩
  · exact ⟨rfl, rfl⟩

/-- A call of the task. -/
theorem Sound.task (h : Sound analyzed s) (target : WifiTarget) (currentTick : UInt32)
    (times : ℕ → UInt32) :
    Sound (analyzed ++ (s.wifiDiagnosticsTask target currentTick times).1.frames)
        (s.wifiDiagnosticsTask target currentTick times).2 ∧
      (s.wifiDiagnosticsTask target currentTick times).1.frames.length ≤ 8 ∧
      (∀ hop ∈ (s.wifiDiagnosticsTask target currentTick times).1.hops,
        1 ≤ hop.1 ∧ hop.1 ≤ 11 ∧ hop.2 = .ok) ∧
      (1 ≤ s.stats.activeChannel ∧ s.stats.activeChannel ≤ 11 →
        1 ≤ (s.wifiDiagnosticsTask target currentTick times).2.stats.activeChannel ∧
          (s.wifiDiagnosticsTask target currentTick times).2.stats.activeChannel ≤ 11) := by
  rw [wifiDiagnosticsTask]
  split_ifs
  · obtain ⟨hanalyze, hlength, hsame⟩ := h.analyze target times
    obtain ⟨hhop, hhops, hchannel⟩ := hanalyze.hop currentTick
    simp only
    obtain ⟨hstats, hwifi⟩ :=
      audit_eq currentTick (((s.analyze target times).2.hop currentTick).2)
    rw [hsame] at hchannel
    refine ⟨⟨?_, hhop.types, ?_, ?_⟩, hlength, hhops, ?_⟩
    · exact hwifi ▸ hhop.typed
    · exact hstats ▸ hhop.counted
    · exact hstats ▸ hhop.rssi
    · exact hstats ▸ hchannel
  · rw [List.append_nil]
    exact ⟨h, Nat.zero_le _, List.forall_mem_nil _, id⟩

end WifiDiagnostics

/-! ## Every run -/

namespace WifiDiagnosticsRun

open WifiDiagnostics

/-- What is known after any run: the channel apart, it does not take an initialisation. -/
structure Inv (l : WifiDiagnosticsRun) : Prop where
  sound : Sound l.analyzed l.app
  slices : ∀ n ∈ l.slices, n ≤ 8
  hops : ∀ hop ∈ l.hops, 1 ≤ hop.1 ∧ hop.1 ≤ 11 ∧ hop.2 = .ok

/-- The channel is one of the first eleven. -/
def OnChannel (l : WifiDiagnosticsRun) : Prop :=
  1 ≤ l.app.stats.activeChannel ∧ l.app.stats.activeChannel ≤ 11

variable {l : WifiDiagnosticsRun} {target : WifiTarget}

theorem inv_zero : Inv zero where
  sound := ⟨fun _ => UInt8.zero_le, List.forall_mem_nil _, ⟨rfl, rfl, rfl, rfl, rfl, rfl⟩,
    zero_bounds⟩
  slices := List.forall_mem_nil _
  hops := List.forall_mem_nil _

/-- One call more. -/
theorem Inv.exec (h : Inv l) (target : WifiTarget) (c : WifiDiagnostics.Call) :
    Inv (l.exec target c) := by
  obtain ⟨typed, types, counted, rssi⟩ := h.sound
  cases c with
  | halWifiInit => exact ⟨⟨typed, types, counted, rssi⟩, h.slices, h.hops⟩
  | hal c => exact ⟨⟨typed.exec c, types, counted, rssi⟩, h.slices, h.hops⟩
  | wifiDiagnosticsInit =>
    exact ⟨sound_wifiDiagnosticsInit typed, List.forall_mem_nil _, List.forall_mem_nil _⟩
  | wifiDiagnosticsStart => exact ⟨⟨typed, types, counted, rssi⟩, h.slices, h.hops⟩
  | wifiDiagnosticsStop => exact ⟨⟨typed, types, counted, rssi⟩, h.slices, h.hops⟩
  | wifiDiagnosticsTask currentTick times =>
    obtain ⟨hsound, hlength, hhops, -⟩ := h.sound.task target currentTick times
    refine ⟨hsound, ?_, ?_⟩
    · rw [WifiDiagnosticsRun.exec, List.forall_mem_append, List.forall_mem_singleton]
      exact ⟨h.slices, hlength⟩
    · rw [WifiDiagnosticsRun.exec, List.forall_mem_append]
      exact ⟨h.hops, hhops⟩

/-- The initialisation is on the first channel. -/
theorem onChannel_wifiDiagnosticsInit (l : WifiDiagnosticsRun) (target : WifiTarget) :
    OnChannel (l.exec target .wifiDiagnosticsInit) := by
  have hfirst : (1 : UInt8) ≤ 1 ∧ (1 : UInt8) ≤ 11 := by decide
  exact hfirst

theorem OnChannel.exec (hchannel : OnChannel l) (h : Inv l) (c : WifiDiagnostics.Call) :
    OnChannel (l.exec target c) := by
  cases c with
  | halWifiInit => exact hchannel
  | hal c => exact hchannel
  | wifiDiagnosticsInit => exact onChannel_wifiDiagnosticsInit l target
  | wifiDiagnosticsStart => exact hchannel
  | wifiDiagnosticsStop => exact hchannel
  | wifiDiagnosticsTask currentTick times =>
    exact (h.sound.task target currentTick times).2.2.2 hchannel

theorem Inv.run (h : Inv l) (target : WifiTarget) (calls : List WifiDiagnostics.Call) :
    Inv (l.run target calls) := by
  induction calls generalizing l with
  | nil => exact h
  | cons c calls ih => exact ih (h.exec target c)

theorem OnChannel.run (hchannel : OnChannel l) (h : Inv l) (calls : List WifiDiagnostics.Call) :
    OnChannel (l.run target calls) := by
  induction calls generalizing l with
  | nil => exact hchannel
  | cons c calls ih => exact ih (hchannel.exec h c) (h.exec target c)

/-- Before the initialisation there may be any calls, and after it any captured frames, any calls
    of the task, and any others: the statistics are consistent. -/
theorem consistent (target : WifiTarget) (before after : List WifiDiagnostics.Call) :
    Consistent (zero.run target (before ++ .wifiDiagnosticsInit :: after)) := by
  have hbefore : Inv (zero.run target before) := inv_zero.run target before
  have hinit := hbefore.exec target .wifiDiagnosticsInit
  have hsplit : zero.run target (before ++ .wifiDiagnosticsInit :: after) =
      ((zero.run target before).exec target .wifiDiagnosticsInit).run target after :=
    List.foldl_append
  have hchannel := onChannel_wifiDiagnosticsInit (zero.run target before) target
  rw [hsplit]
  have h := hinit.run target after
  constructor
  · exact h.sound.counted.total_eq h.sound.types
  · exact h.slices
  · exact h.sound.counted.kinds
  · exact hchannel.run hinit after
  · exact h.hops
  · exact h.sound.rssi

end WifiDiagnosticsRun

end SliverOS
