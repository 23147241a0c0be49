import SliverOS.Apps.WifiDiagnostics
import SliverOS.Kernel.EventBus
import SliverOS.Queues.Load

/-!
# Which frames the diagnostics see

`os/hal/hal_wifi.c` and `os/apps/wifi_diagnostics/wifi_diagnostics.c`, on the device: the callback
of the radio queues the frames, and a call of the task takes eight of them, if there are so many. A
run keeps the frames that came since the latest `hal_wifi_init`, those taken, and the traffic of the
queue: a frame that comes, and for each call of the task of an active application, that eight might
be taken.

* `WifiLosses.frames_kept`: the frames taken and those still in the queue are some of those that
  came, in order, and the others are counted as dropped. There are no others exactly if from no
  moment to a later one more frames came than 64 and those that might have been taken meanwhile.
-/

namespace SliverOS

open HalWifi Queues Streams
open WifiRun (halWifiQueuePop_of_ne ring_count_pos ring_halWifiSetChannel)

/-! ## Runs -/

/-- A run on the device. -/
structure WifiLosses where
  app : WifiDiagnostics
  incoming : List HalWifiFrameMeta
  taken : List HalWifiFrameMeta
  traffic : List Traffic

namespace WifiLosses

/-- The start of a run. -/
def init (s : WifiDiagnostics) : WifiLosses := ⟨{ s with wifi := s.wifi.halWifiInit }, [], [], []⟩

/-- What a call of the queue does to it. -/
def trafficOf (s : HalWifi) (c : HalWifi.Call) : Traffic :=
  match s.request? c with
  | some (.post _) => .come
  | some .pop => .take 1
  | _ => .take 0

/-- One call more. -/
def exec (l : WifiLosses) : WifiDiagnostics.Call → WifiLosses
  | .halWifiInit => init l.app
  | .hal c =>
    { app := { l.app with wifi := l.app.wifi.exec .espPlatform c }
      incoming := l.incoming ++ (l.app.wifi.capture? c).toList
      taken := l.taken ++ (l.app.wifi.pop? .espPlatform c).toList
      traffic := l.traffic ++ [trafficOf l.app.wifi c] }
  | .wifiDiagnosticsInit => { l with app := l.app.wifiDiagnosticsInit }
  | .wifiDiagnosticsStart => { l with app := l.app.wifiDiagnosticsStart }
  | .wifiDiagnosticsStop => { l with app := l.app.wifiDiagnosticsStop }
  | .wifiDiagnosticsTask currentTick times =>
    let (activity, app) := l.app.wifiDiagnosticsTask .espPlatform currentTick times
    { app
      incoming := l.incoming
      taken := l.taken ++ activity.frames
      traffic := l.traffic ++ [.take (if l.app.active then 8 else 0)] }

/-- The run after some calls. -/
def run (l : WifiLosses) (calls : List WifiDiagnostics.Call) : WifiLosses := calls.foldl exec l

/-- The frames that have not been lost. -/
def kept (l : WifiLosses) : List HalWifiFrameMeta := l.taken ++ l.app.wifi.ring.contents

/-- The frames that were not lost are some of those that came, in order, and the others are counted
    as dropped. None has been lost exactly if no part of the traffic has a load of more than 64. -/
structure FramesKept (l : WifiLosses) : Prop where
  order : l.kept.Sublist l.incoming
  dropped : UInt32.ofNat l.incoming.length = UInt32.ofNat l.kept.length + l.app.wifi.dropped
  all_iff : l.kept = l.incoming ↔ ∀ part, part <:+: l.traffic → load part ≤ 64

end WifiLosses

/-! ## What is taken of the queue -/

namespace HalWifi

/-- As many frames as there are, up to `k`, have been taken. -/
structure Takes (k : ℕ) (s s' : HalWifi) (frames : List HalWifiFrameMeta) : Prop where
  ring : s'.ring.Ok
  contents : s.ring.contents = frames ++ s'.ring.contents
  count : s'.ring.count = s.ring.count - k
  dropped : s'.dropped = s.dropped

variable {k : ℕ} {s s' : HalWifi} {frames : List HalWifiFrameMeta} {now : UInt32}

theorem takes_zero (h : s.ring.Ok) (hring : s'.ring = s.ring) (hdropped : s'.dropped = s.dropped) :
    Takes 0 s s' [] where
  ring := hring ▸ h
  contents := by rw [hring, List.nil_append]
  count := by rw [hring, Nat.sub_zero]
  dropped := hdropped

theorem Takes.congr (h : Takes k s s' frames) {s'' : HalWifi} (hring : s''.ring = s'.ring)
    (hdropped : s''.dropped = s'.dropped) : Takes k s s'' frames where
  ring := hring ▸ h.ring
  contents := by rw [hring, h.contents]
  count := by rw [hring, h.count]
  dropped := hdropped.trans h.dropped

theorem takes_of_count (h : s.ring.Ok) (hcount : s.count = 0) (k : ℕ) : Takes k s s [] where
  ring := h
  contents := rfl
  count := by rw [ring, hcount, UInt32.toNat_zero, Nat.zero_sub]
  dropped := rfl

theorem Takes.trans {j : ℕ} (h : Takes j s s' frames) {s'' : HalWifi}
    {frames' : List HalWifiFrameMeta} (h' : Takes k s' s'' frames') :
    Takes (k + j) s s'' (frames ++ frames') where
  ring := h'.ring
  contents := by rw [h.contents, h'.contents, List.append_assoc]
  count := by rw [h'.count, h.count, Nat.sub_sub, Nat.add_comm]
  dropped := h'.dropped.trans h.dropped

/-- On the device, nothing is popped off an empty queue. -/
theorem halWifiQueuePop_of_count (h : s.count = 0) :
    s.halWifiQueuePop .espPlatform now = (none, s) := by
  rw [halWifiQueuePop, if_pos h, if_pos rfl]

theorem takes_halWifiQueuePop (h : s.ring.Ok) (now : UInt32) :
    Takes 1 s (s.halWifiQueuePop .espPlatform now).2
      (s.halWifiQueuePop .espPlatform now).1.toList := by
  by_cases hcount : s.count = 0
  · rw [halWifiQueuePop_of_count hcount]
    exact takes_of_count h hcount 1
  · have hpos := ring_count_pos hcount
    obtain ⟨hfirst, hring, hdropped⟩ := halWifiQueuePop_of_ne hcount .espPlatform now
    refine ⟨hring ▸ h.drop hpos, ?_, by rw [hring]; rfl, hdropped⟩
    rw [hfirst, hring]
    exact Ring.contents_eq_cons hpos

end HalWifi

/-- The loop takes the first frames. -/
theorem Slice.takes_drain {l : Slice} (h : l.wifi.ring.Ok) (times : ℕ → UInt32) (n : ℕ) :
    ∃ frames, (l.drain .espPlatform times n).frames = l.frames ++ frames ∧
      Takes n l.wifi (l.drain .espPlatform times n).wifi frames := by
  induction n generalizing l with
  | zero => exact ⟨[], (List.append_nil _).symm, takes_zero h rfl rfl⟩
  | succ n ih =>
    rw [Slice.drain]
    by_cases hcount : l.wifi.count = 0
    · rw [halWifiQueuePop_of_count hcount]
      exact ⟨[], (List.append_nil _).symm, takes_of_count h hcount _⟩
    · have htakes := takes_halWifiQueuePop h (times n)
      have hfirst := (halWifiQueuePop_of_ne hcount .espPlatform (times n)).1
      generalize l.wifi.halWifiQueuePop .espPlatform (times n) = turn at htakes hfirst ⊢
      obtain ⟨frame?, wifi⟩ := turn
      subst hfirst
      obtain ⟨frames, hframes, hrest⟩ := ih (l := l.take _ wifi) htakes.ring
      refine ⟨_ :: frames, ?_, htakes.trans hrest⟩
      rw [hframes, Slice.take, List.append_assoc, List.singleton_append]

namespace WifiDiagnostics

variable {s : WifiDiagnostics}

/-- A hop leaves the queue alone. -/
theorem ring_hop (currentTick : UInt32) (s : WifiDiagnostics) :
    (s.hop currentTick).2.wifi.ring = s.wifi.ring ∧
      (s.hop currentTick).2.wifi.dropped = s.wifi.dropped := by
  rw [WifiDiagnostics.hop]
  split_ifs
  · exact ring_halWifiSetChannel _ s.wifi
  · exact ⟨rfl, rfl⟩

/-- A call of the task of an active application takes eight frames. -/
theorem takes_wifiDiagnosticsTask (h : s.wifi.ring.Ok) (currentTick : UInt32)
    (times : ℕ → UInt32) :
    Takes (if s.active then 8 else 0) s.wifi
      (s.wifiDiagnosticsTask .espPlatform currentTick times).2.wifi
      (s.wifiDiagnosticsTask .espPlatform currentTick times).1.frames := by
  rw [wifiDiagnosticsTask]
  split_ifs
  · obtain ⟨frames, hframes, htakes⟩ :=
      Slice.takes_drain (l := ⟨s.wifi, s.stats, 0, 0, []⟩) h times 8
    obtain ⟨hring, hdropped⟩ := ring_hop currentTick (s.analyze .espPlatform times).2
    have hwifi :=
      (audit_eq currentTick (((s.analyze .espPlatform times).2.hop currentTick).2)).2
    have hanalyze : (s.analyze .espPlatform times).1 = frames := hframes
    simp only [hanalyze]
    exact htakes.congr (by rw [hwifi, hring]; rfl) (by rw [hwifi, hdropped]; rfl)
  · exact takes_zero h rfl rfl

end WifiDiagnostics

/-! ## Every run -/

namespace WifiLosses

/-- What is known after any run. -/
structure Inv (l : WifiLosses) : Prop where
  accounts : WifiRun.Accounts ⟨l.app.wifi, l.incoming, l.taken, []⟩
  count : l.app.wifi.ring.count = l.traffic.foldl (occupancy 64) 0
  kept_eq_iff : l.kept = l.incoming ↔ Throughout (occupancy 64) (Fits 64) 0 l.traffic

variable {l : WifiLosses}

theorem inv_init (s : WifiDiagnostics) : Inv (init s) where
  accounts := WifiRun.accounts_init s.wifi
  count := rfl
  kept_eq_iff := iff_of_true rfl throughout_nil

/-- A frame comes. It is lost if the queue is full. -/
theorem Inv.come (h : Inv l) (frame : HalWifiFrameMeta) :
    Inv ⟨{ l.app with wifi := l.app.wifi.enqueue frame }, l.incoming ++ [frame], l.taken,
      l.traffic ++ [.come]⟩ := by
  obtain ⟨haccounts, hcontents⟩ := h.accounts.enqueue frame
  have hlength := h.accounts.order.length_le
  have hcount := Ring.length_contents (l.app.wifi.enqueue frame).ring
  have hsame := h.kept_eq_iff
  rw [kept] at hsame
  have hfits : Fits 64 (l.traffic.foldl (occupancy 64) 0) .come ↔
      l.app.wifi.ring.contents.length < 64 := by
    rw [Fits, Ring.length_contents, h.count]
    exact ⟨fun h => h rfl, fun h _ => h⟩
  refine ⟨⟨haccounts.ring, haccounts.order, haccounts.count⟩, ?_, ?_⟩
  · rw [List.foldl_concat, ← h.count, ← hcount, hcontents, fifo, occupancy,
      ← Ring.length_contents]
    split_ifs
    · exact List.length_append
    · rfl
  · rw [throughout_concat, ← hsame, hfits, kept]
    change l.taken ++ (l.app.wifi.enqueue frame).ring.contents = _ ↔ _
    rw [hcontents, fifo]
    split_ifs with hroom
    · rw [← List.append_assoc, List.append_left_inj]
      exact (and_iff_left hroom).symm
    · refine iff_of_false (fun heq => ?_) fun hand => hroom hand.2
      have hlonger := congrArg List.length heq
      simp only [List.length_append, List.length_singleton] at hlonger hlength
      omega

/-- Frames are taken. -/
theorem Inv.take (h : Inv l) (app : WifiDiagnostics) {frames : List HalWifiFrameMeta} {k : ℕ}
    (htakes : Takes k l.app.wifi app.wifi frames) :
    Inv ⟨app, l.incoming, l.taken ++ frames, l.traffic ++ [.take k]⟩ := by
  have hkept : l.taken ++ frames ++ app.wifi.ring.contents = l.kept := by
    rw [List.append_assoc, ← htakes.contents, kept]
  refine ⟨⟨htakes.ring, ?_, ?_⟩, ?_, ?_⟩
  · exact hkept ▸ h.accounts.order
  · rw [← List.length_append]
    simp only [hkept, htakes.dropped]
    rw [kept, List.length_append]
    exact h.accounts.count
  · rw [List.foldl_concat, ← h.count]
    exact htakes.count
  · rw [throughout_concat, ← h.kept_eq_iff, kept, hkept]
    exact (and_iff_left (fits_take _ k)).symm

/-- The application changes, and not the queue. -/
theorem Inv.congr (h : Inv l) {app : WifiDiagnostics} (hring : app.wifi.ring = l.app.wifi.ring)
    (hdropped : app.wifi.dropped = l.app.wifi.dropped) : Inv { l with app } where
  accounts := ⟨hring ▸ h.accounts.ring, hring ▸ h.accounts.order,
    hring ▸ hdropped ▸ h.accounts.count⟩
  count := hring ▸ h.count
  kept_eq_iff := by
    rw [kept, hring]
    exact h.kept_eq_iff

/-- A call that captures what is there to capture. -/
theorem Inv.capture (h : Inv l) {c : HalWifi.Call} {frame? : Option HalWifiFrameMeta}
    (hrequest : l.app.wifi.request? c = frame?.map .post)
    (hexec : l.app.wifi.exec .espPlatform c = frame?.elim l.app.wifi l.app.wifi.enqueue)
    (hpop : l.app.wifi.pop? .espPlatform c = none) : Inv (l.exec (.hal c)) := by
  cases frame? with
  | none =>
    have hsame := h.take l.app (takes_zero h.accounts.ring rfl rfl)
    simp only [WifiLosses.exec, capture?, trafficOf, hrequest, hexec, hpop, Option.map_none,
      Option.elim_none, Option.toList_none, List.append_nil] at hsame ⊢
    exact hsame
  | some frame =>
    simp only [WifiLosses.exec, capture?, trafficOf, hrequest, hexec, hpop, Option.map_some,
      Option.elim_some, Option.toList_none, Option.toList_some, List.append_nil]
    exact h.come frame

/-- A call of the queue. -/
theorem Inv.hal (h : Inv l) (c : HalWifi.Call) : Inv (l.exec (.hal c)) := by
  cases c with
  | wifiPromiscuousRxCb now pkt => exact h.capture rfl rfl rfl
  | halWifiInjectFrameForTest now payload len rssi => exact h.capture rfl rfl rfl
  | halWifiQueuePop now =>
    have htaken := h.take { l.app with wifi := _ } (takes_halWifiQueuePop h.accounts.ring now)
    rw [← l.incoming.append_nil] at htaken
    exact htaken
  | halWifiSetChannel channel =>
    obtain ⟨hring, hdropped⟩ := ring_halWifiSetChannel channel l.app.wifi
    have hsame := h.take { l.app with wifi := _ } (takes_zero h.accounts.ring hring hdropped)
    rw [← l.incoming.append_nil] at hsame
    exact hsame

/-- One call more. -/
theorem Inv.exec (h : Inv l) (c : WifiDiagnostics.Call) : Inv (l.exec c) := by
  cases c with
  | halWifiInit => exact inv_init l.app
  | hal c => exact h.hal c
  | wifiDiagnosticsInit => exact h.congr rfl rfl
  | wifiDiagnosticsStart => exact h.congr rfl rfl
  | wifiDiagnosticsStop => exact h.congr rfl rfl
  | wifiDiagnosticsTask currentTick times =>
    exact h.take _ (WifiDiagnostics.takes_wifiDiagnosticsTask h.accounts.ring currentTick times)

theorem Inv.run (h : Inv l) (calls : List WifiDiagnostics.Call) : Inv (l.run calls) := by
  induction calls generalizing l with
  | nil => exact h
  | cons c calls ih => exact ih (h.exec c)

/-- After any calls, the frames since the latest `hal_wifi_init` are accounted for, and lost only
    under a load of more than 64. -/
theorem frames_kept (s : WifiDiagnostics) (calls : List WifiDiagnostics.Call) :
    FramesKept ((init s).run calls) := by
  have h := (inv_init s).run calls
  constructor
  · exact h.accounts.order
  · rw [kept, List.length_append]
    exact h.accounts.count
  · exact h.kept_eq_iff.trans fits_iff

end WifiLosses

end SliverOS
