import SliverOS.Kernel.Types
import SliverOS.Vfs.Vfs
import SliverOS.Streams.Run

/-!
# The network diagnostics application

`os/apps/network_diagnostics/network_diagnostics.c`: a target is audited in eleven states, one
a tick, of which three probe a port. What a probe finds and the tick of the kernel are arguments
of the task, and the calls that it makes are its effects.

The history of a run is its targets, its scans and its probes. A flag of the report keeps what
the latest probe of its port has found (`Tracks`): it is cleared with the target, and in the
states after its probe it is from the scan that goes on.

* `neverMixes`: in any run, no flag is from another target, and none from an earlier scan when the
  audit is complete.
-/

namespace SliverOS

open Streams

/-- `net_diag_state_t`. -/
inductive NetDiagState
  | idle
  | targetConfigured
  | icmpPending
  | icmpResult
  | tcp22Pending
  | tcp22Result
  | tcp80Pending
  | tcp80Result
  | tcp443Pending
  | tcp443Result
  | complete
  deriving DecidableEq

/-- `net_diag_report_t`. -/
structure NetDiagReport where
  targetIp : Vector UInt8 48
  targetConfigured : Bool
  icmpReachable : Bool
  icmpRttMs : UInt32
  tcp22Open : Bool
  tcp80Open : Bool
  tcp443Open : Bool
  currentState : NetDiagState

/-- The report as `memset` leaves it. -/
def NetDiagReport.zero : NetDiagReport :=
  ⟨.replicate 48 0, false, false, 0, false, false, false, .idle⟩

/-- The string in `target_ip`. -/
def NetDiagReport.host (r : NetDiagReport) : List UInt8 := cString r.targetIp.toList

/-- The static variables of the application. -/
structure NetworkDiagnostics where
  report : NetDiagReport
  lastAuditTick : UInt32

namespace NetworkDiagnostics

/-- The calls that the application makes; a probe has found `isOpen`. -/
inductive Effect
  | checkTcpNonblocking (host : List UInt8) (port : UInt16) (isOpen : Bool)
  | vfsLogAppend (logFilename entry : List UInt8)
  deriving DecidableEq

/-- The report is in another state. -/
def goTo (s : NetworkDiagnostics) (state : NetDiagState) : NetworkDiagnostics :=
  { s with report.currentState := state }

/-- `network_diagnostics_set_target`. -/
def networkDiagnosticsSetTarget (s : NetworkDiagnostics) (targetIp : Option (List UInt8)) :
    MkStatus × NetworkDiagnostics :=
  match targetIp with
  | none => (.invalidArg, s)
  | some ip =>
    if cString ip = [] then (.invalidArg, s)
    else (.ok, { s with report := {
      targetIp := .ofFn fun k => if k < 47 then (cString ip).getD k 0 else s.report.targetIp[k]
      targetConfigured := true
      icmpReachable := false
      icmpRttMs := 0
      tcp22Open := false
      tcp80Open := false
      tcp443Open := false
      currentState := .targetConfigured } })

/-- `network_diagnostics_init`, also `network_diagnostics_reset`. -/
def networkDiagnosticsInit (s : NetworkDiagnostics) : NetworkDiagnostics :=
  ({ s with report := .zero }.networkDiagnosticsSetTarget (some (ascii "127.0.0.1"))).2

/-- `network_diagnostics_start`. -/
def networkDiagnosticsStart (s : NetworkDiagnostics) : NetworkDiagnostics :=
  if s.report.targetConfigured then s.goTo .icmpPending else s.goTo .idle

/-- `network_diagnostics_stop`. -/
def networkDiagnosticsStop (s : NetworkDiagnostics) : NetworkDiagnostics := s.goTo .idle

/-- A number as `%u` prints it. -/
def decimal (n : ℕ) : List UInt8 := ascii (toString n)

/-- The line for the audit log, in a buffer of 128 characters. -/
def auditLine (r : NetDiagReport) : List UInt8 :=
  (ascii "[NET_DIAG] IP:" ++ r.host ++ ascii " ICMP:" ++ decimal r.icmpReachable.toNat ++
    ascii " (" ++ decimal r.icmpRttMs.toNat ++ ascii "ms) 22:" ++ decimal r.tcp22Open.toNat ++
    ascii " 80:" ++ decimal r.tcp80Open.toNat ++ ascii " 443:" ++ decimal r.tcp443Open.toNat ++
    ascii "\n").take 127

/-- `network_diagnostics_task`: a probe finds `isOpen`, and `mk_kernel_get_tick` replies
    `now`. -/
def networkDiagnosticsTask (s : NetworkDiagnostics) (isOpen : Bool) (now : UInt32) :
    List Effect × NetworkDiagnostics :=
  match s.report.currentState with
  | .idle => ([], s)
  | .targetConfigured => ([], s.goTo .icmpPending)
  | .icmpPending =>
    ([], { s with report.icmpReachable := false, report.icmpRttMs := 0 }.goTo .icmpResult)
  | .icmpResult => ([], s.goTo .tcp22Pending)
  | .tcp22Pending =>
    ([.checkTcpNonblocking s.report.host 22 isOpen],
      { s with report.tcp22Open := isOpen }.goTo .tcp22Result)
  | .tcp22Result => ([], s.goTo .tcp80Pending)
  | .tcp80Pending =>
    ([.checkTcpNonblocking s.report.host 80 isOpen],
      { s with report.tcp80Open := isOpen }.goTo .tcp80Result)
  | .tcp80Result => ([], s.goTo .tcp443Pending)
  | .tcp443Pending =>
    ([.checkTcpNonblocking s.report.host 443 isOpen],
      { s with report.tcp443Open := isOpen }.goTo .tcp443Result)
  | .tcp443Result => ([], s.goTo .complete)
  | .complete =>
    if 200 ≤ now - s.lastAuditTick then
      ([.vfsLogAppend (ascii "wifi_audit.log") (auditLine s.report)],
        { s with lastAuditTick := now })
    else ([], s)

/-- The calls of the application. -/
inductive Call
  | networkDiagnosticsInit
  | networkDiagnosticsSetTarget (targetIp : Option (List UInt8))
  | networkDiagnosticsStart
  | networkDiagnosticsStop
  | networkDiagnosticsTask (isOpen : Bool) (now : UInt32)

/-- The variables after a call. -/
def next (s : NetworkDiagnostics) : Call → NetworkDiagnostics
  | .networkDiagnosticsInit => s.networkDiagnosticsInit
  | .networkDiagnosticsSetTarget targetIp => (s.networkDiagnosticsSetTarget targetIp).2
  | .networkDiagnosticsStart => s.networkDiagnosticsStart
  | .networkDiagnosticsStop => s.networkDiagnosticsStop
  | .networkDiagnosticsTask isOpen now => (s.networkDiagnosticsTask isOpen now).2

/-! ## Histories -/

/-- A target is set, a scan is started, or a port of a host is probed. -/
inductive Event
  | target
  | scan
  | probe (host : List UInt8) (port : UInt16) (isOpen : Bool)
  deriving DecidableEq

/-- The probe that an effect is. -/
def Effect.probe : Effect → Option Event
  | .checkTcpNonblocking host port isOpen => some (.probe host port isOpen)
  | .vfsLogAppend .. => none

/-- What happens at a call. -/
def events (s : NetworkDiagnostics) : Call → List Event
  | .networkDiagnosticsInit => [.target]
  | .networkDiagnosticsSetTarget targetIp =>
    if (s.networkDiagnosticsSetTarget targetIp).1 = .ok then [.target] else []
  | .networkDiagnosticsStart => [.scan]
  | .networkDiagnosticsStop => []
  | .networkDiagnosticsTask isOpen now =>
    (s.networkDiagnosticsTask isOpen now).1.filterMap Effect.probe

/-- The history of a run. -/
def history (s : NetworkDiagnostics) (run : List Call) : List Event := collect next events s run

/-- What has happened since the latest target was set. -/
def sinceTarget (h : List Event) : List Event := h.rtakeWhile fun e => e ≠ .target

/-- What has happened since the latest target was set or the latest scan started. -/
def sinceScan (h : List Event) : List Event := h.rtakeWhile fun e => e ≠ .target ∧ e ≠ .scan

/-- What a probe of the port of the host has found. -/
def Event.result (host : List UInt8) (port : UInt16) : Event → Option Bool
  | .probe host' port' isOpen => if host' = host ∧ port' = port then some isOpen else none
  | _ => none

/-- What the latest probe of the port of the host has found, if there is one. -/
def latest (host : List UInt8) (port : UInt16) (h : List Event) : Option Bool :=
  (h.filterMap (Event.result host port)).getLast?

/-- A flag that is set is what the latest probe of the port of the target has found since it is
    the target, and when the audit is complete, the flag is what the latest probe has found
    since then and since the scan was started. -/
structure Sound (h : List Event) (r : NetDiagReport) (port : UInt16) (isOpen : Bool) : Prop where
  target : isOpen = true → latest r.host port (sinceTarget h) = some true
  scan : r.currentState = .complete → latest r.host port (sinceScan h) = some isOpen

/-- The flags are all of the current target. -/
structure NeverMixes (h : List Event) (r : NetDiagReport) : Prop where
  tcp22 : Sound h r 22 r.tcp22Open
  tcp80 : Sound h r 80 r.tcp80Open
  tcp443 : Sound h r 443 r.tcp443Open

/-! ## The invariant -/

section History

variable {h : List Event} {host host' : List UInt8} {port port' : UInt16} {isOpen b : Bool}

@[simp] theorem sinceTarget_target : sinceTarget (h ++ [.target]) = [] :=
  List.rtakeWhile_concat_neg _ _ _ (by simp)

@[simp] theorem sinceTarget_scan : sinceTarget (h ++ [.scan]) = sinceTarget h ++ [.scan] :=
  List.rtakeWhile_concat_pos _ _ _ (by simp)

@[simp] theorem sinceTarget_probe :
    sinceTarget (h ++ [.probe host port b]) = sinceTarget h ++ [.probe host port b] :=
  List.rtakeWhile_concat_pos _ _ _ (by simp)

@[simp] theorem sinceScan_probe :
    sinceScan (h ++ [.probe host port b]) = sinceScan h ++ [.probe host port b] :=
  List.rtakeWhile_concat_pos _ _ _ (by simp)

@[simp] theorem latest_concat_scan : latest host port (h ++ [.scan]) = latest host port h := by
  simp [latest, Event.result]

@[simp] theorem latest_concat_probe :
    latest host port (h ++ [.probe host port b]) = some b := by
  simp [latest, Event.result]

theorem latest_concat_probe_of_ne (hne : port' ≠ port) :
    latest host port (h ++ [.probe host' port' b]) = latest host port h := by
  simp [latest, Event.result, hne]

end History

/-- A flag keeps the latest result for its port, of the scan that goes on once the state is at
    least `probed`. -/
structure Tracks (h : List Event) (host : List UInt8) (state : NetDiagState) (port : UInt16)
    (isOpen : Bool) (probed : NetDiagState) : Prop where
  target : isOpen = true → latest host port (sinceTarget h) = some true
  scan : probed.ctorIdx ≤ state.ctorIdx → latest host port (sinceScan h) = some isOpen

namespace Tracks

variable {h : List Event} {host : List UInt8} {port port' : UInt16} {isOpen b : Bool}
  {state state' probed : NetDiagState}

/-- A flag that is cleared, with its probe to come. -/
theorem cleared (hstate : state.ctorIdx < probed.ctorIdx) :
    Tracks h host state port false probed :=
  ⟨fun hopen => absurd hopen (by decide), fun hle => absurd hle hstate.not_ge⟩

/-- Nothing happens, and the state is not after the probe unless it was. -/
theorem move (ht : Tracks h host state port isOpen probed)
    (hstate : probed.ctorIdx ≤ state'.ctorIdx → probed.ctorIdx ≤ state.ctorIdx) :
    Tracks h host state' port isOpen probed :=
  ⟨ht.target, fun hle => ht.scan (hstate hle)⟩

/-- A scan is started, with the probe to come. -/
theorem restart (ht : Tracks h host state port isOpen probed)
    (hstate : state'.ctorIdx < probed.ctorIdx) :
    Tracks (h ++ [.scan]) host state' port isOpen probed := by
  constructor
  · rw [sinceTarget_scan, latest_concat_scan]
    exact ht.target
  · exact fun hle => absurd hle hstate.not_ge

/-- The port of the flag is probed. -/
theorem probe : Tracks (h ++ [.probe host port isOpen]) host state port isOpen probed := by
  constructor
  · rintro rfl
    rw [sinceTarget_probe, latest_concat_probe]
  · intro
    rw [sinceScan_probe, latest_concat_probe]

/-- Another port is probed. -/
theorem other (ht : Tracks h host state port isOpen probed) (hne : port' ≠ port)
    (hstate : probed.ctorIdx ≤ state'.ctorIdx → probed.ctorIdx ≤ state.ctorIdx) :
    Tracks (h ++ [.probe host port' b]) host state' port isOpen probed := by
  constructor
  · rw [sinceTarget_probe, latest_concat_probe_of_ne hne]
    exact ht.target
  · rw [sinceScan_probe, latest_concat_probe_of_ne hne]
    exact fun hle => ht.scan (hstate hle)

end Tracks

/-- Every flag keeps the results of its port. -/
structure Inv (h : List Event) (host : List UInt8) (state : NetDiagState)
    (tcp22Open tcp80Open tcp443Open : Bool) : Prop where
  tcp22 : Tracks h host state 22 tcp22Open .tcp22Result
  tcp80 : Tracks h host state 80 tcp80Open .tcp80Result
  tcp443 : Tracks h host state 443 tcp443Open .tcp443Result

section Inv

variable {h : List Event} {host : List UInt8} {state : NetDiagState}
  {tcp22Open tcp80Open tcp443Open : Bool}

theorem Inv.cleared : Inv h host .targetConfigured false false false where
  tcp22 := .cleared (by decide)
  tcp80 := .cleared (by decide)
  tcp443 := .cleared (by decide)

/-- A scan starts before the probes. -/
theorem Inv.restart (hinv : Inv h host state tcp22Open tcp80Open tcp443Open)
    (state' : NetDiagState) (hstate : state'.ctorIdx < NetDiagState.tcp22Result.ctorIdx) :
    Inv (h ++ [.scan]) host state' tcp22Open tcp80Open tcp443Open where
  tcp22 := hinv.tcp22.restart hstate
  tcp80 := hinv.tcp80.restart (hstate.trans (by decide))
  tcp443 := hinv.tcp443.restart (hstate.trans (by decide))

/-- No probe has been made in the state. -/
theorem Inv.stop (hinv : Inv h host state tcp22Open tcp80Open tcp443Open) :
    Inv h host .idle tcp22Open tcp80Open tcp443Open where
  tcp22 := hinv.tcp22.move fun hle => absurd hle (by decide)
  tcp80 := hinv.tcp80.move fun hle => absurd hle (by decide)
  tcp443 := hinv.tcp443.move fun hle => absurd hle (by decide)

/-- The state is after no more probes than before. -/
theorem Inv.move (hinv : Inv h host state tcp22Open tcp80Open tcp443Open) (state' : NetDiagState)
    (hstate : ∀ probed ∈ [NetDiagState.tcp22Result, .tcp80Result, .tcp443Result],
      probed.ctorIdx ≤ state'.ctorIdx → probed.ctorIdx ≤ state.ctorIdx) :
    Inv h host state' tcp22Open tcp80Open tcp443Open where
  tcp22 := hinv.tcp22.move (hstate _ (by decide))
  tcp80 := hinv.tcp80.move (hstate _ (by decide))
  tcp443 := hinv.tcp443.move (hstate _ (by decide))

theorem Inv.probe22 (hinv : Inv h host .tcp22Pending tcp22Open tcp80Open tcp443Open)
    (isOpen : Bool) :
    Inv (h ++ [.probe host 22 isOpen]) host .tcp22Result isOpen tcp80Open tcp443Open where
  tcp22 := .probe
  tcp80 := hinv.tcp80.other (by decide) (by decide)
  tcp443 := hinv.tcp443.other (by decide) (by decide)

theorem Inv.probe80 (hinv : Inv h host .tcp80Pending tcp22Open tcp80Open tcp443Open)
    (isOpen : Bool) :
    Inv (h ++ [.probe host 80 isOpen]) host .tcp80Result tcp22Open isOpen tcp443Open where
  tcp22 := hinv.tcp22.other (by decide) (by decide)
  tcp80 := .probe
  tcp443 := hinv.tcp443.other (by decide) (by decide)

theorem Inv.probe443 (hinv : Inv h host .tcp443Pending tcp22Open tcp80Open tcp443Open)
    (isOpen : Bool) :
    Inv (h ++ [.probe host 443 isOpen]) host .tcp443Result tcp22Open tcp80Open isOpen where
  tcp22 := hinv.tcp22.other (by decide) (by decide)
  tcp80 := hinv.tcp80.other (by decide) (by decide)
  tcp443 := .probe

end Inv

/-- The report keeps the results of a history. -/
def Keeps (h : List Event) (r : NetDiagReport) : Prop :=
  Inv h r.host r.currentState r.tcp22Open r.tcp80Open r.tcp443Open

theorem Keeps.sound {h : List Event} {r : NetDiagReport} (hr : Keeps h r) :
    NeverMixes h r where
  tcp22 := ⟨hr.tcp22.target, fun hstate => hr.tcp22.scan (by rw [hstate]; decide)⟩
  tcp80 := ⟨hr.tcp80.target, fun hstate => hr.tcp80.scan (by rw [hstate]; decide)⟩
  tcp443 := ⟨hr.tcp443.target, fun hstate => hr.tcp443.scan (by rw [hstate]; decide)⟩

section Keeps

variable {s : NetworkDiagnostics} {h : List Event}

/-- A target clears the flags, or it is refused and nothing changes. -/
theorem setTarget_cases (s : NetworkDiagnostics) (targetIp : Option (List UInt8)) :
    (s.networkDiagnosticsSetTarget targetIp).1 = .ok ∧
        (∀ h, Keeps h (s.networkDiagnosticsSetTarget targetIp).2.report) ∨
      (s.networkDiagnosticsSetTarget targetIp).1 = .invalidArg ∧
        (s.networkDiagnosticsSetTarget targetIp).2 = s := by
  cases targetIp with
  | none => exact .inr ⟨rfl, rfl⟩
  | some ip =>
    rw [networkDiagnosticsSetTarget]
    split_ifs
    · exact .inr ⟨rfl, rfl⟩
    · exact .inl ⟨rfl, fun _ => .cleared⟩

theorem Keeps.start (hs : Keeps h s.report) :
    Keeps (h ++ [.scan]) s.networkDiagnosticsStart.report := by
  rw [networkDiagnosticsStart]
  split_ifs
  · exact hs.restart .icmpPending (by decide)
  · exact hs.restart .idle (by decide)

/-- The task probes a port in the states in which a probe is pending, and else it goes on to the
    next state, which is not after a probe that the state was not after. -/
theorem Keeps.task (hs : Keeps h s.report) (isOpen : Bool) (now : UInt32) :
    Keeps (h ++ (s.networkDiagnosticsTask isOpen now).1.filterMap Effect.probe)
      (s.networkDiagnosticsTask isOpen now).2.report := by
  rw [Keeps] at hs
  rw [networkDiagnosticsTask]
  have hquiet : h ++ List.filterMap Effect.probe [] = h := List.append_nil h
  cases hstate : s.report.currentState <;> rw [hstate] at hs <;> dsimp only
  case idle =>
    rw [hquiet, Keeps, hstate]
    exact hs
  case targetConfigured =>
    rw [hquiet]
    exact hs.move .icmpPending (by decide)
  case icmpPending =>
    rw [hquiet]
    exact hs.move .icmpResult (by decide)
  case icmpResult =>
    rw [hquiet]
    exact hs.move .tcp22Pending (by decide)
  case tcp22Pending => exact hs.probe22 isOpen
  case tcp22Result =>
    rw [hquiet]
    exact hs.move .tcp80Pending (by decide)
  case tcp80Pending => exact hs.probe80 isOpen
  case tcp80Result =>
    rw [hquiet]
    exact hs.move .tcp443Pending (by decide)
  case tcp443Pending => exact hs.probe443 isOpen
  case tcp443Result =>
    rw [hquiet]
    exact hs.move .complete (by decide)
  case complete =>
    -- The audit log gets a line, or not; the report stays as it is.
    have hlog (line : List UInt8) : h ++
        List.filterMap Effect.probe [.vfsLogAppend (ascii "wifi_audit.log") line] = h :=
      List.append_nil h
    split_ifs
    · rw [hlog, Keeps, hstate]
      exact hs
    · rw [hquiet, Keeps, hstate]
      exact hs

theorem Keeps.next (hs : Keeps h s.report) (c : Call) :
    Keeps (h ++ events s c) (s.next c).report := by
  cases c with
  | networkDiagnosticsInit => exact Inv.cleared
  | networkDiagnosticsSetTarget targetIp =>
    rw [events, NetworkDiagnostics.next]
    rcases setTarget_cases s targetIp with ⟨hok, hkeeps⟩ | ⟨hrefused, hsame⟩
    · exact hkeeps _
    · rw [hrefused, hsame, if_neg (by decide), List.append_nil]
      exact hs
  | networkDiagnosticsStart => exact hs.start
  | networkDiagnosticsStop =>
    rw [events, List.append_nil]
    exact Inv.stop hs
  | networkDiagnosticsTask isOpen now => exact hs.task isOpen now

end Keeps

/-- After `network_diagnostics_init`, whatever is called and whatever the probes find. -/
theorem neverMixes (s : NetworkDiagnostics) (run : List Call) :
    NeverMixes (history s (.networkDiagnosticsInit :: run))
      ((Call.networkDiagnosticsInit :: run).foldl next s).report := by
  refine Keeps.sound ?_
  induction run using List.reverseRecOn with
  | nil => exact Inv.cleared
  | append_singleton run c ih =>
    rw [history, ← List.cons_append, collect_concat, List.foldl_concat]
    exact ih.next c

end NetworkDiagnostics

end SliverOS
