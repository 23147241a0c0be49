import SliverOS.Apps.NetworkDiagnostics
import SliverOS.Apps.WifiDiagnostics
import SliverOS.Bytes.Printf
import SliverOS.Vfs.Log
import SliverOS.Vfs.Reads

/-!
# The applications and their audit log

The two diagnostics applications write to one file through `os/vfs/vfs_log.c`, while others open,
read, write and delete theirs, and while the log may be cleared. The calls of all of them are the
actions of the system (`Auditing.Action`), in any order.

* `LogAt.vfsLogInit`, `LogAt.vfsLogClear`: the other two functions of the log, on one that exists;
* `Auditing.audit_faithful`: in any run, the log is what was in it, and then the lines accepted
  since it was cleared; each of them is there as a whole, up to its newline, and a line is refused
  when it would not fit or when all descriptors are taken.
-/

namespace SliverOS

open Bytes Flash Printf

/-! ## The log -/

namespace Vfs

variable {w : SizeT} {s : Vfs} {i : Fin 16} {d : Fin 8} {name path bytes : List UInt8}

/-- `vfs_log_init`. -/
def vfsLogInit (s : Vfs) (logFilename : List UInt8) : MkStatus × Vfs :=
  match s.vfsOpen logFilename (oCreat ||| oWronly) with
  | (.error status, s) => (status, s)
  | (.ok fd, s) => (.ok, (s.vfsClose (fd : ℕ)).2)

/-- `vfs_log_clear`. -/
def vfsLogClear (s : Vfs) (logFilename : List UInt8) : MkStatus × Vfs :=
  match s.vfsOpen logFilename (oCreat ||| oWronly ||| oTrunc) with
  | (.error status, s) => (status, s)
  | (.ok fd, s) => (.ok, (s.vfsClose (fd : ℕ)).2)

/-- The log is found, and opened when there is a descriptor. -/
theorem LogAt.vfsOpen_eq (h : LogAt s (fname path) i bytes) (flags : UInt32) :
    (s.freeFd = none ∧ s.vfsOpen path flags = (.error .busy, s)) ∨
      ∃ d, s.freeFd = some d ∧ s.vfsOpen path flags = (.ok d,
        if flags &&& oTrunc ≠ 0 then (s.opened i d flags).truncate i d
        else s.opened i d flags) :=
  vfsOpen_of_targetInode h.inv.ready (targetInode_of_found h.found flags)

/-- A log that exists stays as it is. -/
theorem LogAt.vfsLogInit (h : LogAt s (fname path) i bytes) :
    LogAt (s.vfsLogInit path).2 (fname path) i bytes := by
  have hkeep : ¬(oCreat ||| oWronly) &&& oTrunc ≠ 0 := by decide
  rcases h.vfsOpen_eq (oCreat ||| oWronly) with ⟨-, heq⟩ | ⟨d, -, heq⟩
  · rw [Vfs.vfsLogInit, heq]
    exact h
  · rw [Vfs.vfsLogInit, heq, if_neg hkeep]
    refine h.of_closed (h.inv.opened h.inUse d _) ?_ (fun e he => ?_) (fun j => ⟨rfl, rfl⟩)
      h.content
    · simp [Vfs.opened]
    · exact Function.update_of_ne he ..

/-- The log is empty after it is cleared, if there was a descriptor for it. -/
theorem LogAt.vfsLogClear (h : LogAt s (fname path) i bytes) :
    ((s.vfsLogClear path).1 = .ok → LogAt (s.vfsLogClear path).2 (fname path) i []) ∧
      ((s.vfsLogClear path).1 ≠ .ok → LogAt (s.vfsLogClear path).2 (fname path) i bytes) := by
  have hclear : (oCreat ||| oWronly ||| oTrunc) &&& oTrunc ≠ 0 := by decide
  rcases h.vfsOpen_eq (oCreat ||| oWronly ||| oTrunc) with ⟨hfree, heq⟩ | ⟨d, hfree, heq⟩
  · rw [Vfs.vfsLogClear, heq]
    exact ⟨nofun, fun _ => h⟩
  · rw [Vfs.vfsLogClear, heq, if_pos hclear]
    refine ⟨fun _ => ?_, fun hne => absurd rfl hne⟩
    have hinv := h.inv.opened h.inUse d (oCreat ||| oWronly ||| oTrunc)
    have hstart := (h.inv.slot i).startSector_ne h.inUse
    obtain ⟨sb, -, hsb, htruncate⟩ := truncate_eq hinv i d
    have hinode (j : Fin 16) :
        ((s.opened i d (oCreat ||| oWronly ||| oTrunc)).truncate i d).inode j =
          Function.update s.superblock.inodes i { s.inode i with sizeBytes := 0 } j := by
      rw [htruncate]
      exact congrFun hsb j
    have hfiles : ((s.opened i d (oCreat ||| oWronly ||| oTrunc)).truncate i d).openFiles =
        Function.update s.openFiles d ⟨i, 0, oCreat ||| oWronly ||| oTrunc, true⟩ := by
      rw [htruncate]
      simp [Vfs.commit, Vfs.opened]
    refine h.of_closed (hinv.truncate hstart d) ?_ (fun e he => ?_) (fun j => ?_)
      (List.length_eq_zero_iff.1 (length_content_truncate _ i d))
    · rw [hfiles, Function.update_self]
    · rw [hfiles, Function.update_of_ne he]
    · rw [hinode]
      by_cases hj : j = i
      · subst hj
        rw [Function.update_self]
        exact ⟨rfl, rfl⟩
      · rw [Function.update_of_ne hj]
        exact ⟨rfl, rfl⟩

/-- Without a descriptor, nothing is appended. -/
theorem LogAt.append_busy (h : LogAt s (fname path) i bytes) (hfree : s.freeFd = none)
    (entry : List UInt8) : s.vfsLogAppend w path entry = (.busy, s) := by
  rcases h.vfsOpen_eq (oCreat ||| oWronly ||| oAppend) with ⟨-, heq⟩ | ⟨d, hd, -⟩
  · rw [vfsLogAppend, heq]
  · cases hfree.symm.trans hd

end Vfs

/-! ## Lines -/

/-- Some bytes of a string, of which there are at most `n`. -/
def StringOf (n : ℕ) (bs : List UInt8) : Prop := bs.length ≤ n ∧ 0 ∉ bs

namespace StringOf

variable {m n : ℕ} {as bs : List UInt8}

theorem mono (h : StringOf m bs) (hle : m ≤ n) : StringOf n bs := ⟨h.1.trans hle, h.2⟩

theorem append (ha : StringOf m as) (hb : StringOf n bs) : StringOf (m + n) (as ++ bs) := by
  refine ⟨?_, fun hmem => (List.mem_append.1 hmem).elim ha.2 hb.2⟩
  rw [List.length_append]
  exact Nat.add_le_add ha.1 hb.1

/-- A format is no longer than its pieces are. -/
theorem flatten {pieces : List (List UInt8)} {ns : List ℕ}
    (h : List.Forall₂ (fun bs n => StringOf n bs) pieces ns) :
    StringOf ns.sum pieces.flatten := by
  induction h with
  | nil => exact ⟨Nat.le_refl _, List.not_mem_nil⟩
  | cons hpiece _ ih => exact hpiece.append ih

theorem of_literal {text : String} {l : List Char} (h : text = String.ofList l)
    (hl : (l.all fun c => UInt8.ofNat c.toNat ≠ 0) = true) : StringOf l.length (ascii text) := by
  rw [ascii, toList_literal h]
  refine ⟨(List.length_map _).le, fun hmem => ?_⟩
  obtain ⟨c, hc, hzero⟩ := List.mem_map.1 hmem
  exact of_decide_eq_true (List.all_eq_true.1 hl c hc) hzero

/-- A number is written in its digits. -/
theorem of_decimal {k x : ℕ} (hk : 0 < k) (h : x < 10 ^ k) : StringOf k (ascii (decimal x)) := by
  refine ⟨(List.length_map _).trans_le (length_decimal_le hk h), fun hmem => ?_⟩
  obtain ⟨c, hc, hzero⟩ := List.mem_map.1 hmem
  have hdigit : 48 ≤ c.toNat ∧ c.toNat ≤ 57 :=
    forall_mem_decimal (fun c hc => by
      rw [Char.isDigit, Bool.and_eq_true, decide_eq_true_iff, decide_eq_true_iff] at hc
      exact hc) c hc
  have htoNat := congrArg UInt8.toNat hzero
  rw [UInt8.toNat_ofNat_of_lt' (by simp only [UInt8.size]; omega)] at htoNat
  exact absurd htoNat (by change c.toNat ≠ 0; omega)

theorem of_uint32 (x : UInt32) : StringOf 10 (ascii (decimal x.toNat)) :=
  of_decimal (by decide) (x.toNat_lt.trans (by decide))

/-- The strength of a signal has a sign and three digits at most. -/
theorem of_rssi {x : Int32} (h : -128 ≤ x.toInt ∧ x.toInt ≤ 127) :
    StringOf 4 (ascii (toString x)) := by
  obtain ⟨hge, hle⟩ := h
  change StringOf 4 (ascii (toString x.toInt))
  rw [Int.toString_eq_repr]
  cases hx : x.toInt with
  | ofNat n =>
    rw [hx, Int.ofNat_eq_natCast] at hle
    have hn := of_decimal (k := 3) (x := n) (by decide) (by omega)
    exact ⟨hn.1.trans (by decide), hn.2⟩
  | negSucc n =>
    rw [hx] at hge
    have hn := of_decimal (k := 3) (x := n + 1) (by decide) (by omega)
    have hminus : StringOf 1 (ascii "-") := of_literal rfl rfl
    have hsplit : ascii ("-" ++ decimal (n + 1)) = ascii "-" ++ ascii (decimal (n + 1)) := by
      rw [ascii, String.toList_append, List.map_append]
      rfl
    exact hsplit ▸ hminus.append hn

end StringOf

/-- A line of the log: it has been written whole, up to its newline. -/
def IsLine (bs : List UInt8) : Prop :=
  bs.length < 128 ∧ 0 ∉ bs ∧ bs.getLast? = some 0x0A

/-- A text that is short enough is a line, with its newline. -/
theorem isLine_of_stringOf {text : List UInt8} (h : StringOf 126 text) :
    IsLine ((text ++ ascii "\n").take 127) := by
  have hnewline : ascii "\n" = [0x0A] := by decide
  have hlen : (text ++ [(0x0A : UInt8)]).length ≤ 127 := by
    rw [List.length_append, List.length_singleton]
    exact Nat.succ_le_succ h.1
  rw [hnewline, List.take_of_length_le hlen]
  refine ⟨Nat.lt_succ_of_le hlen, fun hmem => ?_, by simp⟩
  rcases List.mem_append.1 hmem with hmem | hmem
  · exact h.2 hmem
  · cases List.mem_singleton.1 hmem

/-- The line of the Wi-Fi diagnostics is one, whatever the counters are. -/
theorem isLine_auditLine_wifi {st : WifiDiagStats} (hchannel : st.activeChannel ≤ 11)
    (hrssi : -128 ≤ st.avgRssi.toInt ∧ st.avgRssi.toInt ≤ 127) :
    IsLine (WifiDiagnostics.auditLine st) := by
  have hch : StringOf 2 (ascii (toString st.activeChannel)) := by
    have hle : st.activeChannel.toNat ≤ 11 := UInt8.le_iff_toNat_le.1 hchannel
    exact .of_decimal (by decide) (by omega)
  have hpieces : List.Forall₂ (fun bs n => StringOf n bs)
      [ascii "[WIFI_AUDIT] Ch:", ascii (toString st.activeChannel), ascii " Tot:",
        ascii (toString st.totalFramesAnalyzed), ascii " Mgmt:", ascii (toString st.mgmtFrames),
        ascii " (Bcn:", ascii (toString st.beaconFrames), ascii ",Prb:",
        ascii (toString st.probeFrames), ascii ") Ctrl:", ascii (toString st.ctrlFrames),
        ascii " Data:", ascii (toString st.dataFrames), ascii " RSSI:",
        ascii (toString st.avgRssi)] _ :=
    .cons (.of_literal rfl rfl) <| .cons hch <| .cons (.of_literal rfl rfl) <|
    .cons (.of_uint32 _) <| .cons (.of_literal rfl rfl) <| .cons (.of_uint32 _) <|
    .cons (.of_literal rfl rfl) <| .cons (.of_uint32 _) <| .cons (.of_literal rfl rfl) <|
    .cons (.of_uint32 _) <| .cons (.of_literal rfl rfl) <| .cons (.of_uint32 _) <|
    .cons (.of_literal rfl rfl) <| .cons (.of_uint32 _) <| .cons (.of_literal rfl rfl) <|
    .cons (.of_rssi hrssi) .nil
  have htext := isLine_of_stringOf ((StringOf.flatten hpieces).mono (by decide))
  simpa only [List.flatten_cons, List.flatten_nil, List.append_nil, ← List.append_assoc,
    WifiDiagnostics.auditLine] using htext

/-- The line of the network diagnostics is one, whatever the target is. -/
theorem isLine_auditLine_net (r : NetDiagReport) : IsLine (NetworkDiagnostics.auditLine r) := by
  have hhost : StringOf 48 r.host :=
    ⟨(List.takeWhile_sublist _).length_le.trans_eq r.targetIp.length_toList,
      fun hmem => by simpa using List.mem_takeWhile_imp hmem⟩
  have hflag (b : Bool) : StringOf 1 (NetworkDiagnostics.decimal b.toNat) :=
    .of_decimal (by decide) (by cases b <;> decide)
  have hpieces : List.Forall₂ (fun bs n => StringOf n bs)
      [ascii "[NET_DIAG] IP:", r.host, ascii " ICMP:",
        NetworkDiagnostics.decimal r.icmpReachable.toNat, ascii " (",
        NetworkDiagnostics.decimal r.icmpRttMs.toNat, ascii "ms) 22:",
        NetworkDiagnostics.decimal r.tcp22Open.toNat, ascii " 80:",
        NetworkDiagnostics.decimal r.tcp80Open.toNat, ascii " 443:",
        NetworkDiagnostics.decimal r.tcp443Open.toNat] _ :=
    .cons (.of_literal rfl rfl) <| .cons hhost <| .cons (.of_literal rfl rfl) <|
    .cons (hflag _) <| .cons (.of_literal rfl rfl) <| .cons (.of_uint32 _) <|
    .cons (.of_literal rfl rfl) <| .cons (hflag _) <| .cons (.of_literal rfl rfl) <|
    .cons (hflag _) <| .cons (.of_literal rfl rfl) <| .cons (hflag _) .nil
  have htext := isLine_of_stringOf ((StringOf.flatten hpieces).mono (by decide))
  simpa only [List.flatten_cons, List.flatten_nil, List.append_nil, ← List.append_assoc,
    NetworkDiagnostics.auditLine] using htext

/-- A line fits in memory, with two sectors. -/
theorem IsLine.fits {bs : List UInt8} (h : IsLine bs) (w : SizeT) :
    bs.length + 2 * sectorSize < w.size := by
  have hlen := h.1
  cases w with
  | bits32 =>
    simp only [SizeT.size, sectorSize]
    omega
  | bits64 =>
    simp only [SizeT.size, sectorSize]
    omega

/-- A line is in memory. -/
def IsLine.entry {bs : List UInt8} (h : IsLine bs) (w : SizeT) : LogEntry w :=
  ⟨bs, h.2.1, h.fits w⟩

/-! ## The system -/

/-- The name of the audit log. -/
def auditLog : List UInt8 := ascii "wifi_audit.log"

/-- The two applications and the files, with what was in the log when it was cleared last, and the
    lines accepted since. -/
structure Auditing where
  wifi : WifiDiagnosticsRun
  net : NetworkDiagnostics
  vfs : Vfs
  base : List UInt8
  lines : List (List UInt8)

namespace Auditing

/-- What may happen next: a call of an application, one of the file system by others, or one of
    the other two functions of the log. -/
inductive Action
  | wifi (c : WifiDiagnostics.Call)
  | net (c : NetworkDiagnostics.Call)
  | vfs (c : Vfs.Call)
  | vfsLogInit
  | vfsLogClear

variable (w : SizeT) (target : WifiTarget) (s : Auditing)

/-- A line is appended to a file, the status being ignored. -/
def append (a : List UInt8 × List UInt8) : Auditing :=
  let (status, vfs) := s.vfs.vfsLogAppend w a.1 a.2
  { s with vfs, lines := if status = .ok then s.lines ++ [a.2] else s.lines }

/-- What a call of the Wi-Fi diagnostics appends, and to which file. -/
def wifiAppends : WifiDiagnostics.Call → List (List UInt8 × List UInt8)
  | .wifiDiagnosticsTask currentTick times =>
    (s.wifi.app.wifiDiagnosticsTask target currentTick times).1.logs
  | _ => []

/-- What an effect of the network diagnostics appends. -/
def effectAppend? : NetworkDiagnostics.Effect → Option (List UInt8 × List UInt8)
  | .vfsLogAppend logFilename entry => some (logFilename, entry)
  | .checkTcpNonblocking .. => none

/-- What a call of the network diagnostics appends, and to which file. -/
def netAppends : NetworkDiagnostics.Call → List (List UInt8 × List UInt8)
  | .networkDiagnosticsTask isOpen now =>
    (s.net.networkDiagnosticsTask isOpen now).1.filterMap effectAppend?
  | _ => []

/-- The system after an action. -/
def step : Action → Auditing
  | .wifi c => (s.wifiAppends target c).foldl (append w) { s with wifi := s.wifi.exec target c }
  | .net c => (s.netAppends c).foldl (append w) { s with net := s.net.next c }
  | .vfs c => { s with vfs := s.vfs.exec w c }
  | .vfsLogInit => { s with vfs := (s.vfs.vfsLogInit auditLog).2 }
  | .vfsLogClear =>
    let (status, vfs) := s.vfs.vfsLogClear auditLog
    if status = .ok then { s with vfs, base := [], lines := [] } else { s with vfs }

/-- The system after some actions. -/
def run (acts : List Action) : Auditing := acts.foldl (step w target) s

/-- The calls of the others are on other files. -/
def Action.OnOthers : Action → Prop
  | .vfs c => Vfs.OnOthers (fname auditLog) c
  | _ => True

/-- The Wi-Fi diagnostics have just been initialised. -/
def start (net : NetworkDiagnostics) (vfs : Vfs) (base : List UInt8) : Auditing :=
  ⟨WifiDiagnosticsRun.zero.exec target .wifiDiagnosticsInit, net, vfs, base, []⟩

/-- The log has what it should, and what is written to it next is a line. -/
structure Inv (s : Auditing) (i : Fin 16) : Prop where
  log : Vfs.LogAt s.vfs (fname auditLog) i (s.base ++ s.lines.flatten)
  lines : ∀ line ∈ s.lines, IsLine line
  wifi : s.wifi.Inv
  channel : s.wifi.OnChannel

variable {w : SizeT} {target : WifiTarget} {s : Auditing} {i : Fin 16}

/-- A line is accepted when it fits and there is a descriptor for it. -/
theorem Inv.status (h : Inv s i) {line : List UInt8} (hline : IsLine line) :
    (s.vfs.vfsLogAppend w auditLog line).1 = .ok ↔
      s.vfs.freeFd ≠ none ∧ (s.base ++ s.lines.flatten).length + line.length ≤ sectorSize := by
  by_cases hfree : s.vfs.freeFd = none
  · rw [h.log.append_busy hfree]
    simp [hfree]
  · obtain ⟨hstatus, -⟩ := h.log.append hfree (hline.entry w)
    have hentry : (hline.entry w).bytes = line := rfl
    rw [hentry] at hstatus
    rw [hstatus]
    by_cases hfits : (s.base ++ s.lines.flatten).length + line.length ≤ sectorSize
    · rw [if_pos hfits]
      exact iff_of_true rfl ⟨hfree, hfits⟩
    · rw [if_neg hfits]
      exact iff_of_false (by decide) fun hboth => hfits hboth.2

theorem Inv.append (h : Inv s i) {line : List UInt8} (hline : IsLine line) :
    Inv (s.append w (auditLog, line)) i := by
  have hstatus := h.status (w := w) hline
  by_cases hfree : s.vfs.freeFd = none
  · rw [Auditing.append, h.log.append_busy hfree]
    exact ⟨h.log, h.lines, h.wifi, h.channel⟩
  · obtain ⟨-, hlog⟩ := h.log.append hfree (hline.entry w)
    have hentry : (hline.entry w).bytes = line := rfl
    rw [hentry] at hlog
    by_cases hok : (s.vfs.vfsLogAppend w auditLog line).1 = .ok
    · rw [if_pos (hstatus.1 hok).2] at hlog
      refine ⟨?_, ?_, h.wifi, h.channel⟩
      · simpa [Auditing.append, hok] using hlog
      · simp only [Auditing.append, if_pos hok]
        exact List.forall_mem_append.2 ⟨h.lines, List.forall_mem_singleton.2 hline⟩
    · rw [if_neg fun hfits => hok (hstatus.2 ⟨hfree, hfits⟩)] at hlog
      refine ⟨?_, ?_, h.wifi, h.channel⟩
      · simpa [Auditing.append, hok] using hlog
      · simpa [Auditing.append, hok] using h.lines

theorem Inv.foldl_append (h : Inv s i) {appends : List (List UInt8 × List UInt8)}
    (happends : ∀ a ∈ appends, a.1 = auditLog ∧ IsLine a.2) :
    Inv (appends.foldl (Auditing.append w) s) i := by
  induction appends generalizing s with
  | nil => exact h
  | cons a appends ih =>
    obtain ⟨⟨hname, hline⟩, hrest⟩ := List.forall_mem_cons.1 happends
    have hstep := h.append (w := w) hline
    rw [← hname] at hstep
    exact ih hstep hrest

/-- A line tells the statistics that the task leaves. -/
theorem eq_of_mem_logs {app : WifiDiagnostics} {currentTick : UInt32} {times : ℕ → UInt32}
    {a : List UInt8 × List UInt8}
    (h : a ∈ (app.wifiDiagnosticsTask target currentTick times).1.logs) :
    a.1 = auditLog ∧ a.2 = WifiDiagnostics.auditLine
      (app.wifiDiagnosticsTask target currentTick times).2.stats := by
  rw [WifiDiagnostics.wifiDiagnosticsTask] at h ⊢
  split_ifs at h ⊢ with hactive
  · generalize (app.analyze target times).2.hop currentTick = hopped at h ⊢
    obtain ⟨hops, app'⟩ := hopped
    simp only [WifiDiagnostics.audit] at h ⊢
    split_ifs at h ⊢
    · obtain rfl := List.mem_singleton.1 h
      exact ⟨rfl, rfl⟩
    · cases h
  · cases h

/-- What the Wi-Fi diagnostics append are lines of the log. -/
theorem Inv.wifiAppends (h : Inv s i) (target : WifiTarget) (c : WifiDiagnostics.Call) :
    ∀ a ∈ s.wifiAppends target c, a.1 = auditLog ∧ IsLine a.2 := by
  cases c with
  | wifiDiagnosticsTask currentTick times =>
    have hinv := h.wifi.exec target (.wifiDiagnosticsTask currentTick times)
    have hchannel : (s.wifi.exec target (.wifiDiagnosticsTask currentTick times)).OnChannel :=
      h.channel.exec h.wifi _
    intro a ha
    obtain ⟨hname, htext⟩ := eq_of_mem_logs ha
    rw [htext]
    exact ⟨hname, isLine_auditLine_wifi hchannel.2 hinv.sound.rssi⟩
  | _ => exact List.forall_mem_nil _

/-- What the network diagnostics append are lines of the log. -/
theorem netAppends_isLine (s : Auditing) (c : NetworkDiagnostics.Call) :
    ∀ a ∈ s.netAppends c, a.1 = auditLog ∧ IsLine a.2 := by
  cases c with
  | networkDiagnosticsTask isOpen now =>
    intro a ha
    obtain ⟨e, he, heq⟩ := List.mem_filterMap.1 ha
    rw [NetworkDiagnostics.networkDiagnosticsTask] at he
    split at he
    case h_11 =>
      split_ifs at he
      · obtain rfl := List.mem_singleton.1 he
        rw [effectAppend?, Option.some.injEq, Prod.ext_iff] at heq
        exact ⟨heq.1.symm, heq.2 ▸ isLine_auditLine_net s.net.report⟩
      · cases he
    case h_5 | h_7 | h_9 =>
      obtain rfl := List.mem_singleton.1 he
      cases heq
    all_goals cases he
  | _ => exact List.forall_mem_nil _

theorem Inv.step (h : Inv s i) {a : Action} (ha : a.OnOthers) : Inv (s.step w target a) i := by
  cases a with
  | wifi c =>
    exact Inv.foldl_append (s := { s with wifi := s.wifi.exec target c })
      ⟨h.log, h.lines, h.wifi.exec target c, h.channel.exec h.wifi c⟩ (h.wifiAppends target c)
  | net c =>
    exact Inv.foldl_append (s := { s with net := s.net.next c })
      ⟨h.log, h.lines, h.wifi, h.channel⟩ (s.netAppends_isLine c)
  | vfs c => exact ⟨h.log.exec ha w, h.lines, h.wifi, h.channel⟩
  | vfsLogInit => exact ⟨h.log.vfsLogInit, h.lines, h.wifi, h.channel⟩
  | vfsLogClear =>
    obtain ⟨hcleared, hkept⟩ := h.log.vfsLogClear
    by_cases hok : (s.vfs.vfsLogClear auditLog).1 = .ok
    · simp only [Auditing.step, if_pos hok]
      exact ⟨hcleared hok, List.forall_mem_nil _, h.wifi, h.channel⟩
    · simp only [Auditing.step, if_neg hok]
      exact ⟨hkept hok, h.lines, h.wifi, h.channel⟩

theorem Inv.run (h : Inv s i) {acts : List Action} (hacts : ∀ a ∈ acts, a.OnOthers) :
    Inv (s.run w target acts) i := by
  induction acts generalizing s with
  | nil => exact h
  | cons a acts ih =>
    obtain ⟨ha, hrest⟩ := List.forall_mem_cons.1 hacts
    exact ih (h.step ha) hrest

theorem inv_start (net : NetworkDiagnostics) {vfs : Vfs} {base : List UInt8}
    (h : Vfs.LogAt vfs (fname auditLog) i base) : Inv (start target net vfs base) i where
  log := by
    rw [start, List.flatten_nil, List.append_nil]
    exact h
  lines := List.forall_mem_nil _
  wifi := WifiDiagnosticsRun.inv_zero.exec target .wifiDiagnosticsInit
  channel := WifiDiagnosticsRun.onChannel_wifiDiagnosticsInit _ target

/-- In any run, whatever goes next, the log has what was in it and then the lines accepted since
    it was cleared, in order and each as a whole, up to its newline. It is at most a sector long;
    and a line is refused when it would make it longer or there is no descriptor, and only then. -/
theorem audit_faithful (net : NetworkDiagnostics) {vfs : Vfs} {base : List UInt8}
    (hlog : Vfs.LogAt vfs (fname auditLog) i base) {acts : List Action}
    (hacts : ∀ a ∈ acts, a.OnOthers) :
    let s := (start target net vfs base).run w target acts
    s.vfs.findInode (fname auditLog) = some i ∧
      s.vfs.content i = s.base ++ s.lines.flatten ∧
      (s.vfs.content i).length ≤ 4096 ∧
      (∀ line ∈ s.lines, line.length < 128 ∧ 0 ∉ line ∧ line.getLast? = some 0x0A) ∧
      ∀ line, IsLine line → ((s.vfs.vfsLogAppend w auditLog line).1 ≠ .ok ↔
        s.vfs.freeFd = none ∨ 4096 < (s.vfs.content i).length + line.length) := by
  intro s
  have h : Inv s i := (inv_start net hlog).run hacts
  refine ⟨h.log.found, h.log.content, ?_, h.lines, fun line hline => ?_⟩
  · rw [Vfs.length_content]
    exact (h.log.inv.slot i).sizeBytes
  · rw [Ne, h.status hline, h.log.content, not_and_or, Nat.not_le, not_not]
    rfl

/-- The Wi-Fi diagnostics are started, and log once. -/
def loggedOnce : List Action :=
  [.wifi .wifiDiagnosticsStart, .wifi (.wifiDiagnosticsTask 100 fun _ => 0), .vfsLogInit]

theorem logAt_formatted : Vfs.LogAt Vfs.formatted (fname auditLog) 1 [] :=
  ⟨(Vfs.reachable_formatted (w := .bits32)).inv, by decide, by decide +kernel, by decide +kernel,
    by decide +kernel⟩

theorem audit_faithful_loggedOnce :
    let s := (start .host ⟨.zero, 0⟩ Vfs.formatted []).run .bits32 .host loggedOnce
    s.vfs.findInode (fname auditLog) = some 1 ∧
      s.vfs.content 1 = s.base ++ s.lines.flatten ∧
      (s.vfs.content 1).length ≤ 4096 ∧
      (∀ line ∈ s.lines, line.length < 128 ∧ 0 ∉ line ∧ line.getLast? = some 0x0A) ∧
      ∀ line, IsLine line → ((s.vfs.vfsLogAppend .bits32 auditLog line).1 ≠ .ok ↔
        s.vfs.freeFd = none ∨ 4096 < (s.vfs.content 1).length + line.length) :=
  audit_faithful _ logAt_formatted (by simp [loggedOnce, Action.OnOthers])

end Auditing

end SliverOS
