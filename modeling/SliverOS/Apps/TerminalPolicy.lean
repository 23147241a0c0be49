import SliverOS.Apps.NetworkTerminal
import SliverOS.Vfs.Strings

/-!
# The safety policy of the terminal

A line with a blocked word is refused, whatever the command it forms, and so no blocked word comes
out of the terminal: the argument of a command that is accepted is a part of the line that was
filtered (`Accepted.argument_isInfix`), whichever way it was cut out of it.

* `accepted_of_ok`: what the parser accepts;
* `safety_policy`: the policy, for any line.
-/

namespace SliverOS

variable {overflow : List UInt8 → UInt32} {buf text : List UInt8}

/-- The bytes of the argument: those of the text over the zeros of `memset`. -/
def NetTerminalRequest.argumentBytes (request : NetTerminalRequest) : Vector UInt8 48 :=
  Vector.ofFn fun k => request.argument.getD k 0

/-- The policy, on a line. -/
structure SafetyPolicy (overflow : List UInt8 → UInt32) (line : List UInt8) : Prop where
  /-- The argument ends within its bytes, where its text does. -/
  terminated : (networkTerminalParse overflow line).1 = .ok →
    0 ∈ (networkTerminalParse overflow line).2.argumentBytes.toList ∧
      cString (networkTerminalParse overflow line).2.argumentBytes.toList =
        (networkTerminalParse overflow line).2.argument
  /-- No blocked word is found in it. -/
  words : (networkTerminalParse overflow line).1 = .ok → ∀ word ∈ blockedWords,
    ¬word <:+: cString (networkTerminalParse overflow line).2.argumentBytes.toList
  /-- A port is in range. -/
  port : (networkTerminalParse overflow line).1 = .ok →
    (networkTerminalParse overflow line).2.hasPort = true →
      1 ≤ (networkTerminalParse overflow line).2.port.toNat ∧
        (networkTerminalParse overflow line).2.port.toNat ≤ 65535
  /-- A line with a blocked word is refused, and leaves no request. -/
  blocked : trim ((cString line).take 95) ≠ [] →
    (∃ word ∈ blockedWords, word <:+: trim ((cString line).take 95)) →
      networkTerminalParse overflow line = (.blocked, .zero)

/-! ## What is cut out of the line -/

theorem blockedCommand_eq_false_iff :
    blockedCommand buf = false ↔ ∀ word ∈ blockedWords, ¬word <:+: buf := by
  simp only [blockedCommand, List.any_eq_false, decide_eq_true_eq]

/-- `%s` finds a part of the text. -/
theorem scanString_isInfix (width : ℕ) (text : List UInt8) :
    (scanString width text).1 <:+: text := by
  have hword : (scanString width text).1 <+: text.dropWhile isspace :=
    (List.take_prefix _ _).trans (List.takeWhile_prefix _)
  exact hword.isInfix.trans (List.dropWhile_suffix _).isInfix

/-- The string of an `sscanf` is the one found by `%s`, or empty. -/
theorem sscanf_isInfix (overflow : List UInt8 → UInt32) (text : List UInt8) :
    (sscanf overflow text).2.1 <:+: text := by
  have hword := scanString_isInfix 47 text
  rw [sscanf]
  rcases hscan : scanString 47 text with ⟨arg, rest⟩
  rw [hscan] at hword
  simp only
  split_ifs
  · exact List.nil_infix
  · split
    · exact hword
    · exact hword

/-! ## What is accepted -/

/-- A request made of the line `buf`. -/
structure Accepted (buf : List UInt8) (request : NetTerminalRequest) : Prop where
  argument_isInfix : request.argument <:+: buf
  argument_le : request.argument.length ≤ 47
  port_le : request.hasPort = true → 1 ≤ request.port.toNat ∧ request.port.toNat ≤ 65535

namespace Accepted

/-- A command alone. -/
theorem bare (command : NetTerminalCommand) :
    Accepted buf { NetTerminalRequest.zero with command := command } where
  argument_isInfix := List.nil_infix
  argument_le := Nat.zero_le 47
  port_le h := absurd h Bool.false_ne_true

/-- A scan of the network, with what is after the command. -/
theorem scan (buf : List UInt8) :
    Accepted buf { NetTerminalRequest.zero with
      command := .networkScan, argument := (buf.drop 13).take 47 } where
  argument_isInfix := (List.take_prefix _ _).isInfix.trans (List.drop_suffix _ _).isInfix
  argument_le := List.length_take_le _ _
  port_le h := absurd h Bool.false_ne_true

/-- A check of a port in range, with what `sscanf` found. -/
theorem check {arg : List UInt8} {port : UInt32} (harg : arg <:+: buf.drop 11)
    (hle : ¬65535 < port) (hne : ¬port = 0) :
    Accepted buf ⟨.portCheck, arg.take 47, port.toUInt16, true⟩ where
  argument_isInfix := (List.take_prefix _ _).isInfix.trans
    (harg.trans (List.drop_suffix _ _).isInfix)
  argument_le := List.length_take_le _ _
  port_le _ := by
    have hle : port.toNat ≤ 65535 := UInt32.le_iff_toNat_le.1 (UInt32.not_lt.1 hle)
    have hpos : port.toNat ≠ 0 := fun h => hne (UInt32.toNat_inj.1 h)
    rw [UInt32.toNat_toUInt16, Nat.mod_eq_of_lt (Nat.lt_succ_of_le hle)]
    exact ⟨Nat.pos_of_ne_zero hpos, hle⟩

/-- The argument ends with the zeros after it. -/
theorem argumentBytes_eq {request : NetTerminalRequest} (h : Accepted buf request) :
    request.argumentBytes.toList =
      request.argument ++ List.replicate (48 - request.argument.length) 0 := by
  have hle := h.argument_le
  refine List.ext_getElem ?_ fun k hk _ => ?_
  · rw [Vector.length_toList, List.length_append, List.length_replicate]
    omega
  · simp only [NetTerminalRequest.argumentBytes, Vector.getElem_toList, Vector.getElem_ofFn,
      List.getElem_append, List.getElem_replicate]
    split_ifs with hlt
    · exact List.getD_eq_getElem _ _ hlt
    · exact List.getD_eq_default _ _ (Nat.not_lt.1 hlt)

/-- Cut out of a string, the argument is read back as it was written. -/
theorem cString_argumentBytes {request : NetTerminalRequest} (h : Accepted buf request)
    (hbuf : ∀ b ∈ buf, b ≠ 0) :
    cString request.argumentBytes.toList = request.argument := by
  rw [h.argumentBytes_eq]
  exact cString_append_zeros (fun b hb => hbuf b (h.argument_isInfix.subset hb)) _

theorem zero_mem_argumentBytes {request : NetTerminalRequest} (h : Accepted buf request) :
    0 ∈ request.argumentBytes.toList := by
  have hle := h.argument_le
  rw [h.argumentBytes_eq, List.mem_append, List.mem_replicate]
  exact .inr ⟨by omega, rfl⟩

end Accepted

/-- What the parser accepts has no blocked word in it, and a request is made of it. -/
theorem accepted_of_ok {line : List UInt8} (h : (networkTerminalParse overflow line).1 = .ok) :
    blockedCommand (trim ((cString line).take 95)) = false ∧
      Accepted (trim ((cString line).take 95)) (networkTerminalParse overflow line).2 := by
  rw [networkTerminalParse] at h ⊢
  generalize trim ((cString line).take 95) = buf at h ⊢
  simp only at h ⊢
  have hscan := sscanf_isInfix overflow (buf.drop 11)
  split_ifs at h ⊢ with hempty hblocked hhelp hstatus hwifi hnetwork hlong hcheck hbad hclear
  -- The commands alone, in their order but for the two with an argument.
  · exact ⟨by simpa using hblocked, .bare .help⟩
  · exact ⟨by simpa using hblocked, .bare .status⟩
  · exact ⟨by simpa using hblocked, .bare .wifiScan⟩
  · exact ⟨by simpa using hblocked, .scan buf⟩
  · rw [not_or, not_or] at hbad
    obtain ⟨-, hle, hne⟩ := hbad
    exact ⟨by simpa using hblocked, .check hscan hle hne⟩
  · exact ⟨by simpa using hblocked, .bare .clear⟩

/-- The safety policy: the argument of an accepted command ends within its bytes and has no blocked
    word in it, a port is in range, and any line with a blocked word is refused. -/
theorem safety_policy (overflow : List UInt8 → UInt32) (line : List UInt8) :
    SafetyPolicy overflow line := by
  have hbuf : ∀ b ∈ trim ((cString line).take 95), b ≠ 0 := fun b hb =>
    ne_zero_of_mem_take_cString ((trim_isInfix _).subset hb)
  constructor
  · intro hok
    obtain ⟨-, haccepted⟩ := accepted_of_ok hok
    exact ⟨haccepted.zero_mem_argumentBytes, haccepted.cString_argumentBytes hbuf⟩
  · intro hok
    obtain ⟨hclean, haccepted⟩ := accepted_of_ok hok
    rw [haccepted.cString_argumentBytes hbuf, ← blockedCommand_eq_false_iff]
    exact blockedCommand_of_infix haccepted.argument_isInfix hclean
  · intro hok
    obtain ⟨-, haccepted⟩ := accepted_of_ok hok
    exact haccepted.port_le
  · intro hne hword
    have hblocked : blockedCommand (trim ((cString line).take 95)) = true := by
      by_contra hclean
      rw [Bool.not_eq_true, blockedCommand_eq_false_iff] at hclean
      obtain ⟨word, hmem, hin⟩ := hword
      exact hclean word hmem hin
    rw [networkTerminalParse]
    simp only
    rw [if_neg hne, if_pos hblocked]

end SliverOS
