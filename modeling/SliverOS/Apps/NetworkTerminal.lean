import SliverOS.Apps.MacroDelays

/-!
# The terminal of the network lab

`os/apps/network_diagnostics/network_terminal.c`: a line is trimmed and compared to the commands,
of which `port check` is read by `sscanf` with `"%47s %u"`. What a conversion gives that does not
fit in an `unsigned int` is not defined, and a parameter here.

The white space before the number is not needed after a host of 47 characters, the number may have
a sign, and what is after it is not read: the parser accepts the command, and else only what has
a number in range of this kind (`LoosePortCheck`).

* `agrees_iff`: on any line without a blocked word, the parser accepts the command exactly as it
  is written unless the line is of this kind.
-/

namespace SliverOS

/-! ## Scanning -/

/-- `%s` with a width: the first characters after white space, none of them white space, and what
    is after them. -/
def scanString (width : ℕ) (text : List UInt8) : List UInt8 × List UInt8 :=
  let text := text.dropWhile isspace
  let word := (text.takeWhile (!isspace ·)).take width
  (word, text.drop word.length)

/-- The sign of a number, if it has one. -/
def signOf : List UInt8 → List UInt8
  | 0x2B :: _ => [0x2B]
  | 0x2D :: _ => [0x2D]
  | _ => []

/-- The number converted to an `unsigned int`, negated after a minus sign; `overflow` is what a
    number gives that does not fit. -/
def convert (overflow : List UInt8 → UInt32) (sign digits : List UInt8) : UInt32 :=
  if 2 ^ 32 ≤ decimalFrom 0 digits then overflow (sign ++ digits)
  else if sign = [0x2D] then -UInt32.ofNat (decimalFrom 0 digits)
  else UInt32.ofNat (decimalFrom 0 digits)

/-- `%u`: the number after white space. -/
def scanUnsigned (overflow : List UInt8 → UInt32) (text : List UInt8) : Option UInt32 :=
  let text := text.dropWhile isspace
  let digits := (text.drop (signOf text).length).takeWhile isdigit
  if digits = [] then none else some (convert overflow (signOf text) digits)

/-- `sscanf(text, "%47s %u", arg, &port)`: the number of conversions, `arg` and `port`. -/
def sscanf (overflow : List UInt8 → UInt32) (text : List UInt8) : ℤ × List UInt8 × UInt32 :=
  let (arg, text) := scanString 47 text
  if arg = [] then (-1, [], 0)
  else match scanUnsigned overflow (text.dropWhile isspace) with
    | none => (1, arg, 0)
    | some port => (2, arg, port)

/-! ## Parsing -/

/-- `net_terminal_result_t`. -/
inductive NetTerminalResult
  | ok
  | empty
  | unknown
  | invalid
  | blocked
  deriving DecidableEq

/-- `net_terminal_command_t`. -/
inductive NetTerminalCommand
  | help
  | status
  | wifiScan
  | networkScan
  | portCheck
  | clear
  deriving DecidableEq

/-- `net_terminal_request_t`. -/
structure NetTerminalRequest where
  command : NetTerminalCommand
  argument : List UInt8
  port : UInt16
  hasPort : Bool
  deriving DecidableEq

/-- The request as `memset` leaves it. -/
def NetTerminalRequest.zero : NetTerminalRequest := ⟨.help, [], 0, false⟩

/-- `trim`. -/
def trim (s : List UInt8) : List UInt8 :=
  ((s.dropWhile isspace).reverse.dropWhile isspace).reverse

/-- `blocked`. -/
def blockedWords : List (List UInt8) :=
  [ascii "attack", ascii "deauth", ascii "pmkid", ascii "credential", ascii "password",
    ascii "exploit", ascii "bruteforce", ascii "brute-force", ascii "handshake"]

/-- `blocked_command`. -/
def blockedCommand (line : List UInt8) : Bool := blockedWords.any fun word => word <:+: line

/-- `network_terminal_parse`. -/
def networkTerminalParse (overflow : List UInt8 → UInt32) (line : List UInt8) :
    NetTerminalResult × NetTerminalRequest :=
  let request := NetTerminalRequest.zero
  let buf := trim ((cString line).take 95)
  if buf = [] then (.empty, request)
  else if blockedCommand buf then (.blocked, request)
  else if buf = ascii "help" then (.ok, { request with command := .help })
  else if buf = ascii "status" then (.ok, { request with command := .status })
  else if buf = ascii "wifi scan" then (.ok, { request with command := .wifiScan })
  else if strncmpEq buf (ascii "network scan ") 13 then
    if 48 ≤ (buf.drop 13).length then (.invalid, request)
    else (.ok, { request with command := .networkScan, argument := (buf.drop 13).take 47 })
  else if strncmpEq buf (ascii "port check ") 11 then
    let (count, arg, port) := sscanf overflow (buf.drop 11)
    if count ≠ 2 ∨ 65535 < port ∨ port = 0 then (.invalid, request)
    else (.ok, {
      command := .portCheck
      argument := arg.take 47
      port := port.toUInt16
      hasPort := true })
  else if buf = ascii "clear" then (.ok, { request with command := .clear })
  else (.unknown, request)

/-! ## What is scanned -/

/-- White space, a host, white space, a sign, digits, and what is left, which is not a digit. The
    host is as long as it can be: 47 characters, or up to white space. -/
structure Scans (blanks host gap sign digits rest : List UInt8) : Prop where
  blanks_space : ∀ c ∈ blanks, isspace c = true
  host_nonspace : ∀ c ∈ host, isspace c = false
  host_ne : host ≠ []
  host_le : host.length ≤ 47
  gap_space : ∀ c ∈ gap, isspace c = true
  full : gap = [] → host.length = 47
  sign_eq : sign = [] ∨ sign = [0x2B] ∨ sign = [0x2D]
  digits_digit : ∀ c ∈ digits, isdigit c = true
  digits_ne : digits ≠ []
  rest_head : ∀ c ∈ rest.head?, isdigit c = false

variable {overflow : List UInt8 → UInt32} {text blanks host gap sign digits rest : List UInt8}

theorem isspace_of_isdigit {c : UInt8} (h : isdigit c = true) : isspace c = false := by
  simp only [isdigit, isspace, Bool.and_eq_true, decide_eq_true_eq, Bool.or_eq_false_iff,
    decide_eq_false_iff_not, Bool.and_eq_false_iff, UInt8.le_iff_toNat_le] at h ⊢
  have hlo : 48 ≤ c.toNat := h.1
  refine ⟨?_, .inr ?_⟩
  · intro hc
    rw [hc] at hlo
    exact absurd hlo (by decide)
  · intro hle
    have hle' : c.toNat ≤ 13 := hle
    omega

theorem dropWhile_of_head? {p : UInt8 → Bool} (h : ∀ c ∈ text.head?, p c = false) :
    text.dropWhile p = text := by
  cases text with
  | nil => rfl
  | cons c text => exact List.dropWhile_cons_of_neg (by simp [h c rfl])

theorem takeWhile_of_head? {p : UInt8 → Bool} (h : ∀ c ∈ text.head?, p c = false) :
    text.takeWhile p = [] := by
  cases text with
  | nil => rfl
  | cons c text => exact List.takeWhile_cons_of_neg (by simp [h c rfl])

namespace Scans

/-- A number does not begin with white space. -/
theorem head?_number (h : Scans blanks host gap sign digits rest) :
    ∀ c ∈ (sign ++ (digits ++ rest)).head?, isspace c = false := by
  obtain ⟨d, digits, rfl⟩ := List.exists_cons_of_ne_nil h.digits_ne
  rcases h.sign_eq with rfl | rfl | rfl
  · intro c hc
    obtain rfl : d = c := by simpa using hc
    exact isspace_of_isdigit (h.digits_digit d (by simp))
  · intro c hc
    obtain rfl : 0x2B = c := by simpa using hc
    decide
  · intro c hc
    obtain rfl : 0x2D = c := by simpa using hc
    decide

/-- The host is found, and the number after it. -/
theorem scanString_eq (h : Scans blanks host gap sign digits rest) :
    scanString 47 (blanks ++ (host ++ (gap ++ (sign ++ (digits ++ rest))))) =
      (host, gap ++ (sign ++ (digits ++ rest))) := by
  have hhost : ∀ c ∈ (host ++ (gap ++ (sign ++ (digits ++ rest)))).head?, isspace c = false := by
    obtain ⟨a, host, rfl⟩ := List.exists_cons_of_ne_nil h.host_ne
    intro c hc
    obtain rfl : a = c := by simpa using hc
    exact h.host_nonspace a (by simp)
  have hword : ((host ++ (gap ++ (sign ++ (digits ++ rest)))).takeWhile (!isspace ·)).take 47 =
      host := by
    rw [List.takeWhile_append_of_pos (by simpa using h.host_nonspace)]
    rcases gap with _ | ⟨g, gap⟩
    · exact List.take_left' (h.full rfl)
    · have hg := h.gap_space g (by simp)
      rw [List.cons_append, List.takeWhile_cons_of_neg (by simp [hg]), List.append_nil]
      exact List.take_of_length_le h.host_le
  rw [scanString, List.dropWhile_append_of_pos h.blanks_space, dropWhile_of_head? hhost]
  simp only [hword, List.drop_left]

theorem signOf_eq (h : Scans blanks host gap sign digits rest) :
    signOf (sign ++ (digits ++ rest)) = sign := by
  obtain ⟨d, digits, rfl⟩ := List.exists_cons_of_ne_nil h.digits_ne
  rcases h.sign_eq with rfl | rfl | rfl
  · have hd := h.digits_digit d (by simp)
    rw [List.nil_append, List.cons_append, signOf.eq_def]
    split
    · next heq =>
      rw [(List.cons.inj heq).1] at hd
      exact absurd hd (by decide)
    · next heq =>
      rw [(List.cons.inj heq).1] at hd
      exact absurd hd (by decide)
    · rfl
  · rfl
  · rfl

theorem takeWhile_gap (h : Scans blanks host gap sign digits rest) :
    (gap ++ (sign ++ (digits ++ rest))).takeWhile isspace = gap := by
  rw [List.takeWhile_append_of_pos h.gap_space, takeWhile_of_head? h.head?_number, List.append_nil]

theorem takeWhile_digits (h : Scans blanks host gap sign digits rest) :
    (digits ++ rest).takeWhile isdigit = digits := by
  rw [List.takeWhile_append_of_pos h.digits_digit, takeWhile_of_head? h.rest_head,
    List.append_nil]

theorem scanUnsigned_eq (h : Scans blanks host gap sign digits rest)
    (overflow : List UInt8 → UInt32) : scanUnsigned overflow (sign ++ (digits ++ rest)) =
      some (convert overflow sign digits) := by
  rw [scanUnsigned, dropWhile_of_head? h.head?_number, h.signOf_eq]
  simp only [List.drop_left, h.takeWhile_digits, h.digits_ne, if_false]

/-- What is scanned is converted. -/
theorem sscanf_eq (h : Scans blanks host gap sign digits rest) (overflow : List UInt8 → UInt32) :
    sscanf overflow (blanks ++ (host ++ (gap ++ (sign ++ (digits ++ rest))))) =
      (2, host, convert overflow sign digits) := by
  rw [sscanf, h.scanString_eq]
  simp only [h.host_ne, if_false]
  rw [List.dropWhile_append_of_pos h.gap_space, dropWhile_of_head? h.head?_number,
    h.scanUnsigned_eq]

end Scans

theorem head?_dropWhile {p : UInt8 → Bool} (text : List UInt8) :
    ∀ c ∈ (text.dropWhile p).head?, p c = false := by
  intro c hc
  have hnot := List.head?_dropWhile_not p text
  rw [Option.mem_def.1 hc] at hnot
  simpa using hnot

theorem signOf_append (text : List UInt8) :
    signOf text ++ text.drop (signOf text).length = text := by
  rw [signOf.eq_def]
  split
  · rfl
  · rfl
  · rfl

theorem signOf_cases (text : List UInt8) :
    signOf text = [] ∨ signOf text = [0x2B] ∨ signOf text = [0x2D] := by
  rw [signOf.eq_def]
  split
  · exact .inr (.inl rfl)
  · exact .inr (.inr rfl)
  · exact .inl rfl

theorem mem_of_mem_takeWhile {p : UInt8 → Bool} {c : UInt8} (h : c ∈ text.takeWhile p) :
    p c = true :=
  List.all_eq_true.1 (List.all_takeWhile) c h

/-- A number is a sign and digits, up to what is not a digit. -/
theorem scanUnsigned_eq_some {number : List UInt8} {port : UInt32}
    (hhead : ∀ c ∈ number.head?, isspace c = false)
    (h : scanUnsigned overflow number = some port) : ∃ digits rest,
      number = signOf number ++ (digits ++ rest) ∧ (∀ c ∈ digits, isdigit c = true) ∧
        digits ≠ [] ∧ (∀ c ∈ rest.head?, isdigit c = false) ∧
        port = convert overflow (signOf number) digits := by
  rw [scanUnsigned, dropWhile_of_head? hhead] at h
  simp only [Option.ite_none_left_eq_some, Option.some.injEq] at h
  obtain ⟨hne, rfl⟩ := h
  refine ⟨_, (number.drop (signOf number).length).dropWhile isdigit, ?_,
    fun c hc => mem_of_mem_takeWhile hc, hne, head?_dropWhile _, rfl⟩
  rw [List.takeWhile_append_dropWhile, signOf_append]

/-- White space comes after a host that is not as long as can be, if anything does. -/
theorem takeWhile_isspace_ne_nil (body : List UInt8)
    (hlt : ((body.takeWhile (!isspace ·)).take 47).length ≠ 47)
    (hne : body.drop ((body.takeWhile (!isspace ·)).take 47).length ≠ []) :
    (body.drop ((body.takeWhile (!isspace ·)).take 47).length).takeWhile isspace ≠ [] := by
  have hword : (body.takeWhile (!isspace ·)).take 47 = body.takeWhile (!isspace ·) := by
    refine List.take_of_length_le ?_
    rw [List.length_take] at hlt
    omega
  have hdrop : body.drop (body.takeWhile (!isspace ·)).length = body.dropWhile (!isspace ·) := by
    have hdrop : (body.takeWhile (!isspace ·) ++ body.dropWhile (!isspace ·)).drop
        (body.takeWhile (!isspace ·)).length = body.dropWhile (!isspace ·) := List.drop_left
    rwa [List.takeWhile_append_dropWhile] at hdrop
  rw [hword, hdrop] at hne ⊢
  obtain ⟨c, after, hafter⟩ := List.exists_cons_of_ne_nil hne
  have hc := head?_dropWhile (p := (!isspace ·)) body c (by rw [hafter]; rfl)
  rw [hafter, List.takeWhile_cons_of_pos (by simpa using hc)]
  exact List.cons_ne_nil _ _

/-- Two conversions are made only of what has this form. -/
theorem exists_scans {port : UInt32} (h : sscanf overflow text = (2, host, port)) :
    ∃ blanks gap sign digits rest, Scans blanks host gap sign digits rest ∧
      text = blanks ++ (host ++ (gap ++ (sign ++ (digits ++ rest)))) ∧
      port = convert overflow sign digits := by
  have hscan : scanString 47 text = (((text.dropWhile isspace).takeWhile (!isspace ·)).take 47,
      (text.dropWhile isspace).drop
        (((text.dropWhile isspace).takeWhile (!isspace ·)).take 47).length) := rfl
  rw [sscanf, hscan] at h
  have hpre : ((text.dropWhile isspace).takeWhile (!isspace ·)).take 47 <+:
      text.dropWhile isspace := (List.take_prefix _ _).trans (List.takeWhile_prefix _)
  have hfull := takeWhile_isspace_ne_nil (text.dropWhile isspace)
  have hnonspace : ∀ c ∈ ((text.dropWhile isspace).takeWhile (!isspace ·)).take 47,
      isspace c = false := by
    intro c hc
    simpa using mem_of_mem_takeWhile (List.mem_of_mem_take hc)
  have hle : (((text.dropWhile isspace).takeWhile (!isspace ·)).take 47).length ≤ 47 :=
    List.length_take_le _ _
  generalize ((text.dropWhile isspace).takeWhile (!isspace ·)).take 47 = arg at *
  simp only at h
  split_ifs at h with harg
  · simp at h
  split at h
  · simp at h
  · next value hvalue =>
    obtain ⟨rfl, rfl⟩ : arg = host ∧ value = port := by simpa using h
    have hhead := head?_dropWhile (p := isspace) ((text.dropWhile isspace).drop arg.length)
    obtain ⟨digits, rest, hnumber, hdigits, hne, hrest, rfl⟩ := scanUnsigned_eq_some hhead hvalue
    refine ⟨text.takeWhile isspace, ((text.dropWhile isspace).drop arg.length).takeWhile isspace,
      _, digits, rest, ⟨fun c hc => mem_of_mem_takeWhile hc, hnonspace, harg, hle,
        fun c hc => mem_of_mem_takeWhile hc, fun hgap => ?_, signOf_cases _, hdigits, hne, hrest⟩,
      ?_, rfl⟩
    · by_contra hlt
      refine hfull hlt (fun hnil => hne ?_) hgap
      rw [hnil] at hnumber
      have hnil' := hnumber.symm
      simp only [List.dropWhile_nil, List.append_eq_nil_iff] at hnil'
      exact hnil'.2.1
    · rw [← hnumber, List.takeWhile_append_dropWhile, List.prefix_iff_eq_append.1 hpre,
        List.takeWhile_append_dropWhile]

/-! ## The command -/

/-- The command as it is written: `port check `, optional white space, a host of at most 47
    characters, white space, and a decimal number from 1 to 65535 with nothing after it. -/
def PortCheck (line host : List UInt8) (port : ℕ) : Prop :=
  ∃ blanks gap digits, line = ascii "port check " ++ (blanks ++ (host ++ (gap ++ digits))) ∧
    (∀ c ∈ blanks, isspace c = true) ∧
    (host ≠ [] ∧ host.length ≤ 47 ∧ ∀ c ∈ host, isspace c = false) ∧
    (gap ≠ [] ∧ ∀ c ∈ gap, isspace c = true) ∧
    (digits ≠ [] ∧ ∀ c ∈ digits, isdigit c = true) ∧
    decimalFrom 0 digits = port ∧ 1 ≤ port ∧ port ≤ 65535

/-- What is also read as the command: there is no white space after a host of 47 characters, the
    number has a sign, something follows it, or it is only in range once it is converted. -/
def LoosePortCheck (overflow : List UInt8 → UInt32) (line : List UInt8) : Prop :=
  ∃ blanks host gap sign digits rest, Scans blanks host gap sign digits rest ∧
    line = ascii "port check " ++ (blanks ++ (host ++ (gap ++ (sign ++ (digits ++ rest))))) ∧
    (gap = [] ∨ sign ≠ [] ∨ rest ≠ [] ∨ 65535 < decimalFrom 0 digits) ∧
    1 ≤ (convert overflow sign digits).toNat ∧ (convert overflow sign digits).toNat ≤ 65535

/-- The parser accepts `port check` exactly as it is written, and gives the host and the port. -/
def Agrees (overflow : List UInt8 → UInt32) (line : List UInt8) : Prop :=
  ((networkTerminalParse overflow line).1 = .ok ∧
      (networkTerminalParse overflow line).2.command = .portCheck ↔
    ∃ host port, PortCheck (trim (cString line)) host port) ∧
  ∀ host port, PortCheck (trim (cString line)) host port →
    (networkTerminalParse overflow line).2.argument = host ∧
      (networkTerminalParse overflow line).2.port.toNat = port

variable {line : List UInt8}

theorem trim_isInfix (s : List UInt8) : trim s <:+: s := by
  have hpre : trim s <+: s.dropWhile isspace := by
    rw [trim, ← List.reverse_suffix, List.reverse_reverse]
    exact List.dropWhile_suffix _
  exact hpre.isInfix.trans (List.dropWhile_suffix _).isInfix

theorem blockedCommand_of_infix {s t : List UInt8} (h : s <:+: t)
    (ht : blockedCommand t = false) : blockedCommand s = false := by
  simp only [blockedCommand, List.any_eq_false, decide_eq_true_eq] at ht ⊢
  exact fun word hword hs => ht word hword (hs.trans h)

theorem strncmpEq_portCheck : strncmpEq text (ascii "port check ") 11 = true ↔
    ∃ after, text = ascii "port check " ++ after := by
  have hlit : cString ((ascii "port check ").take 11) = ascii "port check " := by decide
  rw [strncmpEq, hlit, beq_iff_eq]
  constructor
  · intro heq
    have hpre : ascii "port check " <+: text := by
      rw [← heq]
      exact (List.takeWhile_prefix _).trans (List.take_prefix _ _)
    obtain ⟨after, rfl⟩ := hpre
    exact ⟨after, rfl⟩
  · rintro ⟨after, rfl⟩
    rw [List.take_left' (by decide)]
    decide

theorem portCheck_append_ne {word : List UInt8} (h : word.take 11 ≠ ascii "port check ") :
    ascii "port check " ++ text ≠ word := by
  rintro rfl
  exact h (List.take_left' (by decide))

/-- A line that begins with `port check ` is read by `sscanf`. -/
theorem networkTerminalParse_of_command (hlen : (cString line).length ≤ 95)
    (hblocked : blockedCommand (cString line) = false)
    (htrim : trim (cString line) = ascii "port check " ++ text) :
    networkTerminalParse overflow line =
      if (sscanf overflow text).1 ≠ 2 ∨ 65535 < (sscanf overflow text).2.2 ∨
        (sscanf overflow text).2.2 = 0 then (.invalid, .zero)
      else (.ok, ⟨.portCheck, (sscanf overflow text).2.1.take 47,
        (sscanf overflow text).2.2.toUInt16, true⟩) := by
  have hbuf := blockedCommand_of_infix (trim_isInfix (cString line)) hblocked
  rw [htrim] at hbuf
  have hscan : strncmpEq (ascii "port check " ++ text) (ascii "network scan ") 13 = false := by
    rw [strncmpEq, beq_eq_false_iff_ne]
    intro heq
    -- The first letters differ.
    have hhead := congrArg List.head? heq
    simp [ascii, cString] at hhead
  rw [networkTerminalParse, List.take_of_length_le hlen, htrim]
  simp only
  rw [if_neg (portCheck_append_ne (by decide)), if_neg (by simp [hbuf]),
    if_neg (portCheck_append_ne (by decide)), if_neg (portCheck_append_ne (by decide)),
    if_neg (portCheck_append_ne (by decide)), if_neg (by simp [hscan]),
    if_pos (strncmpEq_portCheck.2 ⟨text, rfl⟩), List.drop_left' (by decide)]

/-- Another line is not read as a port check. -/
theorem not_portCheck_of_other
    (htrim : ∀ text, trim ((cString line).take 95) ≠ ascii "port check " ++ text) :
    ¬((networkTerminalParse overflow line).1 = .ok ∧
      (networkTerminalParse overflow line).2.command = .portCheck) := by
  have hpre : ¬strncmpEq (trim ((cString line).take 95)) (ascii "port check ") 11 = true := by
    rw [strncmpEq_portCheck]
    exact fun ⟨text, h⟩ => htrim text h
  rw [networkTerminalParse]
  simp only
  rw [if_neg hpre]
  split_ifs <;> simp [NetTerminalRequest.zero]

theorem decimalFrom_toNat {sign : List UInt8} (hsign : sign ≠ [0x2D])
    (hlt : decimalFrom 0 digits < 2 ^ 32) :
    (convert overflow sign digits).toNat = decimalFrom 0 digits := by
  rw [convert, if_neg (by omega), if_neg hsign, UInt32.toNat_ofNat', Nat.mod_eq_of_lt hlt]

/-- The parser accepts what `sscanf` reads with a port in range. -/
theorem parse_eq_of_scans (hlen : (cString line).length ≤ 95)
    (hblocked : blockedCommand (cString line) = false)
    (h : Scans blanks host gap sign digits rest)
    (htrim : trim (cString line) =
      ascii "port check " ++ (blanks ++ (host ++ (gap ++ (sign ++ (digits ++ rest))))))
    (hpos : 1 ≤ (convert overflow sign digits).toNat)
    (hle : (convert overflow sign digits).toNat ≤ 65535) :
    networkTerminalParse overflow line =
      (.ok, ⟨.portCheck, host, (convert overflow sign digits).toUInt16, true⟩) := by
  have hin : ¬((2 : ℤ) ≠ 2 ∨ 65535 < convert overflow sign digits ∨
      convert overflow sign digits = 0) := by
    rw [UInt32.lt_iff_toNat_lt, ← UInt32.toNat_inj, UInt32.toNat_zero]
    have h65535 : (65535 : UInt32).toNat = 65535 := rfl
    omega
  rw [networkTerminalParse_of_command hlen hblocked htrim, h.sscanf_eq]
  simp only
  rw [if_neg hin, List.take_of_length_le h.host_le]

/-- And nothing else. -/
theorem exists_scans_of_parse (hlen : (cString line).length ≤ 95)
    (hblocked : blockedCommand (cString line) = false)
    (h : (networkTerminalParse overflow line).1 = .ok ∧
      (networkTerminalParse overflow line).2.command = .portCheck) :
    ∃ blanks host gap sign digits rest, Scans blanks host gap sign digits rest ∧
      trim (cString line) =
        ascii "port check " ++ (blanks ++ (host ++ (gap ++ (sign ++ (digits ++ rest))))) ∧
      1 ≤ (convert overflow sign digits).toNat ∧ (convert overflow sign digits).toNat ≤ 65535 := by
  by_cases hpre : ∃ text, trim (cString line) = ascii "port check " ++ text
  swap
  · refine absurd h (not_portCheck_of_other fun text htrim => hpre ⟨text, ?_⟩)
    rwa [List.take_of_length_le hlen] at htrim
  obtain ⟨text, htrim⟩ := hpre
  rw [networkTerminalParse_of_command hlen hblocked htrim] at h
  rcases hscan : sscanf overflow text with ⟨count, host, port⟩
  rw [hscan] at h
  simp only at h
  split_ifs at h with hbad
  · exact absurd h.1 (by decide)
  push Not at hbad
  obtain ⟨rfl, hle, hpos⟩ := hbad
  obtain ⟨blanks, gap, sign, digits, rest, hscans, rfl, rfl⟩ := exists_scans hscan
  rw [UInt32.not_lt, UInt32.le_iff_toNat_le] at hle
  rw [ne_eq, ← UInt32.toNat_inj, UInt32.toNat_zero] at hpos
  exact ⟨blanks, host, gap, sign, digits, rest, hscans, htrim, Nat.pos_of_ne_zero hpos, hle⟩

/-- A command as it is written is scanned. -/
theorem PortCheck.scans {host : List UInt8} {port : ℕ} (h : PortCheck line host port)
    (overflow : List UInt8 → UInt32) :
    ∃ blanks gap digits, Scans blanks host gap [] digits [] ∧ gap ≠ [] ∧
      line = ascii "port check " ++ (blanks ++ (host ++ (gap ++ ([] ++ (digits ++ []))))) ∧
      (convert overflow [] digits).toNat = port ∧ decimalFrom 0 digits = port ∧ 1 ≤ port ∧
        port ≤ 65535 := by
  obtain ⟨blanks, gap, digits, rfl, hblanks, ⟨hne, hle, hhost⟩, ⟨hgap_ne, hgap⟩,
    ⟨hdigits_ne, hdigits⟩, rfl, hpos, hport⟩ := h
  refine ⟨blanks, gap, digits, ⟨hblanks, hhost, hne, hle, hgap, fun hnil => absurd hnil hgap_ne,
    .inl rfl, hdigits, hdigits_ne, by simp⟩, hgap_ne, by simp, ?_, rfl, hpos, hport⟩
  exact decimalFrom_toNat (by simp) (by omega)

/-- What is scanned is unique. -/
theorem Scans.unique {blanks' host' gap' sign' digits' rest' : List UInt8}
    (h : Scans blanks host gap sign digits rest)
    (h' : Scans blanks' host' gap' sign' digits' rest')
    (heq : blanks ++ (host ++ (gap ++ (sign ++ (digits ++ rest)))) =
      blanks' ++ (host' ++ (gap' ++ (sign' ++ (digits' ++ rest'))))) :
    host = host' ∧ gap = gap' ∧ sign = sign' ∧ digits = digits' ∧ rest = rest' := by
  have hscan := h.scanString_eq
  rw [heq, h'.scanString_eq] at hscan
  obtain ⟨rfl, hafter⟩ := Prod.mk.inj hscan
  have hgap := h.takeWhile_gap
  rw [← hafter, h'.takeWhile_gap] at hgap
  subst hgap
  have hnumber := List.append_cancel_left hafter
  have hsign := h.signOf_eq
  rw [← hnumber, h'.signOf_eq] at hsign
  subst hsign
  have hrest := List.append_cancel_left hnumber
  have hdigits := h.takeWhile_digits
  rw [← hrest, h'.takeWhile_digits] at hdigits
  subst hdigits
  exact ⟨rfl, rfl, rfl, rfl, (List.append_cancel_left hrest).symm⟩

/-- On a line without a blocked word, the parser accepts `port check` exactly as it is written,
    unless the line is one of those that are also read as it. -/
theorem agrees_iff (overflow : List UInt8 → UInt32) (hlen : (cString line).length ≤ 95)
    (hblocked : blockedCommand (cString line) = false) :
    Agrees overflow line ↔ ¬LoosePortCheck overflow (trim (cString line)) := by
  have hwritten {host : List UInt8} {port : ℕ} (h : PortCheck (trim (cString line)) host port) :
      (networkTerminalParse overflow line).1 = .ok ∧
        (networkTerminalParse overflow line).2.command = .portCheck ∧
        (networkTerminalParse overflow line).2.argument = host ∧
        (networkTerminalParse overflow line).2.port.toNat = port := by
    obtain ⟨blanks, gap, digits, hscans, -, htrim, hconvert, -, hpos, hport⟩ :=
      h.scans overflow
    rw [parse_eq_of_scans hlen hblocked hscans htrim (by omega) (by omega)]
    refine ⟨rfl, rfl, rfl, ?_⟩
    rw [UInt32.toNat_toUInt16, hconvert, Nat.mod_eq_of_lt (by omega)]
  constructor
  · rintro hagrees ⟨blanks, host, gap, sign, digits, rest, hscans, htrim, hloose, hpos, hle⟩
    have hparse := parse_eq_of_scans hlen hblocked hscans htrim hpos hle
    obtain ⟨host', port, hgrammar⟩ := hagrees.1.1 (by rw [hparse]; exact ⟨rfl, rfl⟩)
    -- It is not as it is written.
    obtain ⟨blanks', gap', digits', hscans', hgap, htrim', -, rfl, -, hport⟩ :=
      hgrammar.scans overflow
    obtain ⟨rfl, rfl, rfl, rfl, rfl⟩ :=
      hscans.unique hscans' (List.append_cancel_left (htrim.symm.trans htrim'))
    rcases hloose with hnil | hsign | hrest | hlt
    · exact hgap hnil
    · exact hsign rfl
    · exact hrest rfl
    · omega
  · intro hnot
    refine ⟨⟨?_, ?_⟩, ?_⟩
    · intro hok
      obtain ⟨blanks, host, gap, sign, digits, rest, hscans, htrim, hpos, hle⟩ :=
        exists_scans_of_parse hlen hblocked hok
      have hstrict : ¬(gap = [] ∨ sign ≠ [] ∨ rest ≠ [] ∨ 65535 < decimalFrom 0 digits) :=
        fun hloose => hnot ⟨blanks, host, gap, sign, digits, rest, hscans, htrim, hloose, hpos, hle⟩
      push Not at hstrict
      obtain ⟨hgap, rfl, rfl, hport⟩ := hstrict
      rw [decimalFrom_toNat (by simp) (by omega)] at hpos
      refine ⟨host, decimalFrom 0 digits, blanks, gap, digits, by simpa using htrim,
        hscans.blanks_space, ⟨hscans.host_ne, hscans.host_le, hscans.host_nonspace⟩,
        ⟨hgap, hscans.gap_space⟩, ⟨hscans.digits_ne, hscans.digits_digit⟩, rfl, hpos, hport⟩
    · rintro ⟨host, port, h⟩
      exact ⟨(hwritten h).1, (hwritten h).2.1⟩
    · intro host port h
      exact (hwritten h).2.2

/-- The pieces of a port check of a gateway. -/
theorem scans_gateway (rest : List UInt8) (hrest : ∀ c ∈ rest.head?, isdigit c = false) :
    Scans [] (ascii "gateway") [0x20] [] (ascii "80") rest where
  blanks_space := by simp
  host_nonspace := by decide +kernel
  host_ne := by decide +kernel
  host_le := by decide +kernel
  gap_space := by decide +kernel
  full := by simp
  sign_eq := .inl rfl
  digits_digit := by decide +kernel
  digits_ne := by decide +kernel
  rest_head := hrest

/-- As it is written, the command is accepted. -/
theorem agrees_gateway :
    Agrees (fun _ => 0xFFFFFFFF) (ascii "port check gateway 80") := by
  refine (agrees_iff (fun _ => 0xFFFFFFFF) (by decide +kernel) (by decide +kernel)).2 ?_
  rintro ⟨blanks, host, gap, sign, digits, rest, hscans, htrim, hloose, -, -⟩
  have htrim' : trim (cString (ascii "port check gateway 80")) = ascii "port check " ++
      ([] ++ (ascii "gateway" ++ ([0x20] ++ ([] ++ (ascii "80" ++ []))))) := by decide +kernel
  obtain ⟨rfl, rfl, rfl, rfl, rfl⟩ := hscans.unique (scans_gateway [] (by simp))
    (List.append_cancel_left (htrim.symm.trans htrim'))
  exact absurd hloose (by decide +kernel)

/-- A number with letters after it is read as a port. -/
theorem not_agrees : ¬Agrees (fun _ => 0xFFFFFFFF) (ascii "port check gateway 80abc") := by
  intro hagrees
  have htrim : trim (cString (ascii "port check gateway 80abc")) = ascii "port check " ++
      ([] ++ (ascii "gateway" ++ ([0x20] ++ ([] ++ (ascii "80" ++ ascii "abc"))))) := by
    decide +kernel
  have hconvert : convert (fun _ => 0xFFFFFFFF) [] (ascii "80") = 80 := by decide +kernel
  have hparse := parse_eq_of_scans (by decide +kernel) (by decide +kernel)
    (scans_gateway _ (by decide +kernel)) htrim (by rw [hconvert]; decide)
    (by rw [hconvert]; decide)
  obtain ⟨host, port, blanks, gap, digits, hline, -, -, -, ⟨hne, hdigits⟩, -⟩ :=
    hagrees.1.1 (by rw [hparse]; exact ⟨rfl, rfl⟩)
  -- The last character would be a digit.
  obtain ⟨before, d, rfl⟩ := (List.eq_nil_or_concat digits).resolve_left hne
  have hlast := congrArg List.getLast? (htrim.symm.trans hline)
  simp only [← List.append_assoc, List.concat_eq_append, List.getLast?_concat] at hlast
  have hletter : (ascii "port check " ++ [] ++ ascii "gateway" ++ [0x20] ++ [] ++ ascii "80" ++
      ascii "abc").getLast? = some 0x63 := by decide +kernel
  rw [hletter] at hlast
  obtain rfl := Option.some.inj hlast
  exact absurd (hdigits 0x63 (by simp)) (by decide)

end SliverOS
