import Mathlib

/-!
# Bytes in hexadecimal

A byte is written with two digits (`encode`), in lower case. Digits are read back
in either case (`decode`), and what is read from a text is what the text is
written for, its case apart (`decode_eq_some_iff`).
-/

namespace Hex

/-- The two digits of a byte. -/
def encodeByte (b : UInt8) : List Char :=
  [Nat.digitChar (b.toNat / 16), Nat.digitChar (b.toNat % 16)]

/-- The digits of some bytes. -/
def encode (bs : List UInt8) : List Char := bs.flatMap encodeByte

/-- The number of a digit, in either case. -/
def value (c : Char) : Option ℕ := (List.range 16).find? fun n => Nat.digitChar n == c.toLower

/-- The bytes of some digits, two for each byte. -/
def decode : List Char → Option (List UInt8)
  | [] => some []
  | [_] => none
  | c :: d :: cs => do
    let high ← value c
    let low ← value d
    let bs ← decode cs
    return UInt8.ofNat (16 * high + low) :: bs

variable {c d : Char} {n m : ℕ} {cs : List Char} {b : UInt8} {bs : List UInt8}

/-- Different numbers have different digits. -/
theorem digitChar_inj : n < 16 → m < 16 → Nat.digitChar n = Nat.digitChar m → n = m := by
  have hall : ∀ n < 16, ∀ m < 16, Nat.digitChar n = Nat.digitChar m → n = m := by decide
  exact fun hn hm => hall n hn m hm

/-- Digits are in lower case. -/
theorem toLower_digitChar : n < 16 → (Nat.digitChar n).toLower = Nat.digitChar n := by
  have hall : ∀ n < 16, (Nat.digitChar n).toLower = Nat.digitChar n := by decide
  exact hall n

theorem map_toLower_encode (bs : List UInt8) : (encode bs).map Char.toLower = encode bs := by
  rw [encode, List.map_flatMap]
  refine List.flatMap_congr fun b _ => ?_
  have hb := b.toNat_lt
  simp only [encodeByte, List.map_cons, List.map_nil]
  rw [toLower_digitChar (by omega), toLower_digitChar (by omega)]

theorem value_eq_some_iff : value c = some n ↔ n < 16 ∧ c.toLower = Nat.digitChar n := by
  rw [value]
  constructor
  · intro h
    have hmem := List.mem_of_find?_eq_some h
    have hdigit := List.find?_some h
    exact ⟨List.mem_range.1 hmem, (beq_iff_eq.1 hdigit).symm⟩
  · rintro ⟨hn, hdigit⟩
    -- Some number is found, and there is no other one with this digit.
    have hsome : ((List.range 16).find? fun n => Nat.digitChar n == c.toLower).isSome :=
      List.find?_isSome.2 ⟨n, List.mem_range.2 hn, beq_iff_eq.2 hdigit.symm⟩
    obtain ⟨m, hm⟩ := Option.isSome_iff_exists.1 hsome
    have hmem := List.mem_range.1 (List.mem_of_find?_eq_some hm)
    have hfound : (Nat.digitChar m == c.toLower) = true := List.find?_some (p := fun n =>
      Nat.digitChar n == c.toLower) hm
    rw [hm, digitChar_inj hmem hn ((beq_iff_eq.1 hfound).trans hdigit)]

/-- Two digits are those of one byte. -/
theorem cons_cons_eq_encodeByte : [c.toLower, d.toLower] = encodeByte b ↔
    ∃ high low, value c = some high ∧ value d = some low ∧ UInt8.ofNat (16 * high + low) = b := by
  have hb := b.toNat_lt
  simp only [value_eq_some_iff, encodeByte, List.cons.injEq, and_true]
  constructor
  · rintro ⟨hc, hd⟩
    refine ⟨_, _, ⟨by omega, hc⟩, ⟨by omega, hd⟩, ?_⟩
    rw [Nat.div_add_mod, UInt8.ofNat_toNat]
  · rintro ⟨high, low, ⟨hhigh, hc⟩, ⟨hlow, hd⟩, rfl⟩
    rw [UInt8.toNat_ofNat_of_lt' (show 16 * high + low < 2 ^ 8 by omega), hc, hd]
    constructor
    · congr 1
      omega
    · congr 1
      omega

/-- What is read from a text is what the text is written for, its case apart. -/
theorem decode_eq_some_iff : decode cs = some bs ↔ cs.map Char.toLower = encode bs := by
  induction cs using decode.induct generalizing bs with
  | case1 =>
    rw [decode, encode]
    cases bs with
    | nil => exact iff_of_true rfl rfl
    | cons b bs => exact iff_of_false (by simp) (by simp [encodeByte])
  | case2 c =>
    rw [decode, encode]
    cases bs with
    | nil => exact iff_of_false (by simp) (by simp)
    | cons b bs => exact iff_of_false (by simp) (by simp [encodeByte])
  | case3 c d cs ih =>
    cases bs with
    | nil =>
      refine iff_of_false ?_ (by simp [encode])
      simp [decode, Option.bind_eq_some_iff]
    | cons b bs =>
      -- Two digits are one byte.
      have hpair : (c :: d :: cs).map Char.toLower = encode (b :: bs) ↔
          [c.toLower, d.toLower] = encodeByte b ∧ cs.map Char.toLower = encode bs := by
        simp [encode, encodeByte, and_assoc]
      rw [hpair, ← ih, cons_cons_eq_encodeByte]
      simp only [decode, Option.bind_eq_bind, Option.bind_eq_some_iff, Option.pure_def,
        Option.some.injEq, List.cons.injEq]
      constructor
      · rintro ⟨high, hhigh, low, hlow, bs', hbs, hb, rfl⟩
        exact ⟨⟨high, low, hhigh, hlow, hb⟩, hbs⟩
      · rintro ⟨⟨high, low, hhigh, hlow, hb⟩, hbs⟩
        exact ⟨high, hhigh, low, hlow, bs, hbs, hb, rfl⟩

end Hex
