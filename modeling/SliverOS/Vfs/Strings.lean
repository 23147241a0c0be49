import SliverOS.Vfs.Vfs

/-!
# Names as strings

What `strncpy` leaves of a name of up to 31 bytes, and what `strncmp` compares of two
of them. A copy over a name that ends with a zero byte is the string, cut to 31 bytes
(`cString_strncpy`).
-/

namespace SliverOS

variable {bs name src : List UInt8} {dst : Vector UInt8 32}

/-! ## Strings -/

theorem cString_take (bs : List UInt8) (n : ℕ) : cString (bs.take n) = (cString bs).take n :=
  List.take_takeWhile.symm

theorem ne_zero_of_mem_cString {b : UInt8} (h : b ∈ cString bs) : b ≠ 0 := by
  simpa using List.mem_takeWhile_imp h

/-- A string ends at the first zero byte. -/
theorem cString_append_zeros (h : ∀ b ∈ bs, b ≠ 0) (n : ℕ) :
    cString (bs ++ List.replicate n 0) = bs := by
  rw [cString, List.takeWhile_append_of_pos (by simpa using h), List.takeWhile_replicate]
  simp

/-- A string ends before a zero byte. -/
theorem length_cString_le {k : ℕ} (hk : k < bs.length) (h : bs[k] = 0) :
    (cString bs).length ≤ k := by
  by_contra hlong
  have hlt : k < (cString bs).length := Nat.lt_of_not_le hlong
  have hbyte : (cString bs)[k] = bs[k] := (List.takeWhile_prefix _).getElem hlt
  exact ne_zero_of_mem_cString (List.getElem_mem hlt) (hbyte.trans h)

/-- A list that is short after it is cut was not cut. -/
theorem eq_of_take_eq {l m : List UInt8} {n : ℕ} (h : l.take n = m) (hm : m.length < n) :
    l = m := by
  have hlen := congrArg List.length h
  rw [List.length_take] at hlen
  rw [← h, List.take_of_length_le (by omega)]

/-! ## Copies -/

/-- The first 31 bytes of a copy: those of the string, and zeros after it. -/
theorem take_strncpy (dst : Vector UInt8 32) (src : List UInt8) :
    (strncpy dst src 31).toList.take 31 =
      (cString src).take 31 ++ List.replicate (31 - (cString src).length) 0 := by
  refine List.ext_getElem (by simp; omega) fun k hk _ => ?_
  have hk31 : k < 31 := by simpa using hk
  simp only [strncpy, List.getElem_take, Vector.getElem_toList, Vector.getElem_ofFn, hk31, if_true,
    List.getElem_append, List.getElem_replicate, List.length_take, lt_min_iff, true_and]
  split_ifs with hlen
  · exact List.getD_eq_getElem _ _ hlen
  · exact List.getD_eq_default _ _ (Nat.not_lt.1 hlen)

/-- The last byte is left as it was. -/
theorem drop_strncpy (dst : Vector UInt8 32) (src : List UInt8) :
    (strncpy dst src 31).toList.drop 31 = [dst.get 31] := by
  refine List.ext_getElem (by simp) fun k hk _ => ?_
  have hk0 : k = 0 := by simpa using hk
  subst hk0
  simp [strncpy, Vector.get_eq_getElem]

/-- The bytes that are copied are not zero. -/
theorem ne_zero_of_mem_take_cString {b : UInt8} {n : ℕ} (h : b ∈ (cString bs).take n) : b ≠ 0 :=
  ne_zero_of_mem_cString (List.mem_of_mem_take h)

/-- The first 31 bytes of a copy are those of the string. -/
theorem take_cString_strncpy (dst : Vector UInt8 32) (src : List UInt8) :
    (cString (strncpy dst src 31).toList).take 31 = (cString src).take 31 := by
  rw [← cString_take, take_strncpy]
  exact cString_append_zeros (fun _ => ne_zero_of_mem_take_cString) _

/-- Over a name that ends with a zero byte, the copy is the string cut to 31 bytes. -/
theorem cString_strncpy (hdst : dst.get 31 = 0) (src : List UInt8) :
    cString (strncpy dst src 31).toList = (cString src).take 31 := by
  rw [← List.take_append_drop 31 (strncpy dst src 31).toList, take_strncpy, drop_strncpy, hdst,
    List.append_assoc]
  have hzeros : List.replicate (31 - (cString src).length) 0 ++ [(0 : UInt8)] =
      List.replicate (31 - (cString src).length + 1) 0 := List.replicate_succ'.symm
  rw [hzeros]
  exact cString_append_zeros (fun _ => ne_zero_of_mem_take_cString) _

/-! ## Comparisons -/

/-- The name that a file has is one of those looked for, if they are short. -/
theorem cString_eq_of_strncmpEq {stored a b : List UInt8} (ha : (cString a).length ≤ 30)
    (hsa : strncmpEq stored a maxFilenameLen = true)
    (hsb : strncmpEq stored b maxFilenameLen = true) : cString b = cString a := by
  simp only [strncmpEq, beq_iff_eq, cString_take, maxFilenameLen] at hsa hsb
  rw [List.take_of_length_le (i := 32) (show (cString a).length ≤ 32 by omega)] at hsa
  exact eq_of_take_eq (hsb.symm.trans hsa) (by omega)

/-- A new file has a short name only if it was given. -/
theorem cString_eq_of_strncpy (hname : (cString name).length ≤ 30)
    (h : strncmpEq (strncpy dst src 31).toList name maxFilenameLen = true) :
    cString src = cString name := by
  simp only [strncmpEq, beq_iff_eq, cString_take, maxFilenameLen] at h
  rw [List.take_of_length_le (i := 32) (show (cString name).length ≤ 32 by omega)] at h
  have hstored := eq_of_take_eq h (by omega)
  have hcopied := take_cString_strncpy dst src
  rw [hstored, List.take_of_length_le (show (cString name).length ≤ 31 by omega)] at hcopied
  exact eq_of_take_eq hcopied.symm (by omega)

end SliverOS
