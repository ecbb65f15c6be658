import Mathlib.Data.Nat.Bitwise
import ModbusMaster.Bits
import ModbusMaster.Crc

/-!
The check value as a linear map. Division by the generator polynomial is linear in exclusive or
and loses nothing (`shift_xor`, `shift_eq_zero_iff`), and a byte string is divided one bit after
the other in the order in which the bits travel (`foldl_feed_eq`).
-/

namespace ModbusMaster.Crc

/-! ### One division -/

theorem and_one_eq_one_iff (c : UInt16) : c &&& 1 = 1 ↔ c.toNat % 2 = 1 := by
  rw [← UInt16.toNat_inj, UInt16.toNat_and]
  exact Nat.and_one_is_mod c.toNat ▸ Iff.rfl

theorem toNat_shiftRight_one (c : UInt16) : (c >>> 1).toNat = c.toNat / 2 := by
  rw [UInt16.toNat_shiftRight]
  exact Nat.shiftRight_eq_div_pow c.toNat 1

/-- A division moves the remainder down, and brings in the polynomial if a bit falls out. -/
theorem shift_eq (c : UInt16) :
    shift c = (c >>> 1) ^^^ if c.toNat % 2 = 1 then polynomial else 0 := by
  unfold shift
  by_cases h : c.toNat % 2 = 1
  · rw [if_pos ((and_one_eq_one_iff c).mpr h), if_pos h]
  · rw [if_neg (fun hc => h ((and_one_eq_one_iff c).mp hc)), if_neg h, UInt16.xor_zero]

theorem shift_xor (a b : UInt16) : shift (a ^^^ b) = shift a ^^^ shift b := by
  have hlow : (a ^^^ b).toNat % 2 = 1 ↔ ¬(a.toNat % 2 = 1 ↔ b.toNat % 2 = 1) := by
    rw [UInt16.toNat_xor, Nat.xor_mod_two_eq_one]
  rw [shift_eq, shift_eq, shift_eq, UInt16.shiftRight_xor]
  simp only [hlow]
  by_cases ha : a.toNat % 2 = 1 <;> by_cases hb : b.toNat % 2 = 1
  · -- both operands bring in the polynomial, and the two cancel
    rw [if_neg (by simp [ha, hb]), if_pos ha, if_pos hb, UInt16.xor_zero, UInt16.xor_assoc,
      ← UInt16.xor_assoc polynomial, UInt16.xor_comm polynomial, UInt16.xor_assoc,
      UInt16.xor_self, UInt16.xor_zero]
  · rw [if_pos (by simp [ha, hb]), if_pos ha, if_neg hb, UInt16.xor_zero]
    ac_rfl
  · rw [if_pos (by simp [ha, hb]), if_neg ha, if_pos hb, UInt16.xor_zero]
    ac_rfl
  · rw [if_neg (by simp [ha, hb]), if_neg ha, if_neg hb, UInt16.xor_zero, UInt16.xor_zero,
      UInt16.xor_zero]

@[simp] theorem shift_zero : shift 0 = 0 := rfl

/-- The top bit of the polynomial is set, so a division that leaves nothing had nothing to
divide. -/
theorem shift_eq_zero_iff {c : UInt16} : shift c = 0 ↔ c = 0 := by
  constructor
  · intro h
    rw [shift_eq, UInt16.xor_eq_zero_iff] at h
    have hnat := congrArg UInt16.toNat h
    rw [toNat_shiftRight_one] at hnat
    have hc := c.toNat_lt
    apply UInt16.toNat_inj.mp
    change c.toNat = 0
    by_cases hodd : c.toNat % 2 = 1
    · rw [if_pos hodd] at hnat
      change c.toNat / 2 = 40961 at hnat
      omega
    · rw [if_neg hodd] at hnat
      change c.toNat / 2 = 0 at hnat
      omega
  · rintro rfl
    rfl

/-! ### One bit after the other -/

/-- The bits of a byte string in the order in which they travel: byte by byte, the least
significant bit of each byte first. -/
def wireBits (data : Bytes) : List Bool :=
  data.flatMap fun byte => (List.range 8).map byte.toNat.testBit

@[simp] theorem wireBits_nil : wireBits [] = [] := rfl

@[simp] theorem wireBits_cons (byte : UInt8) (data : Bytes) :
    wireBits (byte :: data) = (List.range 8).map byte.toNat.testBit ++ wireBits data := rfl

@[simp] theorem length_wireBits (data : Bytes) : (wireBits data).length = 8 * data.length := by
  induction data with
  | nil => rfl
  | cons byte data ih =>
    rw [wireBits_cons, List.length_append, ih, List.length_cons]
    simp
    omega

theorem wireBits_zipWith_xor (a b : Bytes) :
    wireBits (List.zipWith (· ^^^ ·) a b) = List.zipWith xor (wireBits a) (wireBits b) := by
  induction a generalizing b with
  | nil => simp
  | cons x a ih =>
    cases b with
    | nil => simp
    | cons y b =>
      rw [List.zipWith_cons_cons, wireBits_cons, wireBits_cons, wireBits_cons,
        List.zipWith_append (by simp), ih]
      congr 1
      simp [List.zipWith_map, List.zipWith_self, UInt8.toNat_xor, Nat.testBit_xor]

/-- Takes one more bit into the remainder. -/
def step (crc : UInt16) (bit : Bool) : UInt16 :=
  shift (crc ^^^ if bit then 1 else 0)

theorem step_xor (a b : UInt16) (p q : Bool) :
    step (a ^^^ b) (p ^^ q) = step a p ^^^ step b q := by
  unfold step
  rw [← shift_xor]
  congr 1
  cases p <;> cases q
  · simp
  · simp [UInt16.xor_assoc]
  · simp only [Bool.xor_false, if_true, Bool.false_eq_true, if_false, UInt16.xor_zero]
    ac_rfl
  · -- the two bits cancel
    have h : a ^^^ 1 ^^^ (b ^^^ 1) = a ^^^ b := by
      rw [UInt16.xor_assoc, UInt16.xor_comm b, ← UInt16.xor_assoc 1, UInt16.xor_self,
        UInt16.zero_xor]
    simpa using h.symm

/-- Bit strings of one length are divided apart from each other. -/
theorem foldl_step_zipWith (a b : UInt16) (u v : List Bool) (h : u.length = v.length) :
    (List.zipWith xor u v).foldl step (a ^^^ b) = u.foldl step a ^^^ v.foldl step b := by
  induction u generalizing a b v with
  | nil =>
    rw [List.length_nil] at h
    rw [List.length_eq_zero_iff.mp h.symm]
    rfl
  | cons p u ih =>
    cases v with
    | nil => simp at h
    | cons q v =>
      rw [List.zipWith_cons_cons, List.foldl_cons, List.foldl_cons, List.foldl_cons, step_xor]
      exact ih _ _ v (by simpa using h)

/-- Of a word that is taken into the remainder, a division uses up the lowest bit. -/
theorem shift_xor_word (crc w : UInt16) :
    shift (crc ^^^ w) = step crc (w.toNat.testBit 0) ^^^ (w >>> 1) := by
  rw [step, shift_xor, shift_xor, UInt16.xor_assoc]
  congr 1
  rw [shift_eq w, Nat.testBit_zero]
  by_cases h : w.toNat % 2 = 1
  · rw [if_pos h, if_pos (by simpa using h), UInt16.xor_comm]
    rfl
  · rw [if_neg h, if_neg (by simpa using h), UInt16.xor_zero]
    simp

theorem toNat_ofNat_div (w : UInt16) (d : Nat) :
    (UInt16.ofNat (w.toNat / d)).toNat = w.toNat / d := by
  apply UInt16.toNat_ofNat_of_lt'
  exact Nat.lt_of_le_of_lt (Nat.div_le_self _ _) w.toNat_lt

/-- A word that is taken in at once is divided like its bits one after the other; the bits from
`n` on are left over. -/
theorem repeat_shift_xor (n : Nat) (crc w : UInt16) :
    Nat.repeat shift n (crc ^^^ w) =
      ((List.range n).map w.toNat.testBit).foldl step crc ^^^ UInt16.ofNat (w.toNat / 2 ^ n) := by
  induction n with
  | zero => simp [Nat.repeat]
  | succ n ih =>
    -- after `n` divisions the bit with index `n` is the lowest one of what is left over
    have hbit : (UInt16.ofNat (w.toNat / 2 ^ n)).toNat.testBit 0 = w.toNat.testBit n := by
      rw [toNat_ofNat_div, Nat.testBit_div_two_pow, Nat.zero_add]
    have hrest : UInt16.ofNat (w.toNat / 2 ^ n) >>> 1 = UInt16.ofNat (w.toNat / 2 ^ (n + 1)) := by
      apply UInt16.toNat_inj.mp
      rw [toNat_shiftRight_one, toNat_ofNat_div, toNat_ofNat_div, Nat.div_div_eq_div_mul,
        Nat.pow_succ]
    rw [Nat.repeat, ih, shift_xor_word, hbit, hrest, List.range_succ, List.map_append,
      List.foldl_append]
    rfl

/-- The remainder of a byte string is that of its bits, taken in the order in which they
travel. -/
theorem foldl_feed_eq (crc : UInt16) (data : Bytes) :
    data.foldl feed crc = (wireBits data).foldl step crc := by
  induction data generalizing crc with
  | nil => rfl
  | cons byte data ih =>
    -- eight divisions leave nothing of a byte over
    have hbyte : byte.toUInt16.toNat / 2 ^ 8 = 0 := Nat.div_eq_of_lt byte.toNat_lt
    have hfeed : feed crc byte = ((List.range 8).map byte.toNat.testBit).foldl step crc := by
      rw [feed, repeat_shift_xor, hbyte, UInt8.toNat_toUInt16]
      exact UInt16.xor_zero
    rw [List.foldl_cons, ih, hfeed, wireBits_cons, List.foldl_append]

end ModbusMaster.Crc
