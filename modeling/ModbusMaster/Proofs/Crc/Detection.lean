import ModbusMaster.Proofs.Bits.Packing
import ModbusMaster.Proofs.Crc.Linearity

/-!
Which error patterns leave a remainder. A pattern is the bits of a frame that were flipped, in the
order in which they travel. An odd number of flipped bits is found because the polynomial divides
by `x + 1` (`oddOnes_shift`), two of them because `x` has a long order (`repeat_shift_one_ne_one`),
and sixteen bits in a row because no division loses anything (`remainder_ne_zero_of_burst`).
-/

namespace ModbusMaster.Crc

/-- What a pattern of flipped bits adds to the remainder. -/
def remainder (pattern : List Bool) : UInt16 :=
  pattern.foldl step 0

/-! ### Bits that were not flipped -/

theorem repeat_shift_zero (n : Nat) : Nat.repeat shift n 0 = 0 := by
  induction n with
  | zero => rfl
  | succ n ih => rw [Nat.repeat, ih, shift_zero]

theorem repeat_shift_eq_zero_iff {n : Nat} {c : UInt16} : Nat.repeat shift n c = 0 ↔ c = 0 := by
  induction n with
  | zero => rfl
  | succ n ih => rw [Nat.repeat, shift_eq_zero_iff, ih]

theorem repeat_shift_succ (n : Nat) (c : UInt16) :
    Nat.repeat shift (n + 1) c = Nat.repeat shift n (shift c) := by
  induction n with
  | zero => rfl
  | succ n ih =>
    rw [Nat.repeat, ih]
    rfl

/-- Bits that were not flipped only divide what is there. -/
theorem foldl_step_replicate_false (n : Nat) (c : UInt16) :
    (List.replicate n false).foldl step c = Nat.repeat shift n c := by
  induction n generalizing c with
  | zero => rfl
  | succ n ih =>
    have h : step c false = shift c := by simp [step]
    rw [List.replicate_succ, List.foldl_cons, ih, h, repeat_shift_succ]

theorem eq_replicate_false {bits : List Bool} (h : bits.count true = 0) :
    bits = List.replicate bits.length false := by
  apply List.eq_replicate_iff.mpr
  refine ⟨rfl, fun b hb => ?_⟩
  cases b with
  | false => rfl
  | true => exact absurd hb (List.count_eq_zero.mp h)

/-- The first flipped bit of a pattern, with the bits before and after it. -/
theorem exists_first_flip {bits : List Bool} {n : Nat} (h : bits.count true = n + 1) :
    ∃ before rest, bits = List.replicate before false ++ true :: rest ∧ rest.count true = n := by
  induction bits with
  | nil => simp at h
  | cons b bits ih =>
    cases b with
    | true =>
      refine ⟨0, bits, rfl, ?_⟩
      simpa using h
    | false =>
      obtain ⟨before, rest, hbits, hrest⟩ := ih (by simpa using h)
      exact ⟨before + 1, rest, by rw [hbits, List.replicate_succ, List.cons_append], hrest⟩

/-! ### An odd number of flipped bits -/

/-- Whether `f` holds for an odd number of the indices below `n`. -/
def oddCount : Nat → (Nat → Bool) → Bool
  | 0, _ => false
  | n + 1, f => oddCount n f ^^ f n

theorem oddCount_xor (n : Nat) (f g : Nat → Bool) :
    oddCount n (fun i => f i ^^ g i) = (oddCount n f ^^ oddCount n g) := by
  induction n with
  | zero => rfl
  | succ n ih =>
    rw [oddCount, ih, oddCount, oddCount, Bool.xor_assoc, Bool.xor_assoc,
      Bool.xor_left_comm (oddCount n g)]

theorem oddCount_and (n : Nat) (b : Bool) (f : Nat → Bool) :
    oddCount n (fun i => b && f i) = (b && oddCount n f) := by
  induction n with
  | zero => simp [oddCount]
  | succ n ih => rw [oddCount, ih, oddCount, Bool.and_xor_distrib_left]

theorem oddCount_succ (n : Nat) (f : Nat → Bool) :
    oddCount (n + 1) f = (f 0 ^^ oddCount n fun i => f (i + 1)) := by
  induction n with
  | zero => simp [oddCount]
  | succ n ih => rw [oddCount, ih, oddCount, Bool.xor_assoc]

/-- Whether an odd number of the bits of a word are set. -/
def oddOnes (c : UInt16) : Bool :=
  oddCount 16 c.toNat.testBit

theorem oddOnes_xor (a b : UInt16) : oddOnes (a ^^^ b) = (oddOnes a ^^ oddOnes b) := by
  have h : (a ^^^ b).toNat.testBit = fun i => a.toNat.testBit i ^^ b.toNat.testBit i := by
    funext i
    rw [UInt16.toNat_xor, Nat.testBit_xor]
  rw [oddOnes, h, oddCount_xor]
  rfl

theorem testBit_shift (c : UInt16) (i : Nat) :
    (shift c).toNat.testBit i =
      (c.toNat.testBit (i + 1) ^^ (c.toNat.testBit 0 && polynomial.toNat.testBit i)) := by
  rw [shift_eq, UInt16.toNat_xor, toNat_shiftRight_one, Nat.testBit_xor, Nat.testBit_div_two]
  congr 1
  by_cases h : c.toNat % 2 = 1
  · rw [if_pos h, Nat.testBit_zero, decide_eq_true h, Bool.true_and]
  · rw [if_neg h, Nat.testBit_zero, decide_eq_false h, Bool.false_and]
    exact Nat.zero_testBit i

/-- Three bits of the polynomial are set, so a division that takes one bit out brings three in. -/
theorem oddOnes_shift (c : UInt16) : oddOnes (shift c) = oddOnes c := by
  have hpolynomial : oddCount 16 polynomial.toNat.testBit = true := by decide
  have htop : c.toNat.testBit 16 = false := Nat.testBit_lt_two_pow c.toNat_lt
  -- moving the bits down loses the lowest one
  have hmoved :
      (oddCount 16 fun i => c.toNat.testBit (i + 1)) = (c.toNat.testBit 0 ^^ oddOnes c) := by
    have hsucc := oddCount_succ 16 c.toNat.testBit
    rw [oddCount, htop, Bool.xor_false] at hsucc
    rw [oddOnes, hsucc, ← Bool.xor_assoc, Bool.xor_self, Bool.false_xor]
  have hbits : (shift c).toNat.testBit =
      fun i => c.toNat.testBit (i + 1) ^^ (c.toNat.testBit 0 && polynomial.toNat.testBit i) := by
    funext i
    exact testBit_shift c i
  rw [oddOnes, hbits, oddCount_xor, oddCount_and, hmoved, hpolynomial, Bool.and_true,
    Bool.xor_comm (c.toNat.testBit 0), Bool.xor_assoc, Bool.xor_self, Bool.xor_false]

/-- The remainder has an odd number of ones exactly when an odd number of bits were flipped. -/
theorem oddOnes_foldl_step (bits : List Bool) (c : UInt16) :
    oddOnes (bits.foldl step c) = (oddOnes c ^^ decide (bits.count true % 2 = 1)) := by
  induction bits generalizing c with
  | nil => simp
  | cons b bits ih =>
    rw [List.foldl_cons, ih, step, oddOnes_shift, oddOnes_xor, Bool.xor_assoc]
    congr 1
    cases b with
    | false =>
      rw [List.count_cons_of_ne (by decide)]
      exact Bool.false_xor _
    | true =>
      have hone : oddOnes 1 = true := by decide
      rw [if_pos rfl, hone, List.count_cons_self, Bool.true_xor, ← decide_not, decide_eq_decide]
      omega

/-! ### Two flipped bits -/

/-- Whether none of the next `n` divisions gives 1. -/
def missesOne : Nat → UInt16 → Bool
  | 0, _ => true
  | n + 1, c => shift c != 1 && missesOne n (shift c)

theorem repeat_shift_ne_one {n : Nat} {c : UInt16} (h : missesOne n c) {d : Nat} (hpos : 0 < d)
    (hle : d ≤ n) : Nat.repeat shift d c ≠ 1 := by
  induction n generalizing c d with
  | zero => omega
  | succ n ih =>
    simp only [missesOne, Bool.and_eq_true, bne_iff_ne] at h
    cases d with
    | zero => omega
    | succ d =>
      rw [repeat_shift_succ]
      cases d with
      | zero => exact h.1
      | succ d => exact ih h.2 (by omega) (by omega)

/-- Modulo the polynomial, no power of `x` below 4096 is 1; a frame has at most 4096 bits. -/
theorem repeat_shift_one_ne_one {d : Nat} (hpos : 0 < d) (hlt : d < 4096) :
    Nat.repeat shift d 1 ≠ 1 := by
  -- the order of `x` is not read off the polynomial but found by going through its powers
  have h : missesOne 4095 1 := by decide +kernel
  exact repeat_shift_ne_one h hpos (by omega)

/-! ### Patterns that are found -/

theorem remainder_ne_zero_of_odd {bits : List Bool} (h : bits.count true % 2 = 1) :
    remainder bits ≠ 0 := by
  intro hzero
  have hodd := oddOnes_foldl_step bits 0
  rw [← remainder, hzero, decide_eq_true h] at hodd
  exact absurd hodd (by decide)

theorem remainder_ne_zero_of_two {bits : List Bool} (h : bits.count true = 2)
    (hlength : bits.length ≤ 4096) : remainder bits ≠ 0 := by
  obtain ⟨before, rest, rfl, hrest⟩ := exists_first_flip h
  obtain ⟨between, last, rfl, hlast⟩ := exists_first_flip hrest
  -- the first flip starts a remainder of 1, and the second one cancels only a remainder of 1
  have hfirst : step 0 true = shift 1 := by decide
  have hbetween : Nat.repeat shift (between + 1) 1 ≠ 1 := by
    apply repeat_shift_one_ne_one (by omega)
    simp only [List.length_append, List.length_replicate, List.length_cons] at hlength
    omega
  rw [remainder, List.foldl_append, foldl_step_replicate_false, repeat_shift_zero, List.foldl_cons,
    hfirst, List.foldl_append, foldl_step_replicate_false, ← repeat_shift_succ, List.foldl_cons,
    eq_replicate_false hlast, foldl_step_replicate_false, Ne, repeat_shift_eq_zero_iff, step,
    if_pos rfl, shift_eq_zero_iff, UInt16.xor_eq_zero_iff]
  exact hbetween

/-- Few bits in a row are divided like the number that they are the digits of. -/
theorem foldl_step_eq_repeat_shift {bits : List Bool} (hlength : bits.length ≤ 16) :
    bits.foldl step 0 = Nat.repeat shift bits.length (UInt16.ofNat (Bits.number bits)) := by
  have hlt : Bits.number bits < 2 ^ 16 :=
    Nat.lt_of_lt_of_le (Bits.number_lt bits) (Nat.pow_le_pow_right (by decide) hlength)
  have hnat : (UInt16.ofNat (Bits.number bits)).toNat = Bits.number bits :=
    UInt16.toNat_ofNat_of_lt' hlt
  have hword := repeat_shift_xor bits.length 0 (UInt16.ofNat (Bits.number bits))
  rw [UInt16.zero_xor, hnat, Bits.map_testBit_number,
    Nat.div_eq_of_lt (Bits.number_lt bits)] at hword
  rw [hword]
  exact UInt16.xor_zero.symm

theorem number_ne_zero {bits : List Bool} (h : true ∈ bits) : Bits.number bits ≠ 0 := by
  intro hzero
  obtain ⟨i, hi, hbit⟩ := List.getElem_of_mem h
  have htest := Bits.testBit_number bits i
  rw [hzero, Nat.zero_testBit, List.getD_eq_getElem _ _ hi, hbit] at htest
  exact absurd htest (by decide)

/-- A pattern within sixteen bits in a row, the first of them at index `p`. -/
theorem remainder_ne_zero_of_burst {bits : List Bool} (hflip : true ∈ bits) {p : Nat}
    (hburst : ∀ i, bits[i]? = some true → p ≤ i ∧ i < p + 16) : remainder bits ≠ 0 := by
  have hbefore : (bits.take p).count true = 0 := by
    rw [List.count_eq_zero]
    intro hmem
    obtain ⟨i, hi, hbit⟩ := List.getElem_of_mem hmem
    rw [List.length_take] at hi
    have hat := hburst i (by rw [List.getElem?_eq_getElem (by omega), ← hbit, List.getElem_take])
    omega
  have hafter : ((bits.drop p).drop 16).count true = 0 := by
    rw [List.count_eq_zero, List.drop_drop]
    intro hmem
    obtain ⟨i, hi, hbit⟩ := List.getElem_of_mem hmem
    rw [List.getElem_drop] at hbit
    rw [List.length_drop] at hi
    have hat := hburst (p + 16 + i) (by rw [List.getElem?_eq_getElem (by omega), hbit])
    omega
  -- so the sixteen bits from `p` on decide alone, and they are the digits of a number
  have hparts : bits = bits.take p ++ ((bits.drop p).take 16 ++ (bits.drop p).drop 16) := by
    rw [List.take_append_drop, List.take_append_drop]
  have hwindow : true ∈ (bits.drop p).take 16 := by
    rw [hparts, List.mem_append, List.mem_append] at hflip
    rcases hflip with h | h | h
    · exact absurd h (List.count_eq_zero.mp hbefore)
    · exact h
    · exact absurd h (List.count_eq_zero.mp hafter)
  have hshort : ((bits.drop p).take 16).length ≤ 16 := List.length_take_le _ _
  rw [hparts, remainder, List.foldl_append, eq_replicate_false hbefore, foldl_step_replicate_false,
    repeat_shift_zero, List.foldl_append, eq_replicate_false hafter, foldl_step_replicate_false,
    Ne, repeat_shift_eq_zero_iff, foldl_step_eq_repeat_shift hshort, repeat_shift_eq_zero_iff]
  intro hzero
  apply number_ne_zero hwindow
  have hlt : Bits.number ((bits.drop p).take 16) < 2 ^ 16 :=
    Nat.lt_of_lt_of_le (Bits.number_lt _) (Nat.pow_le_pow_right (by decide) hshort)
  rw [← UInt16.toNat_ofNat_of_lt' hlt, hzero]
  rfl

/-- Patterns that a check value is made to find: at most three flipped bits anywhere, or any
number within sixteen bits in a row. -/
def Slight (pattern : List Bool) : Prop :=
  pattern.count true ≤ 3 ∨ ∃ p, ∀ i, pattern[i]? = some true → p ≤ i ∧ i < p + 16

theorem remainder_ne_zero {pattern : List Bool} (hflip : true ∈ pattern)
    (hlength : pattern.length ≤ 4096) (hslight : Slight pattern) : remainder pattern ≠ 0 := by
  rcases hslight with hfew | ⟨p, hburst⟩
  · have hpos : 0 < pattern.count true := List.count_pos_iff.mpr hflip
    by_cases htwo : pattern.count true = 2
    · exact remainder_ne_zero_of_two htwo hlength
    · exact remainder_ne_zero_of_odd (by omega)
  · exact remainder_ne_zero_of_burst hflip hburst

end ModbusMaster.Crc
