import Mathlib.Data.List.Basic
import ModbusMaster.Frame
import ModbusMaster.Proofs.Crc.Detection

/-!
Corrupted serial frames. A frame with its check value leaves no remainder (`foldl_feed_check`), so
a frame with some bits flipped leaves the remainder of the flipped bits alone. Decoding with the
strict check therefore notices every slight corruption (`decode_flip`).
-/

namespace ModbusMaster

namespace Crc

theorem wireBits_littleEndian (w : UInt16) :
    wireBits (littleEndian w) = (List.range 16).map w.toNat.testBit := by
  have hw := w.toNat_lt
  have hlow : (UInt8.ofNat (w.toNat % 256)).toNat = w.toNat % 2 ^ 8 :=
    UInt8.toNat_ofNat_of_lt' (Nat.mod_lt _ (by decide))
  have hhigh : (UInt8.ofNat (w.toNat / 256)).toNat = w.toNat / 2 ^ 8 :=
    UInt8.toNat_ofNat_of_lt' (Nat.div_lt_of_lt_mul hw)
  have hrange : List.range 16 = List.range 8 ++ (List.range 8).map (· + 8) := by decide
  rw [littleEndian, wireBits_cons, wireBits_cons, wireBits_nil, List.append_nil, hlow, hhigh,
    hrange, List.map_append, List.map_map]
  congr 1
  · apply List.map_congr_left
    intro i hi
    rw [Nat.testBit_mod_two_pow, decide_eq_true (List.mem_range.mp hi), Bool.true_and]
  · apply List.map_congr_left
    intro i _
    exact Nat.testBit_div_two_pow w.toNat i

/-- Behind its own check value nothing is left of a remainder. -/
theorem foldl_step_littleEndian (c : UInt16) : (wireBits (littleEndian c)).foldl step c = 0 := by
  have hword := repeat_shift_xor 16 c c
  rw [UInt16.xor_self, repeat_shift_zero, Nat.div_eq_of_lt c.toNat_lt,
    ← wireBits_littleEndian] at hword
  rw [hword]
  exact UInt16.xor_zero.symm

theorem foldl_feed_check (body : Bytes) :
    (body ++ littleEndian (of body)).foldl feed start = 0 := by
  rw [foldl_feed_append, foldl_feed_eq (body.foldl feed start)]
  exact foldl_step_littleEndian (of body)

end Crc

namespace Frame

/-- A frame with the bits of a pattern flipped. -/
def flip (frame pattern : Bytes) : Bytes :=
  List.zipWith (· ^^^ ·) frame pattern

/-- What is left of a frame with flipped bits. -/
theorem foldl_feed_flip {frame pattern : Bytes} (hlength : pattern.length = frame.length)
    (hframe : frame.foldl Crc.feed Crc.start = 0) :
    (flip frame pattern).foldl Crc.feed Crc.start = Crc.remainder (Crc.wireBits pattern) := by
  have hzip := Crc.foldl_step_zipWith Crc.start 0 (Crc.wireBits frame) (Crc.wireBits pattern)
    (by simp [hlength])
  rw [UInt16.xor_zero, ← Crc.foldl_feed_eq, hframe, UInt16.zero_xor] at hzip
  rw [Crc.foldl_feed_eq, flip, Crc.wireBits_zipWith_xor, hzip, Crc.remainder]

theorem checkBytes_eq (body : Bytes) :
    [(Rtu.checkBytes body).1, (Rtu.checkBytes body).2] = littleEndian (Crc.of body) := rfl

theorem word_checkBytes (body : Bytes) :
    word (Rtu.checkBytes body).2 (Rtu.checkBytes body).1 = Crc.of body := by
  have hlt := (Crc.of body).toNat_lt
  apply UInt16.toNat_inj.mp
  rw [toNat_word]
  simp only [Rtu.checkBytes, UInt8.toNat_ofNat', Nat.reducePow]
  omega

/-- A reply without the mark of a refusal, with whatever follows its check value. -/
theorem decode_rtu_parts {node echo low high : UInt8} {data extra : Bytes} {check : CrcCheck}
    (hecho : refuses echo = false) :
    Rtu.decode (node :: echo :: data ++ low :: high :: extra) (data.length + 1) check =
      if maxLength < data.length + 4 then
        .error (.badFrame (.frameTooBig (data.length + 4) maxLength))
      else if Rtu.accepts check (Rtu.checkBytes (node :: echo :: data)) (low, high) then
        .ok (echo :: data)
      else
        .error (.badFrame (.crcMismatch (word high low) (Crc.of (node :: echo :: data)))) := by
  have htake : (node :: echo :: (data ++ low :: high :: extra)).take (data.length + 1 + 1) =
      node :: echo :: data := by simp
  have hdrop : (node :: echo :: (data ++ low :: high :: extra)).drop (data.length + 1 + 1) =
      low :: high :: extra := by simp
  show Rtu.decode (node :: echo :: (data ++ low :: high :: extra)) _ _ = _
  unfold Rtu.decode
  simp only [hecho, Bool.false_eq_true, if_false, htake, hdrop, word_checkBytes]
  rfl

/-- The strict check on a frame of the expected length compares the last two bytes with the check
value of those before. -/
theorem decode_strict {unit echo low high : UInt8} {data : Bytes} (hecho : refuses echo = false)
    (hlength : data.length + 4 ≤ maxLength) :
    Rtu.decode (unit :: echo :: data ++ [low, high]) (data.length + 1) .strict =
      if [low, high] = littleEndian (Crc.of (unit :: echo :: data)) then .ok (echo :: data)
      else
        .error (.badFrame (.crcMismatch (word high low) (Crc.of (unit :: echo :: data)))) := by
  have haccepts : Rtu.accepts .strict (Rtu.checkBytes (unit :: echo :: data)) (low, high) = true ↔
      [low, high] = littleEndian (Crc.of (unit :: echo :: data)) := by
    rw [← checkBytes_eq, Rtu.accepts, Bool.and_eq_true, beq_iff_eq, beq_iff_eq, List.cons.injEq,
      List.cons.injEq, eq_comm, eq_comm (a := high)]
    simp
  rw [decode_rtu_parts hecho, if_neg (Nat.not_lt.mpr hlength)]
  simp only [haccepts]

theorem decode_refusal {unit echo code : UInt8} {rest : Bytes} {length : Nat} {check : CrcCheck}
    (hecho : refuses echo) :
    Rtu.decode (unit :: echo :: code :: rest) length check =
      .error (.exception (.ofByte code)) := by
  simp only [Rtu.decode, hecho, if_true]

theorem encode_rtu_eq_ok {unit : UnitId} {function : UInt8} {payload frame : Bytes}
    (h : Rtu.encode unit function payload = .ok frame) :
    payload.length + 4 ≤ maxLength ∧
      frame = unit.value :: function :: payload ++
        littleEndian (Crc.of (unit.value :: function :: payload)) := by
  simp only [Rtu.encode] at h
  split at h
  · cases h
  next hfits =>
    cases h
    exact ⟨Nat.le_of_not_lt hfits, rfl⟩

/-- The unit, the function, the data and the check value in a byte string that is long enough. -/
theorem exists_frame_parts {raw : Bytes} {n : Nat} (h : raw.length = n + 4) :
    ∃ unit echo data low high, raw = unit :: echo :: data ++ [low, high] ∧ data.length = n := by
  match raw, h with
  | unit :: echo :: rest, h =>
    have hrest : rest.length = n + 2 := by simpa using h
    have hcheck : (rest.drop n).length = 2 := by rw [List.length_drop]; omega
    obtain ⟨low, high, hbytes⟩ := List.length_eq_two.mp hcheck
    refine ⟨unit, echo, rest.take n, low, high, ?_, ?_⟩
    · rw [List.cons_append, List.cons_append, ← hbytes, List.take_append_drop]
    · rw [List.length_take]
      omega

theorem littleEndian_word (low high : UInt8) : littleEndian (word high low) = [low, high] := by
  have hlow := low.toNat_lt
  have hdiv : (256 * high.toNat + low.toNat) / 256 = high.toNat := by omega
  have hmod : (256 * high.toNat + low.toNat) % 256 = low.toNat := by omega
  rw [littleEndian, toNat_word, hdiv, hmod, UInt8.ofNat_toNat, UInt8.ofNat_toNat]

/-- Flipping bits of a function byte without the mark of a refusal sets the mark if the pattern
has it. -/
theorem refuses_xor {function : UInt8} (h : function.toNat < 128) (pattern : UInt8) :
    refuses (function ^^^ pattern) = pattern.toNat.testBit 7 := by
  have hp := pattern.toNat_lt
  have hhigh : (function ^^^ pattern).toNat / 2 ^ 7 = pattern.toNat / 2 ^ 7 := by
    rw [UInt8.toNat_xor, Nat.xor_div_two_pow, Nat.div_eq_of_lt h, Nat.zero_xor]
  have hbit : pattern.toNat.testBit 7 = decide (pattern.toNat / 2 ^ 7 % 2 = 1) :=
    Nat.testBit_eq_decide_div_mod_eq
  rw [refuses, hbit, decide_eq_decide]
  omega

theorem true_mem_wireBits {data : Bytes} (h : ∃ byte ∈ data, byte ≠ 0) :
    true ∈ Crc.wireBits data := by
  obtain ⟨byte, hmem, hne⟩ := h
  have hnat : byte.toNat ≠ 0 := fun hzero => hne (UInt8.toNat_inj.mp hzero)
  obtain ⟨i, hbit⟩ := Nat.exists_testBit_of_ne_zero hnat
  have hi : i < 8 := by
    apply Nat.lt_of_not_le
    intro hge
    have hlt : byte.toNat < 2 ^ i :=
      Nat.lt_of_lt_of_le byte.toNat_lt (Nat.pow_le_pow_right (by decide) hge)
    rw [Nat.testBit_lt_two_pow hlt] at hbit
    cases hbit
  exact List.mem_flatMap.mpr ⟨byte, hmem, List.mem_map.mpr ⟨i, List.mem_range.mpr hi, hbit⟩⟩

/-- A corrupted frame does not end with the check value of what precedes it. -/
theorem check_ne_of_flip {frame pattern body check : Bytes}
    (hlength : pattern.length = frame.length)
    (hframe : frame.foldl Crc.feed Crc.start = 0) (hfits : frame.length ≤ maxLength)
    (hflip : ∃ byte ∈ pattern, byte ≠ 0) (hslight : Crc.Slight (Crc.wireBits pattern))
    (hparts : flip frame pattern = body ++ check) : check ≠ littleEndian (Crc.of body) := by
  intro hcheck
  have hremainder := foldl_feed_flip hlength hframe
  rw [hparts, hcheck, Crc.foldl_feed_check] at hremainder
  -- with its check value it would leave nothing, but the flipped bits alone leave something
  refine Crc.remainder_ne_zero (true_mem_wireBits hflip) ?_ hslight hremainder.symm
  rw [Crc.length_wireBits, hlength]
  exact Nat.mul_le_mul_left 8 hfits

/-- The strict check finds every slight corruption of a frame, wherever it is. Only a function
byte that has got the mark of a refusal is believed without a check. -/
theorem decode_flip {unit : UnitId} {function : UInt8} {payload frame pattern : Bytes}
    (hframe : encode .rtu unit function payload = .ok frame) (hfunction : function < 0x80)
    (hlength : pattern.length = frame.length) (hflip : ∃ byte ∈ pattern, byte ≠ 0)
    (hslight : Crc.Slight (Crc.wireBits pattern)) :
    if (pattern.getD 1 0).toNat.testBit 7 then
      ∃ code, (flip frame pattern)[2]? = some code ∧
        decode .rtu (flip frame pattern) (payload.length + 1) .strict =
          .error (.exception (.ofByte code))
    else
      ∃ received calculated, received ≠ calculated ∧
        decode .rtu (flip frame pattern) (payload.length + 1) .strict =
          .error (.badFrame (.crcMismatch received calculated)) := by
  obtain ⟨hfits, hbytes⟩ := encode_rtu_eq_ok hframe
  have hsize : frame.length = payload.length + 4 := by simp [hbytes]
  have hraw : (flip frame pattern).length = payload.length + 4 := by
    rw [flip, List.length_zipWith, hlength, Nat.min_self, hsize]
  obtain ⟨node, echo, data, low, high, hparts, hdata⟩ := exists_frame_parts hraw
  have hecho : echo = function ^^^ pattern.getD 1 0 := by
    have hone : 1 < pattern.length := by omega
    have hat : (flip frame pattern)[1]? = some (function ^^^ pattern[1]) := by
      rw [flip, List.getElem?_zipWith_eq_some]
      exact ⟨function, pattern[1], by simp [hbytes], List.getElem?_eq_getElem hone, rfl⟩
    rw [hparts] at hat
    rw [List.getD_eq_getElem _ _ hone]
    simpa using hat
  -- the function byte is looked at first: with the mark of a refusal nothing else is checked
  have hmark := refuses_xor (UInt8.lt_iff_toNat_lt.mp hfunction) (pattern.getD 1 0)
  rw [← hecho] at hmark
  rw [← hmark]
  split
  next hrefuses =>
    obtain ⟨code, rest, hrest⟩ : ∃ code rest, data ++ [low, high] = code :: rest := by
      cases data with
      | nil => exact ⟨low, [high], rfl⟩
      | cons code data => exact ⟨code, data ++ [low, high], rfl⟩
    rw [List.cons_append, List.cons_append, hrest] at hparts
    refine ⟨code, by rw [hparts]; rfl, ?_⟩
    rw [hparts, decode, decode_refusal hrefuses]
  next hanswers =>
    have hzero : frame.foldl Crc.feed Crc.start = 0 := by rw [hbytes, Crc.foldl_feed_check]
    have hne := check_ne_of_flip hlength hzero (by omega) hflip hslight hparts
    refine ⟨word high low, Crc.of (node :: echo :: data), ?_, ?_⟩
    · intro hword
      apply hne
      rw [← hword, littleEndian_word]
    · rw [hparts, decode, ← hdata, decode_strict (by simpa using hanswers) (by omega), if_neg hne]

/-- A burst of sixteen bits across the end of the payload. -/
theorem decode_flip_burst :
    ∃ received calculated, received ≠ calculated ∧
      decode .rtu (flip [0x11, 3, 0, 0x6B, 0, 3, 0x76, 0x87] [0, 0, 0, 0, 0, 0xF0, 0xFF, 0x0F]) 5
        .strict = .error (.badFrame (.crcMismatch received calculated)) := by
  -- no bit outside the burst is set
  have hrow : ∀ i, i < 64 →
      (Crc.wireBits [0, 0, 0, 0, 0, 0xF0, 0xFF, 0x0F])[i]? = some true → 44 ≤ i ∧ i < 44 + 16 := by
    decide
  have hslight : Crc.Slight (Crc.wireBits [0, 0, 0, 0, 0, 0xF0, 0xFF, 0x0F]) := by
    refine .inr ⟨44, fun i hi => hrow i ?_ hi⟩
    obtain ⟨hlt, _⟩ := List.getElem?_eq_some_iff.mp hi
    exact hlt
  have h := @decode_flip ⟨0x11⟩ 3 [0, 0x6B, 0, 3] [0x11, 3, 0, 0x6B, 0, 3, 0x76, 0x87]
    [0, 0, 0, 0, 0, 0xF0, 0xFF, 0x0F] (by decide +kernel) (by decide) (by decide)
    ⟨0xF0, by decide, by decide⟩ hslight
  rw [if_neg (by decide)] at h
  exact h

end Frame

end ModbusMaster
