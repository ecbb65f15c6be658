import Mathlib.Data.List.Basic
import Mathlib.Tactic.IntervalCases
import ModbusMaster.Text.Hex

/-!
Hexadecimal text read back. The digits of bytes are read as these bytes, and the digits of a
number stand for that number, however many there are.
-/

namespace ModbusMaster.Hex

/-- The digits, in the order of their values. -/
def alphabet : List Char :=
  "0123456789ABCDEF".toList

theorem digit_mem_alphabet {v : Nat} (h : v < 16) : digit v ∈ alphabet := by
  interval_cases v <;> decide

theorem value?_digit {v : Nat} (h : v < 16) : value? (digit v) = some v := by
  interval_cases v <;> decide

theorem toUpper_digitChar {v : Nat} (h : v < 16) : v.digitChar.toUpper = digit v := by
  interval_cases v <;> decide

theorem digit_ne_zero {v : Nat} (hpos : 0 < v) (h : v < 16) : digit v ≠ '0' := by
  interval_cases v <;> decide

theorem mem_alphabet_of_mem_byteDigits {b : UInt8} {c : Char} (h : c ∈ byteDigits b) :
    c ∈ alphabet := by
  have hb := b.toNat_lt
  simp only [byteDigits, List.mem_cons, List.not_mem_nil, or_false] at h
  rcases h with rfl | rfl
  · exact digit_mem_alphabet (by omega)
  · exact digit_mem_alphabet (by omega)

/-- The digits of bytes are read as these bytes. -/
theorem bytes?_flatMap_byteDigits (bytes : Bytes) :
    bytes? (bytes.flatMap byteDigits) = some bytes := by
  induction bytes with
  | nil => rfl
  | cons b rest ih =>
    have hb := b.toNat_lt
    have hhigh : value? (digit (b.toNat / 16)) = some (b.toNat / 16) := value?_digit (by omega)
    have hlow : value? (digit (b.toNat % 16)) = some (b.toNat % 16) := value?_digit (by omega)
    have hbyte : UInt8.ofNat (16 * (b.toNat / 16) + b.toNat % 16) = b := by
      rw [Nat.div_add_mod, UInt8.ofNat_toNat]
    show bytes? (digit (b.toNat / 16) :: digit (b.toNat % 16) :: rest.flatMap byteDigits) = _
    rw [bytes?, hhigh, hlow, ih]
    show some (UInt8.ofNat (16 * (b.toNat / 16) + b.toNat % 16) :: rest) = _
    rw [hbyte]

/-! ### Numbers -/

/-- The number that digits stand for. -/
def valueOf (digits : List Char) : Nat :=
  digits.foldl (fun value c => 16 * value + (value? c).getD 0) 0

/-- Upper-case digits of a number, at least `width` of them and no more if they are enough. If they
are not, there are as many as the number takes. -/
structure Shows (width n : Nat) (digits : List Char) : Prop where
  upper : ∀ c ∈ digits, c ∈ alphabet
  value : valueOf digits = n
  width_le : width ≤ digits.length
  exact_width : n < 16 ^ width → digits.length = width
  no_leading_zero : 16 ^ width ≤ n → digits.head? ≠ some '0'

theorem valueOf_replicate_append (zeros : Nat) (digits : List Char) :
    valueOf (List.replicate zeros '0' ++ digits) = valueOf digits := by
  induction zeros with
  | zero => rfl
  | succ zeros ih => exact ih

theorem digits_of_lt {n : Nat} (h : n < 16) :
    (Nat.toDigits 16 n).map Char.toUpper = [digit n] := by
  rw [Nat.toDigits_of_lt_base h, List.map_singleton, toUpper_digitChar h]

theorem digits_of_le {n : Nat} (h : 16 ≤ n) : (Nat.toDigits 16 n).map Char.toUpper =
    (Nat.toDigits 16 (n / 16)).map Char.toUpper ++ [digit (n % 16)] := by
  rw [Nat.toDigits_of_base_le (by decide) h, List.map_append, List.map_singleton,
    toUpper_digitChar (Nat.mod_lt n (by decide))]

theorem digits_upper (n : Nat) : ∀ c ∈ (Nat.toDigits 16 n).map Char.toUpper, c ∈ alphabet := by
  induction n using Nat.strongRecOn with
  | ind n ih =>
    by_cases hn : n < 16
    · rw [digits_of_lt hn]
      exact List.forall_mem_singleton.mpr (digit_mem_alphabet hn)
    · rw [digits_of_le (by omega)]
      refine List.forall_mem_append.mpr ⟨ih (n / 16) (by omega), ?_⟩
      exact List.forall_mem_singleton.mpr (digit_mem_alphabet (Nat.mod_lt n (by decide)))

/-- The last digit is the rest of the division by sixteen, those before it are of the quotient. -/
theorem valueOf_digits (n : Nat) : valueOf ((Nat.toDigits 16 n).map Char.toUpper) = n := by
  induction n using Nat.strongRecOn with
  | ind n ih =>
    by_cases hn : n < 16
    · rw [digits_of_lt hn, valueOf, List.foldl_cons, List.foldl_nil, value?_digit hn,
        Option.getD_some]
      omega
    · have hquotient := ih (n / 16) (by omega)
      rw [valueOf] at hquotient
      rw [digits_of_le (by omega), valueOf, List.foldl_append, hquotient, List.foldl_cons,
        List.foldl_nil, value?_digit (Nat.mod_lt n (by decide)), Option.getD_some,
        Nat.div_add_mod]

/-- The first digit of a number is that of its quotient by sixteen, as long as this is not zero. -/
theorem head?_digits_ne_zero {n : Nat} (hpos : 0 < n) :
    ((Nat.toDigits 16 n).map Char.toUpper).head? ≠ some '0' := by
  induction n using Nat.strongRecOn with
  | ind n ih =>
    by_cases hn : n < 16
    · rw [digits_of_lt hn, List.head?_cons]
      exact fun hzero => digit_ne_zero hpos hn (Option.some.inj hzero)
    · have hquotient := ih (n / 16) (by omega) (by omega)
      have hdigits : (Nat.toDigits 16 (n / 16)).map Char.toUpper ≠ [] := by
        rw [ne_eq, List.map_eq_nil_iff]
        exact Nat.toDigits_ne_nil
      rw [digits_of_le (by omega), List.head?_append_of_ne_nil _ hdigits]
      exact hquotient

theorem padded_shows {width : Nat} (hwidth : 0 < width) (n : Nat) :
    Shows width n (padded width n).toList := by
  rw [padded, String.toList_ofList]
  refine ⟨?_, ?_, ?_, ?_, ?_⟩
  · intro c hc
    cases List.mem_append.mp hc with
    | inl hzero =>
      rw [List.eq_of_mem_replicate hzero]
      decide
    | inr hdigit => exact digits_upper n c hdigit
  · rw [List.leftpad, valueOf_replicate_append, valueOf_digits]
  · rw [List.length_leftpad]
    exact Nat.le_max_left _ _
  · intro hn
    have hlength : (Nat.toDigits 16 n).length ≤ width :=
      (Nat.length_toDigits_le_iff (by decide) hwidth).mpr hn
    rw [List.length_leftpad, List.length_map]
    exact Nat.max_eq_left hlength
  · intro hn
    have hlength : width < (Nat.toDigits 16 n).length := by
      rw [← Nat.not_le, Nat.length_toDigits_le_iff (by decide) hwidth]
      omega
    -- there are more digits than the width, so none is put before them
    rw [List.leftpad, List.length_map, Nat.sub_eq_zero_of_le (Nat.le_of_lt hlength),
      List.replicate_zero, List.nil_append]
    exact head?_digits_ne_zero (Nat.lt_of_lt_of_le (Nat.pow_pos (by decide)) hn)

end ModbusMaster.Hex
