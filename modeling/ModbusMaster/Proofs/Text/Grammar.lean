import Mathlib.Data.List.DropRight
import ModbusMaster.Text.Blank
import ModbusMaster.Text.Numeral

/-!
What trimming, splitting and reading a numeral amount to, said of the texts and not of the way
they are gone through: a text without the blanks around it, the parts that a separator stands
between, and digits with the value they have in the decimal system.
-/

namespace ModbusMaster

namespace Text

/-! ### Blanks -/

/-- Of a text the core is left when the blanks around it are taken away. -/
structure Trims (text core : List Char) : Prop where
  around : ∃ before after, text = before ++ core ++ after ∧
    (∀ c ∈ before, isBlank c = true) ∧ ∀ c ∈ after, isBlank c = true
  first : ∀ c ∈ core.head?, isBlank c = false
  last : ∀ c ∈ core.getLast?, isBlank c = false

section Trims

variable {text core before : List Char}

/-- Blanks are skipped up to the first character that is none. -/
theorem dropWhile_isBlank (hbefore : ∀ c ∈ before, isBlank c = true)
    (hfirst : ∀ c ∈ core.head?, isBlank c = false) :
    (before ++ core).dropWhile isBlank = core := by
  rw [List.dropWhile_append_of_pos hbefore]
  cases core with
  | nil => rfl
  | cons c rest =>
    have hc : ¬isBlank c = true := Bool.eq_false_iff.mp (hfirst c rfl)
    exact List.dropWhile_cons_of_neg hc

theorem trims_trim (text : List Char) : Trims text (trim text) where
  around := by
    have hend : trim text ++ (text.dropWhile isBlank).rtakeWhile isBlank =
        text.dropWhile isBlank := List.rdropWhile_append_rtakeWhile
    refine ⟨text.takeWhile isBlank, (text.dropWhile isBlank).rtakeWhile isBlank, ?_,
      fun c => List.mem_takeWhile_imp, fun c => List.mem_rtakeWhile_imp⟩
    rw [List.append_assoc, hend, List.takeWhile_append_dropWhile]
  first := by
    intro c hc
    -- what is cut off at the end does not change how the rest begins
    have hprefix : trim text <+: text.dropWhile isBlank := List.rdropWhile_prefix ..
    have hhead : (text.dropWhile isBlank).head? = some c := by
      obtain ⟨rest, hrest⟩ := hprefix
      rw [← hrest]
      exact List.mem_head?_append_of_mem_head? hc
    have hnot := List.head?_dropWhile_not isBlank text
    rw [hhead] at hnot
    exact hnot
  last := by
    intro c hc
    obtain ⟨hne, rfl⟩ := List.mem_getLast?_eq_getLast hc
    exact Bool.eq_false_iff.mpr (List.rdropWhile_last_not isBlank _ hne)

/-- Trimming leaves the core of a text. -/
theorem trim_eq_iff : trim text = core ↔ Trims text core := by
  constructor
  · intro h
    rw [← h]
    exact trims_trim text
  · intro h
    obtain ⟨before, after, rfl, hbefore, hafter⟩ := h.around
    -- only a core with characters in it stops the first of the two passes
    cases core with
    | nil =>
      have hblank : (before ++ [] ++ after).dropWhile isBlank = [] := by
        rw [List.append_nil, List.dropWhile_append_of_pos hbefore]
        exact List.dropWhile_eq_nil_iff.mpr hafter
      rw [trim, hblank]
      rfl
    | cons c rest =>
      have hstart : (before ++ (c :: rest ++ after)).dropWhile isBlank = c :: rest ++ after :=
        dropWhile_isBlank hbefore h.first
      have hend : (after.reverse ++ (c :: rest).reverse).dropWhile isBlank =
          (c :: rest).reverse := by
        apply dropWhile_isBlank
        · exact fun d hd => hafter d (List.mem_reverse.mp hd)
        · rw [List.head?_reverse]
          exact h.last
      rw [trim, List.append_assoc, hstart, List.reverse_append, hend, List.reverse_reverse]

/-- Where there is no blank, none is taken away. -/
theorem Trims.of_solid (h : ∀ c ∈ text, isBlank c = false) : Trims text text where
  around := ⟨[], [], (List.append_nil text).symm, List.forall_mem_nil _, List.forall_mem_nil _⟩
  first := fun c hc => h c (List.mem_of_mem_head? hc)
  last := fun c hc => h c (List.mem_of_mem_getLast? hc)

/-- The printed characters of ASCII are not blank. -/
theorem isBlank_of_printed {c : Char} (hlow : 0x21 ≤ c.toNat) (hhigh : c.toNat ≤ 0x7E) :
    isBlank c = false := by
  simp only [isBlank, blankRanges, List.any_cons, List.any_nil, Bool.or_eq_false_iff,
    Bool.and_eq_false_iff, decide_eq_false_iff_not, and_true]
  omega

end Trims

/-! ### Parts -/

section Fields

variable {separator : Char} {text part : List Char} {parts : List (List Char)}

theorem fields_eq_splitOn (separator : Char) (text : List Char) :
    fields separator text = text.splitOn separator := by
  induction text with
  | nil => exact (List.splitOn_nil separator).symm
  | cons c rest ih =>
    rw [fields, List.splitOn_cons_eq_if_modifyHead, ih]
    by_cases hc : c = separator
    · rw [if_pos hc, if_pos (beq_iff_eq.mpr hc)]
    · rw [if_neg hc, if_neg (mt beq_iff_eq.mp hc)]
      cases hparts : rest.splitOn separator with
      | nil => exact absurd hparts (List.splitOn_ne_nil separator rest)
      | cons first others => rfl

theorem not_mem_of_mem_fields (h : part ∈ fields separator text) : separator ∉ part := by
  induction text generalizing part with
  | nil =>
    rw [List.mem_singleton.mp h]
    exact List.not_mem_nil
  | cons c rest ih =>
    rw [fields] at h
    split at h
    next =>
      cases List.mem_cons.mp h with
      | inl hpart =>
        rw [hpart]
        exact List.not_mem_nil
      | inr hpart => exact ih hpart
    next hc =>
      split at h
      next hnil => exact absurd hnil (fields_ne_nil separator rest)
      next first others hfields =>
        rw [hfields] at ih
        cases List.mem_cons.mp h with
        | inl hpart =>
          rw [hpart, List.mem_cons, not_or]
          exact ⟨Ne.symm hc, ih List.mem_cons_self⟩
        | inr hpart => exact ih (List.mem_cons_of_mem _ hpart)

/-- The fields of a text are the only parts that make up the text with separators between them. -/
theorem fields_eq_iff : fields separator text = parts ↔
    parts ≠ [] ∧ (∀ part ∈ parts, separator ∉ part) ∧ text = [separator].intercalate parts := by
  constructor
  · intro h
    subst h
    refine ⟨fields_ne_nil separator text, fun part => not_mem_of_mem_fields, ?_⟩
    rw [fields_eq_splitOn]
    exact (List.intercalate_splitOn separator).symm
  · rintro ⟨hne, hparts, rfl⟩
    rw [fields_eq_splitOn]
    exact List.splitOn_intercalate separator hparts hne

end Fields

end Text

namespace Numeral

variable {text : List Char} {limit value n : Nat}

/-- One or more ASCII digits with their value. -/
structure Digits (text : List Char) (n : Nat) : Prop where
  ne_nil : text ≠ []
  digit : ∀ c ∈ text, c.isDigit = true
  value : Nat.ofDigitChars 10 text 0 = n

/-- A numeral: digits, or a plus sign and digits. -/
def Denotes (text : List Char) (n : Nat) : Prop :=
  Digits text n ∨ ∃ digits, text = '+' :: digits ∧ Digits digits n

theorem isDigit_iff {c : Char} : c.isDigit = true ↔ 0x30 ≤ c.toNat ∧ c.toNat ≤ 0x39 := by
  rw [Char.isDigit, Bool.and_eq_true, decide_eq_true_eq, decide_eq_true_eq]
  exact Iff.rfl

theorem digit?_eq (c : Char) : digit? c = if c.isDigit then some (c.toNat - 48) else none := by
  have hdigit : c.isDigit = true ↔ '0' ≤ c ∧ c ≤ '9' := isDigit_iff
  simp only [digit?, hdigit]

theorem le_ofDigitChars (text : List Char) (value : Nat) :
    value ≤ Nat.ofDigitChars 10 text value := by
  induction text generalizing value with
  | nil => exact Nat.le_refl _
  | cons c rest ih =>
    rw [Nat.ofDigitChars_cons]
    have hrest := ih (10 * value + (c.toNat - '0'.toNat))
    omega

/-- Digits are appended as long as the value stays within the limit, so that it never goes past it
and back. -/
theorem append_eq_ok_iff (hvalue : value ≤ limit) : append limit value text = .ok n ↔
    (∀ c ∈ text, c.isDigit = true) ∧ Nat.ofDigitChars 10 text value = n ∧ n ≤ limit := by
  induction text generalizing value with
  | nil =>
    rw [append, Nat.ofDigitChars_nil, Except.ok.injEq]
    constructor
    · rintro rfl
      exact ⟨List.forall_mem_nil _, rfl, hvalue⟩
    · exact fun h => h.2.1
  | cons c rest ih =>
    rw [append, digit?_eq, List.forall_mem_cons, Nat.ofDigitChars_cons]
    by_cases hdigit : c.isDigit = true
    · rw [if_pos hdigit]
      dsimp only
      split
      next hlarge =>
        -- the digits that follow only make the value larger, so it stays beyond the limit
        have hle := le_ofDigitChars rest (10 * value + (c.toNat - 48))
        constructor
        · intro h
          cases h
        · rintro ⟨-, rfl, hn⟩
          exact absurd (Nat.le_trans hle hn) (Nat.not_le.mpr hlarge)
      next hfits =>
        rw [ih (Nat.le_of_not_lt hfits)]
        exact ⟨fun h => ⟨⟨hdigit, h.1⟩, h.2⟩, fun h => ⟨h.1.2, h.2⟩⟩
    · rw [if_neg hdigit]
      constructor
      · intro h
        cases h
      · exact fun h => absurd h.1.1 hdigit

theorem Digits.no_sign {rest : List Char} (h : Digits ('+' :: rest) n) : False :=
  absurd (h.digit _ List.mem_cons_self) (by decide)

theorem append_zero_eq_ok_iff (hne : text ≠ []) :
    append limit 0 text = .ok n ↔ Digits text n ∧ n ≤ limit := by
  rw [append_eq_ok_iff (Nat.zero_le limit)]
  constructor
  · rintro ⟨hdigit, hvalue, hn⟩
    exact ⟨⟨hne, hdigit, hvalue⟩, hn⟩
  · rintro ⟨hdigits, hn⟩
    exact ⟨hdigits.digit, hdigits.value, hn⟩

/-- What is read of a text is the value it denotes, if that is within the limit. -/
theorem parse_eq_ok_iff : parse limit text = .ok n ↔ Denotes text n ∧ n ≤ limit := by
  unfold parse
  split
  next =>
    constructor
    · intro h
      cases h
    · rintro ⟨hdigits | ⟨digits, htext, -⟩, -⟩
      · exact absurd rfl hdigits.ne_nil
      · cases htext
  next =>
    constructor
    · intro h
      cases h
    · rintro ⟨hdigits | ⟨digits, htext, hdigits⟩, -⟩
      · exact hdigits.no_sign.elim
      · cases htext
        exact absurd rfl hdigits.ne_nil
  next rest hrest =>
    rw [append_zero_eq_ok_iff hrest]
    constructor
    · exact fun h => ⟨.inr ⟨rest, rfl, h.1⟩, h.2⟩
    · rintro ⟨hdigits | ⟨digits, htext, hdigits⟩, hn⟩
      · exact hdigits.no_sign.elim
      · cases htext
        exact ⟨hdigits, hn⟩
  next _ hempty hsign hplus =>
    rw [append_zero_eq_ok_iff hempty]
    constructor
    · exact fun h => ⟨.inl h.1, h.2⟩
    · rintro ⟨hdigits | ⟨digits, htext, -⟩, hn⟩
      · exact ⟨hdigits, hn⟩
      · exact absurd htext (hplus digits)

/-- A text denotes one value at most. -/
theorem Denotes.unique {m : Nat} (hm : Denotes text m) (hn : Denotes text n) : m = n := by
  have hparse := parse_eq_ok_iff.mpr ⟨hm, Nat.le_max_left m n⟩
  have hparse' := parse_eq_ok_iff.mpr ⟨hn, Nat.le_max_right m n⟩
  exact Except.ok.inj (hparse.symm.trans hparse')

theorem parseWord_eq_ok_iff {w : UInt16} : parseWord text = .ok w ↔ Denotes text w.toNat := by
  have hword : w.toNat ≤ 65535 := Nat.le_of_lt_succ w.toNat_lt
  rw [parseWord]
  constructor
  · intro h
    cases hparse : parse 65535 text with
    | error fault =>
      rw [hparse] at h
      cases h
    | ok n =>
      rw [hparse] at h
      cases h
      obtain ⟨hdenotes, hn⟩ := parse_eq_ok_iff.mp hparse
      rw [UInt16.toNat_ofNat_of_lt' (Nat.lt_succ_of_le hn)]
      exact hdenotes
  · intro h
    rw [parse_eq_ok_iff.mpr ⟨h, hword⟩]
    exact congrArg Except.ok UInt16.ofNat_toNat

theorem parseWord_isOk_iff : (∃ w, parseWord text = .ok w) ↔ ∃ n, Denotes text n ∧ n ≤ 65535 := by
  constructor
  · rintro ⟨w, hw⟩
    exact ⟨w.toNat, parseWord_eq_ok_iff.mp hw, Nat.le_of_lt_succ w.toNat_lt⟩
  · rintro ⟨n, hdenotes, hn⟩
    refine ⟨UInt16.ofNat n, parseWord_eq_ok_iff.mpr ?_⟩
    rw [UInt16.toNat_ofNat_of_lt' (Nat.lt_succ_of_le hn)]
    exact hdenotes

/-- What is written of a number are digits, and they are those of the number. -/
theorem digits_repr (n : Nat) : Digits n.repr.toList n := by
  rw [Nat.toList_repr]
  refine ⟨?_, ?_, Nat.ofDigitChars_toDigits (by decide) (Nat.le_refl 10)⟩
  · rw [Nat.toDigits_eq_if (by decide)]
    split
    · exact List.cons_ne_nil _ _
    · exact List.concat_ne_nil _ _
  · exact fun c hc => Nat.isDigit_of_mem_toDigits (by decide) (Nat.le_refl 10) hc

end Numeral

end ModbusMaster
