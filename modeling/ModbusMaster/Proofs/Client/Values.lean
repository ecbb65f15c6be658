import ModbusMaster.Client.Job
import ModbusMaster.Proofs.Bits.Packing
import ModbusMaster.Proofs.Results
import ModbusMaster.Proofs.Text.Grammar

/-!
What the values that are written on a command line stand for. A row of zeros and ones is a binary
numeral, so its last character is the first state. The contents of registers are the numerals
between the commas, without the blanks around them. Of what is neither the first fault is told, in
the order of reading.
-/

namespace ModbusMaster.Client

open Results

/-! ### Rows of zeros and ones -/

/-- The characters of a binary numeral. -/
def IsBit (c : Char) : Prop := c = '0' ∨ c = '1'

instance : DecidablePred IsBit := fun c => inferInstanceAs (Decidable (c = '0' ∨ c = '1'))

/-- The state that a character stands for. -/
def parseState (c : Char) : Except ValuesError Bool :=
  if c = '0' then .ok false
  else if c = '1' then .ok true
  else .error (.badState c)

/-- The states that a binary numeral stands for, the last digit first. -/
def statesOf (text : List Char) : List Bool :=
  text.reverse.map (· == '1')

section States

variable {text : List Char} {c : Char}

theorem parseStates_eq (text : List Char) : parseStates text = text.reverse.mapM parseState := rfl

theorem length_statesOf : (statesOf text).length = text.length := by
  rw [statesOf, List.length_map, List.length_reverse]

theorem getElem?_statesOf {i : Nat} (hi : i < text.length) :
    (statesOf text)[i]? = some (text[text.length - 1 - i]? == some '1') := by
  rw [statesOf, List.getElem?_map, List.getElem?_reverse hi,
    List.getElem?_eq_getElem (show text.length - 1 - i < text.length by omega)]
  rfl

theorem parseState_of_isBit (h : IsBit c) : parseState c = .ok (c == '1') := by
  cases h with
  | inl hzero => rw [hzero]; rfl
  | inr hone => rw [hone]; rfl

theorem parseState_of_not_isBit (h : ¬ IsBit c) : parseState c = .error (.badState c) := by
  rw [IsBit, not_or] at h
  rw [parseState, if_neg h.1, if_neg h.2]

theorem parseStates_of_bits (h : ∀ c ∈ text, IsBit c) :
    parseStates text = .ok (statesOf text) := by
  rw [parseStates_eq, mapM_eq_ok_iff, statesOf, List.forall₂_map_right_iff, List.forall₂_same]
  intro c hc
  exact parseState_of_isBit (h c (List.mem_reverse.mp hc))

/-- Reading starts at the end, so what is told is the last character that is no bit. -/
theorem parseStates_of_not_bit {before after : List Char} (hc : ¬ IsBit c)
    (hafter : ∀ d ∈ after, IsBit d) :
    parseStates (before ++ c :: after) = .error (.badState c) := by
  rw [parseStates_eq, mapM_eq_error_iff]
  refine ⟨after.reverse, c, before.reverse, ?_, ?_, parseState_of_not_isBit hc⟩
  · rw [List.reverse_append, List.reverse_cons, List.append_assoc]
    rfl
  · intro d hd
    exact ⟨_, parseState_of_isBit (hafter d (List.mem_reverse.mp hd))⟩

example : parseStates "01x1y1".toList = .error (.badState 'y') := by decide

/-- The last of the characters that are no bits. -/
theorem exists_last_not_bit (h : ¬ ∀ c ∈ text, IsBit c) :
    ∃ before c after, text = before ++ c :: after ∧ ¬ IsBit c ∧ ∀ d ∈ after, IsBit d := by
  induction text with
  | nil => exact absurd (List.forall_mem_nil _) h
  | cons first rest ih =>
    by_cases hrest : ∀ c ∈ rest, IsBit c
    · refine ⟨[], first, rest, rfl, fun hfirst => h ?_, hrest⟩
      exact List.forall_mem_cons.mpr ⟨hfirst, hrest⟩
    · obtain ⟨before, c, after, hsplit, hc, hafter⟩ := ih hrest
      exact ⟨first :: before, c, after, congrArg _ hsplit, hc, hafter⟩

/-- The digits of a numeral are appended to a value from the left, and their states stand for them
from the right. -/
theorem ofDigitChars_two (h : ∀ c ∈ text, IsBit c) (value : Nat) :
    Nat.ofDigitChars 2 text value =
      Bits.number (statesOf text) + 2 ^ text.length * value := by
  induction text generalizing value with
  | nil => simp [statesOf, Bits.number]
  | cons c rest ih =>
    obtain ⟨hc, hrest⟩ := List.forall_mem_cons.mp h
    have hdigit : c.toNat - '0'.toNat = Bits.number [c == '1'] := by
      cases hc with
      | inl hzero => rw [hzero]; rfl
      | inr hone => rw [hone]; rfl
    have hstates : statesOf (c :: rest) = statesOf rest ++ [c == '1'] := by
      rw [statesOf, List.reverse_cons, List.map_append]
      rfl
    rw [Nat.ofDigitChars_cons, ih hrest, hdigit, hstates, Bits.number_append, length_statesOf,
      List.length_cons, Nat.pow_succ]
    ring

/-- The states are packed into the bytes of the number that the text is a numeral of. -/
theorem pack_statesOf (h : ∀ c ∈ text, IsBit c) :
    Bits.pack (statesOf text) =
      (Nat.digitsAppend 256 ((text.length + 7) / 8) (Nat.ofDigitChars 2 text 0)).map
        UInt8.ofNat := by
  rw [Bits.pack_eq_digitsAppend, ofDigitChars_two h, length_statesOf]
  rfl

end States

/-! ### Contents of registers -/

/-- A field holds a content: the numeral of a word, with blanks around it. -/
def Holds (field : List Char) (content : UInt16) : Prop :=
  Numeral.Denotes (Text.trim field) content.toNat

section Contents

variable {text : List Char} {contents : List UInt16}

theorem parseField_eq_ok_iff {field : List Char} {content : UInt16} :
    (Numeral.parseWord (Text.trim field)).mapError ValuesError.badNumber = .ok content ↔
      Holds field content := by
  rw [mapError_eq_ok_iff, Numeral.parseWord_eq_ok_iff, Holds]

theorem parseContents_eq_ok_iff : parseContents text = .ok contents ↔
    List.Forall₂ Holds (text.splitOn ',') contents := by
  rw [parseContents, Text.fields_eq_splitOn, mapM_eq_ok_iff]
  simp only [parseField_eq_ok_iff]

theorem exists_content_iff {field : List Char} : (∃ content, Holds field content) ↔
    ∃ n ≤ 65535, Numeral.Denotes (Text.trim field) n := by
  simp only [Holds, ← Numeral.parseWord_eq_ok_iff, Numeral.parseWord_isOk_iff, and_comm]

/-- A row is read if every field is a numeral of a number that fits a register. -/
theorem exists_contents_iff : (∃ contents, parseContents text = .ok contents) ↔
    ∀ field ∈ text.splitOn ',', ∃ n ≤ 65535, Numeral.Denotes (Text.trim field) n := by
  rw [parseContents, Text.fields_eq_splitOn, exists_mapM_eq_ok_iff]
  simp only [parseField_eq_ok_iff, exists_content_iff]

/-- Otherwise it is refused because of the first field that is not. -/
theorem parseContents_of_fault (h : ¬ ∃ contents, parseContents text = .ok contents) :
    ∃ before field after fault, text.splitOn ',' = before ++ field :: after ∧
      (∀ earlier ∈ before, ∃ content, Holds earlier content) ∧
      Numeral.parseWord (Text.trim field) = .error fault ∧
      parseContents text = .error (.badNumber fault) := by
  cases hresult : parseContents text with
  | ok contents => exact absurd ⟨contents, hresult⟩ h
  | error error =>
    rw [parseContents, Text.fields_eq_splitOn] at hresult
    obtain ⟨before, field, after, hsplit, hbefore, hrefused⟩ := mapM_eq_error_iff.mp hresult
    simp only [parseField_eq_ok_iff] at hbefore
    cases hfault : Numeral.parseWord (Text.trim field) with
    | ok content =>
      rw [hfault] at hrefused
      cases hrefused
    | error fault =>
      rw [hfault] at hrefused
      cases hrefused
      exact ⟨before, field, after, fault, hsplit, hbefore, hfault, rfl⟩

end Contents

end ModbusMaster.Client
