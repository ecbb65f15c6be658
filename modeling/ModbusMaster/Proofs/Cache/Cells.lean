import ModbusMaster.Cache.Store
import ModbusMaster.Proofs.Equipment.Service
import ModbusMaster.Proofs.Results

/-!
Cells as they are asked for and sliced. The answer to a request for a block has the kind of cells
that the function reads, and as many of them as the block has addresses.
-/

namespace ModbusMaster

theorem length_wordsOf (bytes : Bytes) : (wordsOf bytes).length = bytes.length / 2 := by
  induction bytes using wordsOf.induct with
  | case1 high low rest ih =>
    rw [wordsOf, List.length_cons, ih, List.length_cons, List.length_cons]
    omega
  | case2 bytes hshort =>
    rcases bytes with _ | ⟨byte, _ | ⟨other, rest⟩⟩
    case nil => rfl
    case cons.nil =>
      show 0 = 1 / 2
      rfl
    case cons.cons => exact absurd rfl (hshort byte other rest)

namespace Cells

/-- The cells are of the kind that a function reads. -/
def AreOf : Cells → CacheFunction → Prop
  | bits _, .readInputStatus | bits _, .readMultipleCoils => True
  | registers _, .readHoldingRegisters | registers _, .readInputRegisters => True
  | _, _ => False

def length : Cells → Nat
  | bits states => states.length
  | registers contents => contents.length

/-- The `count` cells from an offset on. -/
def part (offset count : Nat) : Cells → Cells
  | bits states => bits ((states.drop offset).take count)
  | registers contents => registers ((contents.drop offset).take count)

variable {cells : Cells} {offset count : Nat}

theorem slice?_of_le (h : offset + count ≤ cells.length) :
    cells.slice? offset count = some (cells.part offset count) := by
  cases cells with
  | bits states => exact if_pos h
  | registers contents => exact if_pos h

theorem length_part (h : offset + count ≤ cells.length) :
    (cells.part offset count).length = count := by
  cases cells with
  | bits states =>
    have hle : offset + count ≤ states.length := h
    show ((states.drop offset).take count).length = count
    rw [List.length_take, List.length_drop]
    omega
  | registers contents =>
    have hle : offset + count ≤ contents.length := h
    show ((contents.drop offset).take count).length = count
    rw [List.length_take, List.length_drop]
    omega

/-- A part is of the kind of the whole. -/
theorem AreOf.part {function : CacheFunction} (h : cells.AreOf function) :
    (cells.part offset count).AreOf function := by
  cases cells <;> cases function <;> exact h

end Cells

namespace Request

open Operation

variable {range : AddressRange} {limit start count : UInt16}

theorem rangeFor_eq_ok (h : rangeFor limit start count = .ok range) :
    range = ⟨start, count⟩ ∧ range.Fits limit.toNat := by
  rw [rangeFor_eq] at h
  split at h
  next => cases h
  next heq =>
    cases h
    exact ⟨rfl, fits_of_rangeRefusal? heq⟩

/-- A range that fits is not refused. -/
theorem rangeFor_of_fits (h : AddressRange.Fits ⟨start, count⟩ limit.toNat) :
    rangeFor limit start count = .ok ⟨start, count⟩ := by
  have hrefusal : rangeRefusal? limit start count = none := by
    have hpos := h.count_pos
    have hstop := h.stop_le
    have hcount := h.count_le
    dsimp only at hpos hstop hcount
    rw [rangeRefusal?, if_neg (by omega), if_neg (by omega), if_neg (by omega)]
  rw [rangeFor_eq, hrefusal]

theorem length_of_countedBytes {data bytes : Bytes} {expected : Nat}
    (h : countedBytes data expected = .ok bytes) : bytes.length = expected := by
  unfold countedBytes at h
  split at h
  next => cases h
  next =>
    split at h
    next hcount =>
      cases h
      rw [List.length_take]
      exact Nat.min_eq_left hcount.2
    next => cases h

theorem length_of_bits {function : Function} {data : Bytes} {states : List Bool}
    (h : (bits function range).answer data = .ok states) : states.length = range.count.toNat := by
  simp only [bits] at h
  cases hpacked : countedBytes data (Bits.byteCount range.count.toNat) with
  | error error =>
    rw [hpacked] at h
    cases h
  | ok packed =>
    rw [hpacked] at h
    simp only [bind, Except.bind] at h
    split at h
    next heq =>
      cases h
      exact Bits.length_of_unpack? heq
    next => cases h

theorem length_of_registers {function : Function} {data : Bytes} {contents : List UInt16}
    (h : (registers function range).answer data = .ok contents) :
    contents.length = range.count.toNat := by
  simp only [registers] at h
  cases hbytes : countedBytes data (2 * range.count.toNat) with
  | error error =>
    rw [hbytes] at h
    cases h
  | ok bytes =>
    rw [hbytes] at h
    cases h
    rw [length_wordsOf, length_of_countedBytes hbytes]
    omega

end Request

namespace CacheFunction

variable {function : CacheFunction} {range : AddressRange} {start count : UInt16}

/-- The request for a range that has passed its checks. -/
def requestOf (range : AddressRange) : CacheFunction → Request Cells
  | readHoldingRegisters => (Request.registers .readHoldingRegisters range).map .registers
  | readInputRegisters => (Request.registers .readInputRegisters range).map .registers
  | readInputStatus => (Request.bits .readDiscreteInputs range).map .bits
  | readMultipleCoils => (Request.bits .readCoils range).map .bits

/-- A request is made of a range that is within the limit of its kind of cell. -/
theorem request_eq (function : CacheFunction) (start count : UInt16) :
    function.request start count =
      (function.requestOf ·) <$> Request.rangeFor function.limit start count := by
  cases function with
  | readHoldingRegisters => exact (comp_map _ _ _).symm
  | readInputRegisters => exact (comp_map _ _ _).symm
  | readInputStatus => exact (comp_map _ _ _).symm
  | readMultipleCoils => exact (comp_map _ _ _).symm

theorem request_eq_ok {request : Request Cells} (h : function.request start count = .ok request) :
    request = function.requestOf ⟨start, count⟩ ∧
      AddressRange.Fits ⟨start, count⟩ function.limit.toNat := by
  rw [request_eq] at h
  cases hrange : Request.rangeFor function.limit start count with
  | error cause =>
    rw [hrange] at h
    cases h
  | ok range =>
    rw [hrange] at h
    cases h
    obtain ⟨rfl, hfits⟩ := Request.rangeFor_eq_ok hrange
    exact ⟨rfl, hfits⟩

theorem request_of_fits (h : AddressRange.Fits ⟨start, count⟩ function.limit.toNat) :
    function.request start count = .ok (function.requestOf ⟨start, count⟩) := by
  rw [request_eq, Request.rangeFor_of_fits h]
  rfl

theorem request_of_error {cause : InvalidRange} (h : AddressRange.of start count = .error cause) :
    function.request start count = .error (.badRange cause) := by
  rw [request_eq, Request.rangeFor, AddressRange.limited, h]
  rfl

theorem requestOf_sized (h : range.Fits function.limit.toNat) :
    (function.requestOf range).Sized := by
  have hcount := h.count_le
  have hpayload : (function.requestOf range).payload.length = 4 := by
    cases function <;> rfl
  have hreply : (function.requestOf range).replyLength ≤ 254 := by
    cases function with
    | readHoldingRegisters | readInputRegisters =>
      show 2 + 2 * range.count.toNat ≤ 254
      have : range.count.toNat ≤ 120 := hcount
      omega
    | readInputStatus | readMultipleCoils =>
      show 2 + Bits.byteCount range.count.toNat ≤ 254
      have : range.count.toNat ≤ 2000 := hcount
      rw [Bits.byteCount]
      omega
  exact ⟨Nat.le_trans (Nat.le_of_eq hpayload) (by decide), hreply⟩

/-- The answer to a request has the kind and the number of cells that were asked for. -/
theorem answerOf_requestOf {reply : Bytes} {cells : Cells}
    (h : (function.requestOf range).answerOf reply = .ok cells) :
    cells.AreOf function ∧ cells.length = range.count.toNat := by
  cases reply with
  | nil => cases h
  | cons echo data =>
    simp only [Request.answerOf] at h
    split at h
    next =>
      cases function with
      | readHoldingRegisters | readInputRegisters =>
        obtain ⟨contents, hanswer, rfl⟩ := Results.map_eq_ok_iff.mp h
        exact ⟨trivial, Request.length_of_registers hanswer⟩
      | readInputStatus | readMultipleCoils =>
        obtain ⟨states, hanswer, rfl⟩ := Results.map_eq_ok_iff.mp h
        exact ⟨trivial, Request.length_of_bits hanswer⟩
    next => cases h

end CacheFunction

end ModbusMaster
