import Mathlib.Data.List.GetD
import ModbusMaster.Operation

/-!
The memory of the equipment, as a caller thinks of it: a cell at every address, reads that return
cells in the order of their addresses, and writes that change the addressed cells and no others.
`Image.perform` says what every operation answers and makes of the memory, without a word about
requests or frames.
-/

namespace ModbusMaster

/-- Cells of one kind, one at every address. -/
abbrev Memory (α : Type) := UInt16 → α

namespace Memory

variable {α : Type} {memory : Memory α} {start address : UInt16} {values : List α}

/-- The contents of `count` cells from an address on. -/
def read (memory : Memory α) (start : UInt16) (count : Nat) : List α :=
  (List.range count).map fun i => memory (start + UInt16.ofNat i)

/-- The memory after the cells from an address on were given values. -/
def write (memory : Memory α) (start : UInt16) (values : List α) : Memory α := fun address =>
  if start ≤ address then values.getD (address.toNat - start.toNat) (memory address)
  else memory address

@[simp] theorem length_read (count : Nat) : (memory.read start count).length = count := by
  simp [read]

/-- A cell outside the range written keeps its content. -/
theorem write_of_outside
    (h : address.toNat < start.toNat ∨ start.toNat + values.length ≤ address.toNat) :
    memory.write start values address = memory address := by
  unfold write
  by_cases hstart : start ≤ address
  · have hle : start.toNat ≤ address.toNat := hstart
    rw [if_pos hstart, List.getD_eq_default _ _ (by omega)]
  · exact if_neg hstart

/-- What was written is read back. -/
theorem read_write (h : start.toNat + values.length ≤ 65536) :
    (memory.write start values).read start values.length = values := by
  apply List.ext_getElem
  · exact length_read values.length
  · intro i _ hi
    have haddress : (start + UInt16.ofNat i).toNat = start.toNat + i := by
      rw [UInt16.toNat_add, UInt16.toNat_ofNat_of_lt' (show i < 65536 by omega)]
      exact Nat.mod_eq_of_lt (by omega)
    have hstart : start ≤ start + UInt16.ofNat i := by
      apply UInt16.le_iff_toNat_le.mpr
      omega
    simp only [read, write, List.getElem_map, List.getElem_range, if_pos hstart, haddress,
      Nat.add_sub_cancel_left]
    exact List.getD_eq_getElem values _ hi

end Memory

/-- The memory of one piece of equipment. -/
structure Image where
  coils : Memory Bool
  discreteInputs : Memory Bool
  holding : Memory UInt16
  inputs : Memory UInt16
  exceptionStatus : UInt8
  counter : EventCounter

namespace Operation

/-- Why cells from an address on cannot be asked for, at most `limit` of them at once. -/
def rangeRefusal? (limit start count : UInt16) : Option InvalidRequest :=
  if count.toNat = 0 then some (.badRange .countOfZero)
  else if 65536 < start.toNat + count.toNat then some (.badRange (.addressOverflow start count))
  else if limit.toNat < count.toNat then some (.badRange (.countTooLargeForType count limit))
  else none

/-- Why so many values cannot be written from an address on. -/
def valuesRefusal? (limit start : UInt16) (values : Nat) : Option InvalidRequest :=
  if 65535 < values then some (.countTooBigForWord values)
  else rangeRefusal? limit start (UInt16.ofNat values)

/-- Why an operation is refused before anything is sent. -/
def refusal? : Operation → Option InvalidRequest
  | readCoils start count | readDiscreteInputs start count => rangeRefusal? 2000 start count
  | readHoldingRegisters start count | readInputRegisters start count =>
      rangeRefusal? 120 start count
  | writeCoils start states => valuesRefusal? 1968 start states.length
  | writeRegisters start contents => valuesRefusal? 120 start contents.length
  | readWriteRegisters readStart readCount writeStart contents =>
      (rangeRefusal? 120 readStart readCount).or (valuesRefusal? 120 writeStart contents.length)
  | _ => none

end Operation

namespace Image

/-- The memory of equipment that was just switched on. -/
def blank : Image where
  coils _ := false
  discreteInputs _ := false
  holding _ := 0
  inputs _ := 0
  exceptionStatus := 0
  counter := ⟨0, 0⟩

/-- The answer to an operation whose arguments are accepted. -/
def answer (image : Image) : Operation → Value
  | .readCoil address => .bit (image.coils address)
  | .readCoils start count => .bits (image.coils.read start count.toNat)
  | .readDiscreteInputs start count => .bits (image.discreteInputs.read start count.toNat)
  | .readHoldingRegisters start count => .registers (image.holding.read start count.toNat)
  | .readInputRegisters start count => .registers (image.inputs.read start count.toNat)
  | .readWriteRegisters readStart readCount writeStart contents =>
      .registers ((image.holding.write writeStart contents).read readStart readCount.toNat)
  | .readExceptionStatus => .byte image.exceptionStatus
  | .fetchEventCounter => .counter image.counter
  | _ => .nothing

/-- The memory after an operation whose arguments are accepted. -/
def after (image : Image) : Operation → Image
  | .writeCoil address state => { image with coils := image.coils.write address [state] }
  | .writeCoils start states => { image with coils := image.coils.write start states }
  | .writeRegister address content | .broadcastRegister address content =>
      { image with holding := image.holding.write address [content] }
  | .writeRegisters start contents =>
      { image with holding := image.holding.write start contents }
  | .maskWriteRegister address andMask orMask =>
      let content := (image.holding address &&& andMask) ||| (orMask &&& ~~~andMask)
      { image with holding := image.holding.write address [content] }
  | .readWriteRegisters _ _ writeStart contents =>
      { image with holding := image.holding.write writeStart contents }
  | _ => image

/-- What an operation answers and makes of the memory. -/
def perform (image : Image) (operation : Operation) : Except RequestError Value × Image :=
  match operation.refusal? with
  | some cause => (.error (.badRequest cause), image)
  | none => (.ok (image.answer operation), image.after operation)

/-- What operations answer and make of the memory, one after the other. -/
def performAll (image : Image) : List Operation → List (Except RequestError Value) × Image
  | [] => ([], image)
  | operation :: rest =>
      let (result, image) := image.perform operation
      let (results, image) := image.performAll rest
      (result :: results, image)

end Image

end ModbusMaster
