import ModbusMaster.Text.Hex

/-!
Node addresses. Node 0 stands for every node at once; on a serial line the addresses from 248 on
are reserved.
-/

namespace ModbusMaster

structure UnitId where
  value : UInt8
  deriving DecidableEq

namespace UnitId

/-- The address of every node at once. -/
def broadcast : UnitId := ⟨0⟩

/-- The address when none is given. -/
def default : UnitId := ⟨1⟩

/-- Whether the address must not be used on a serial line. -/
def isRtuReserved (unit : UnitId) : Bool :=
  248 ≤ unit.value.toNat

def describe (unit : UnitId) : String :=
  Hex.byteLiteral unit.value

end UnitId

end ModbusMaster
