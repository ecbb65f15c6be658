import ModbusMaster.Bytes

/-!
The 16-bit cyclic redundancy check of serial frames: reflected polynomial `0xA001`, all ones at
the start, no final inversion, sent low byte first.
-/

namespace ModbusMaster.Crc

/-- The generator polynomial, least significant bit first. -/
def polynomial : UInt16 := 0xA001

/-- Divides out one bit of the remainder. -/
def shift (crc : UInt16) : UInt16 :=
  if crc &&& 1 = 1 then (crc >>> 1) ^^^ polynomial else crc >>> 1

/-- Takes one more byte into the remainder. -/
def feed (crc : UInt16) (byte : UInt8) : UInt16 :=
  Nat.repeat shift 8 (crc ^^^ byte.toUInt16)

/-- The remainder before the first byte. -/
def start : UInt16 := 0xFFFF

/-- The check value of a byte string. -/
def of (data : Bytes) : UInt16 :=
  data.foldl feed start

theorem foldl_feed_append (crc : UInt16) (a b : Bytes) :
    (a ++ b).foldl feed crc = b.foldl feed (a.foldl feed crc) :=
  List.foldl_append

end ModbusMaster.Crc
