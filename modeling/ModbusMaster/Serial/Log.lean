import ModbusMaster.Bytes
import ModbusMaster.Text.Hex

/-!
The diagnostic log of a serial transport: one entry for each exchange that failed, with the frame
that was sent and the bytes that came back, sixteen to a line behind their offset.
-/

namespace ModbusMaster.Serial

/-- One failed exchange. -/
structure LogEntry where
  reason : String
  sent : Bytes
  received : Bytes
  deriving DecidableEq

namespace LogEntry

/-- The line above every entry. -/
def separator : String :=
  "-------------------------------------------------"

/-- Lines of sixteen bytes behind a label and the offset of the first one. -/
def dump (label : String) (bytes : Bytes) : List String :=
  (chunks 16 bytes).mapIdx fun i line =>
    label ++ ": " ++ Hex.padded 4 (16 * i) ++ " " ++ Hex.spaced line

/-- The lines of an entry; `time` is the time of day in words. -/
def lines (entry : LogEntry) (time : String) : List String :=
  [separator, s!"Failure ({entry.reason}) at {time}"] ++ dump "Send" entry.sent ++
    if entry.received = [] then ["Recv: No response"] else dump "Recv" entry.received

/-- The text of an entry. -/
def text (entry : LogEntry) (time : String) : String :=
  String.join ((entry.lines time).map (· ++ "\n"))

end LogEntry

end ModbusMaster.Serial
