import ModbusMaster.Error
import ModbusMaster.Operation
import ModbusMaster.Text.Blank
import ModbusMaster.Text.Numeral

/-!
What the client is asked to do: an operation, perhaps with values that are written as text. The
text is read only when the job is done.
-/

namespace ModbusMaster.Client

/-- Why a text is not a row of values. -/
inductive ValuesError where
  | badNumber (fault : Numeral.Fault)
  | badState (c : Char)
  deriving DecidableEq

def ValuesError.message : ValuesError → String
  | badNumber fault => fault.message
  | badState c => "bad character in bit string: " ++ String.singleton c

/-- The states that a row of zeros and ones stands for; the last one comes first. -/
def parseStates (text : List Char) : Except ValuesError (List Bool) :=
  text.reverse.mapM fun c =>
    if c = '0' then .ok false
    else if c = '1' then .ok true
    else .error (.badState c)

/-- The contents of registers with commas between them and blanks around them. -/
def parseContents (text : List Char) : Except ValuesError (List UInt16) :=
  (Text.fields ',' text).mapM fun field =>
    (Numeral.parseWord (Text.trim field)).mapError .badNumber

inductive Job where
  | perform (operation : Operation)
  | writeCoils (start : UInt16) (states : String)
  | writeRegisters (start : UInt16) (contents : String)
  | readWriteRegisters (readStart readCount writeStart : UInt16) (contents : String)
  deriving DecidableEq

namespace Job

/-- The operation of a job. -/
def operation : Job → Except ValuesError Operation
  | perform operation => .ok operation
  | writeCoils start states =>
      (parseStates states.toList).map (.writeCoils start)
  | writeRegisters start contents =>
      (parseContents contents.toList).map (.writeRegisters start)
  | readWriteRegisters readStart readCount writeStart contents =>
      (parseContents contents.toList).map (.readWriteRegisters readStart readCount writeStart)

end Job

end ModbusMaster.Client
