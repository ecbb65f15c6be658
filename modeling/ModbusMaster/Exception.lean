/-!
Exception codes: the reason that the equipment gives for refusing a request. Ten codes are
defined; every other byte is kept as it came.
-/

namespace ModbusMaster

inductive ExceptionCode where
  | illegalFunction
  | illegalDataAddress
  | illegalDataValue
  | serverDeviceFailure
  | acknowledge
  | serverDeviceBusy
  | negativeAcknowledge
  | memoryParityError
  | gatewayPathUnavailable
  | gatewayTargetDeviceFailedToRespond
  | unknown (code : UInt8)
  deriving DecidableEq, Repr

namespace ExceptionCode

def ofByte (code : UInt8) : ExceptionCode :=
  match code.toNat with
  | 1 => illegalFunction
  | 2 => illegalDataAddress
  | 3 => illegalDataValue
  | 4 => serverDeviceFailure
  | 5 => acknowledge
  | 6 => serverDeviceBusy
  | 7 => negativeAcknowledge
  | 8 => memoryParityError
  | 10 => gatewayPathUnavailable
  | 11 => gatewayTargetDeviceFailedToRespond
  | _ => unknown code

def toByte : ExceptionCode → UInt8
  | illegalFunction => 1
  | illegalDataAddress => 2
  | illegalDataValue => 3
  | serverDeviceFailure => 4
  | acknowledge => 5
  | serverDeviceBusy => 6
  | negativeAcknowledge => 7
  | memoryParityError => 8
  | gatewayPathUnavailable => 10
  | gatewayTargetDeviceFailedToRespond => 11
  | unknown code => code

/-- What the equipment means by the code. -/
def message : ExceptionCode → String
  | illegalFunction => "Function code not allowed"
  | illegalDataAddress => "Register address not allowed"
  | illegalDataValue => "Register value not allowed"
  | serverDeviceFailure => "Unrecoverable error occurred"
  | acknowledge => "Request has been accepted but processing may be long"
  | serverDeviceBusy => "Device is busy"
  | negativeAcknowledge => "Requested function cannot be performed"
  | memoryParityError => "Parity error in the memory"
  | gatewayPathUnavailable => "Gateway Path Unavailable"
  | gatewayTargetDeviceFailedToRespond => "No response from gateway"
  | unknown code => s!"Unknown modbus error code [{code.toNat}]"

/-- What an operator can do about it. -/
def hint : ExceptionCode → String
  | illegalFunction => "check that the equipment supports this function code"
  | illegalDataAddress =>
      "check the start address and count against the equipment register map"
  | illegalDataValue => "check the written values and the requested count"
  | serverDeviceFailure => "inspect the equipment, it reported an internal fault"
  | acknowledge => "poll the equipment again later for completion"
  | serverDeviceBusy => "retry the request later"
  | negativeAcknowledge => "the equipment cannot perform this request in its current mode"
  | memoryParityError => "the equipment memory may need servicing"
  | gatewayPathUnavailable => "check the gateway configuration and load"
  | gatewayTargetDeviceFailedToRespond =>
      "check that the target node is present behind the gateway"
  | unknown _ => "consult the equipment documentation for this code"

/-- The name of a code, without the byte of an unknown one. -/
def name : ExceptionCode → String
  | illegalFunction => "IllegalFunction"
  | illegalDataAddress => "IllegalDataAddress"
  | illegalDataValue => "IllegalDataValue"
  | serverDeviceFailure => "ServerDeviceFailure"
  | acknowledge => "Acknowledge"
  | serverDeviceBusy => "ServerDeviceBusy"
  | negativeAcknowledge => "NegativeAcknowledge"
  | memoryParityError => "MemoryParityError"
  | gatewayPathUnavailable => "GatewayPathUnavailable"
  | gatewayTargetDeviceFailedToRespond => "GatewayTargetDeviceFailedToRespond"
  | unknown _ => "Unknown"

/-- The codes that the standard defines. -/
def defined : List ExceptionCode :=
  [illegalFunction, illegalDataAddress, illegalDataValue, serverDeviceFailure, acknowledge,
   serverDeviceBusy, negativeAcknowledge, memoryParityError, gatewayPathUnavailable,
   gatewayTargetDeviceFailedToRespond]

/-- The name of a code, an unknown one with its byte. -/
def describe : ExceptionCode → String
  | unknown code => s!"Unknown({code.toNat})"
  | code => code.name

end ExceptionCode

end ModbusMaster
