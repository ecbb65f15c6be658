import ModbusMaster.Action

/-!
Repeating an operation that failed. Only failures of the medium and of the protocol are worth
another attempt; the answer to anything else would not change.
-/

namespace ModbusMaster

/-- Whether another attempt may end differently. -/
def RequestError.isTransient (error : RequestError) : Bool :=
  match error.errorClass with
  | .transport | .protocol => true
  | _ => false

structure RetryPolicy where
  /-- How many attempts may follow the first one. -/
  count : UInt16 := 0
  /-- The time between two attempts. -/
  sleep : Duration := 0
  deriving DecidableEq

namespace RetryPolicy

variable {α : Type}

/-- Makes an attempt, and up to `left` more while they fail in a way that may pass. -/
def attempts (pause : Duration) (attempt : Action (Except RequestError α)) :
    Nat → Action (Except RequestError α)
  | 0 => attempt
  | left + 1 => do
      match ← attempt with
      | .ok result => return .ok result
      | .error error =>
          if error.isTransient then
            Action.report (.attemptFailed error (left + 1))
            if pause ≠ 0 then Action.sleep pause
            attempts pause attempt left
          else return .error error

def run (policy : RetryPolicy) (attempt : Action (Except RequestError α)) :
    Action (Except RequestError α) :=
  attempts policy.sleep attempt policy.count.toNat

end RetryPolicy

end ModbusMaster
