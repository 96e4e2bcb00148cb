namespace LoadPacing

inductive GateFailure where
  | cancelled
  | timedOut
  deriving DecidableEq

def GateFailure.message : GateFailure → String
  | .cancelled => "rate limiter acquire was cancelled"
  | .timedOut => "timed out waiting for a rate limiter permit"

inductive Failure where
  | deadlineExceeded (message : String)
  | unavailable (message : String)
  | rejected (code : Int) (message : String)
  | transport (source : Failure)
  | elapsed
  | gate (failure : GateFailure)
  | other (message : String)
  deriving DecidableEq

namespace Failure

def message : Failure → String
  | .deadlineExceeded message => "deadline exceeded: " ++ message
  | .unavailable message => "service unavailable: " ++ message
  | .rejected code message => "call rejected (code " ++ toString code ++ "): " ++ message
  | .transport source => "transport error: " ++ source.message
  | .elapsed => "request timed out"
  | .gate failure => failure.message
  | .other message => message

-- A deadline that the transport wraps does not count.
def isDeadline : Failure → Bool
  | .deadlineExceeded _ | .elapsed => true
  | _ => false

def classified : Failure → Option Bool
  | .deadlineExceeded _ => some true
  | .unavailable _ | .rejected _ _ | .transport _ => some false
  | .elapsed => some true
  | .gate _ | .other _ => none

def source : Failure → Option Failure
  | .transport source => some source
  | _ => none

end Failure
end LoadPacing
