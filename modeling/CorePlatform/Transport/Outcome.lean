/-! # How a consumer worker classifies one processed message -/

namespace CorePlatform.Transport

/-- `Done` and `Reject` end a delivery; `Retry` asks for another attempt. -/
inductive ProcessOutcome where
  | done
  | retry (reason : String)
  | reject (reason : String)
  deriving DecidableEq

/-- `ClassifyError` together with the error's `Display` text. -/
class ClassifyError (ε : Type) where
  isRetryable : ε → Bool
  display : ε → String

def ProcessOutcome.fromResult {ε : Type} [ClassifyError ε] : Except ε Unit → ProcessOutcome
  | .ok () => .done
  | .error e =>
    if ClassifyError.isRetryable e then .retry (ClassifyError.display e)
    else .reject (ClassifyError.display e)

end CorePlatform.Transport
