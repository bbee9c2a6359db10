/-!
# Refusals of a service

A request to a service is refused with a code, and perhaps a message, or without a code: then the service has
answered without one, or was not reached at all, and only the client of the service can say what happened.
-/

namespace Tidemark

inductive Refusal where
  | coded (code : String) (message : Option String)
  /-- Told in the words of the client. -/
  | uncoded (shown : String)
  deriving DecidableEq, Repr

namespace Refusal

def code? : Refusal → Option String
  | coded code _ => code
  | uncoded _ => none

/-- The code with the message after it, or the words of the client. -/
def text : Refusal → String
  | coded code (some message) => code ++ ": " ++ message
  | coded code none => code
  | uncoded shown => shown

end Refusal

end Tidemark
