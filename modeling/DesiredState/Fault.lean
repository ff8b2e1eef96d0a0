/-!
Failures. A remote failure keeps the code its sender gave it; every other failure arises here or in
the client that writes statuses. Some failures pass when tried again, others wait for a new spec.
-/
namespace DesiredState

structure RemoteFault where
  code : String
  message : String
  deriving DecidableEq, Repr

def RemoteFault.text (f : RemoteFault) : String := s!"{f.code}: {f.message}"

def RemoteFault.hasCode (f : RemoteFault) (code : String) : Bool := f.code == code

inductive Fault where
  /-- The status client failed, with the code of an answer or without an answer. -/
  | kubernetes (code : Option Nat)
  | remote (operation : String) (cause : RemoteFault)
  | validation (resource : String) (field : Option String) (why : String)
  | version (text why : String)
  | serialization (kind : Option String) (why : String)
  | internal (context why : String)
  deriving DecidableEq, Repr

namespace Fault

def unknownContext : String := "unknown"

def message? : Fault → Option String
  | .kubernetes _ => none
  | .remote operation cause => some s!"remote error during {operation}: {cause.text}"
  | .validation resource _ why => some s!"validation error for {resource}: {why}"
  | .version text why => some s!"invalid version '{text}': {why}"
  | .serialization _ why => some s!"serialization error: {why}"
  | .internal context why => some s!"internal error [{context}]: {why}"

/-- Whether the same request may succeed later. An answer with a code in 400..499 is final. -/
def isRetryable : Fault → Bool
  | .kubernetes none => true
  | .kubernetes (some code) => !(400 ≤ code && code < 500)
  | .remote _ _ => true
  | .validation _ _ _ => false
  | .version _ _ => false
  | .serialization _ _ => false
  | .internal _ _ => true

def resource? : Fault → Option String
  | .validation resource _ _ => some resource
  | _ => none

def remoteCode? : Fault → Option String
  | .remote _ cause => some cause.code
  | _ => none

end Fault
end DesiredState
