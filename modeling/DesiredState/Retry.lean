import DesiredState.Config

/-!
What a remote failure asks for: a change by the user, a short wait, or nothing known. The code of
an operation in flight wins over every list of final codes.
-/
namespace DesiredState

inductive Classification where
  | terminal
  | conflict
  | unknown
  deriving DecidableEq, Repr

structure Directive where
  classification : Classification
  backoff : Option Delay
  deriving DecidableEq, Repr

namespace Directive

def conflictCode : String := "ResourceInUseException"

def terminalCodes : List String :=
  ["ResourceLimitExceeded", "ResourceNotFound", "ResourceInUse", "OptInRequired", "InvalidParameterCombination",
    "InvalidParameterValue", "InvalidParameterException", "InvalidQueryParameter", "MalformedQueryString",
    "MissingAction", "MissingParameter", "ValidationError", "AccessDeniedException"]

def ofFault (config : Config) (f : RemoteFault) : Directive :=
  if f.code == conflictCode then ⟨.conflict, some config.conflictBackoff⟩
  else if terminalCodes.contains f.code || config.extraTerminalCodes.contains f.code then ⟨.terminal, none⟩
  else ⟨.unknown, none⟩

end Directive
end DesiredState
