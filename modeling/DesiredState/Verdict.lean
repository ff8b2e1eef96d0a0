import DesiredState.Condition
import DesiredState.Config

/-!
Verdicts: the one outcome of a pass, its two conditions, and when the next pass is due.
-/
namespace DesiredState

inductive Verdict where
  | wait (reason : String) (retryAfter : Delay)
  | terminal (reason : String)
  | applied (category : String)
  | converged
  deriving DecidableEq, Repr

inductive Action where
  | requeue (after : Delay)
  | awaitChange
  deriving DecidableEq, Repr

namespace Verdict

def label : Verdict → String
  | .wait _ _ => "wait"
  | .terminal _ => "terminal"
  | .applied _ => "applied"
  | .converged => "converged"

def text : Verdict → String
  | .wait reason retryAfter => s!"wait {retryAfter.seconds}s: {reason}"
  | .terminal reason => s!"terminal: {reason}"
  | .applied category => s!"applied {category}"
  | .converged => "converged"

def isTerminal : Verdict → Bool
  | .terminal _ => true
  | _ => false

def isApplied : Verdict → Bool
  | .applied _ => true
  | _ => false

def synced (now : Int) : Verdict → Condition
  | .converged => ⟨Condition.syncedType, .true, "Converged", "", now⟩
  | .applied category => ⟨Condition.syncedType, .false, "UpdateInProgress", s!"applied {category} update", now⟩
  | .wait reason _ => ⟨Condition.syncedType, .false, "Waiting", reason, now⟩
  | .terminal reason => ⟨Condition.syncedType, .false, "Terminal", reason, now⟩

def stopped (now : Int) : Verdict → Condition
  | .terminal reason => ⟨Condition.terminalType, .true, "TerminalError", reason, now⟩
  | _ => ⟨Condition.terminalType, .false, "NoError", "", now⟩

def conditions (v : Verdict) (now : Int) : List Condition := [v.synced now, v.stopped now]

def action (config : Config) : Verdict → Action
  | .wait _ retryAfter => .requeue retryAfter
  | .applied _ => .requeue config.asyncUpdateRequeue
  | .converged => .requeue config.resyncPeriod
  | .terminal _ => .awaitChange

end Verdict

/-- After a failed pass: a failure that may pass is tried again after five seconds. -/
def Fault.action (f : Fault) : Action :=
  if f.isRetryable then .requeue (.ofSeconds 5) else .awaitChange

end DesiredState
