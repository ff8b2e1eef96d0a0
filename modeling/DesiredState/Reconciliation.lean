import DesiredState.Remediation

/-!
A pass that starts from the name of a resource only. A missing resource is created, unless an earlier
pass created it and the remote does not show it yet; a found one is remediated. Finalizing deletes
the resource and reports until it is gone.
-/
namespace DesiredState

inductive Described (σ : Type) where
  | found (observed : Observed σ)
  | missing
  | stopped (v : Verdict)
  deriving DecidableEq, Repr

namespace Binding
variable {σ υ : Type}

def unseen (desired : Desired σ) (v : Verdict) (status : Option Phase) : Remediation σ :=
  ⟨v, .empty, ⟨desired.spec, status.map Phase.text, desired.knownArn, none⟩⟩

def describe (b : Binding σ υ) (config : Config) (answers : Answers σ) (desired : Desired σ) :
    Pass σ υ Fault (Described σ) := do
  let call : Pass σ υ CallFailure (Option (Observed σ)) :=
    .ask (.describe (b.resourceId desired.spec)) .readOne b.operations.describe answers.describe
  match ← call.settle with
  | .ok (some observed) => return .found observed
  | .ok none => return .missing
  | .error f => return .stopped (← .ofExcept (f.verdict config))

/-- Creates a resource that is not there. With a recorded ARN it exists and only lags. -/
def create (b : Binding σ υ) (config : Config) (answers : Answers σ) (desired : Desired σ) :
    Pass σ υ Fault (Remediation σ) :=
  if desired.knownArn.isSome then
    pure (unseen desired (.wait s!"{b.name} was created but is not visible yet" config.waitBackoff) (some .creating))
  else do
    let call : Pass σ υ CallFailure (Option String) :=
      .ask (.create desired.spec) .create b.operations.create answers.create
    match ← call.settle with
    | .ok arn =>
      let r := unseen desired (.applied "create") (some .creating)
      return { r with resource := { r.resource with arn := arn.or r.resource.arn } }
    | .error f => return unseen desired (← .ofExcept (f.verdict config)) none

def reconcile (b : Binding σ υ) (config : Config) (answers : Answers σ) (desired : Desired σ) :
    Pass σ υ Fault (Remediation σ) := do
  match ← b.describe config answers desired with
  | .found observed => b.remediate config answers desired observed
  | .missing => b.create config answers desired
  | .stopped v => return unseen desired v none

def delete (b : Binding σ υ) (config : Config) (answers : Answers σ) (desired : Desired σ)
    (observed : Observed σ) : Pass σ υ Fault Verdict := do
  if StatusRules.isDeleting ((b.rules config).classify observed.status) then
    return .wait s!"{b.name} is currently being deleted" config.waitBackoff
  let call : Pass σ υ CallFailure Unit :=
    .tell (.delete (b.resourceId desired.spec)) .delete b.operations.delete answers.delete
  match ← call.settle with
  | .ok _ => return .wait s!"{b.name} deletion requested" config.waitBackoff
  | .error f => .ofExcept (f.verdict config)

def finalize (b : Binding σ υ) (config : Config) (answers : Answers σ) (desired : Desired σ) :
    Pass σ υ Fault Verdict := do
  match ← b.describe config answers desired with
  | .found observed => b.delete config answers desired observed
  | .missing => return .converged
  | .stopped v => return v

end Binding
end DesiredState
