import DesiredState.Binding
import DesiredState.Retry
import DesiredState.Tags
import DesiredState.Verdict

/-!
One pass over an observed resource. Nothing is sent unless the resource is active; tags come first,
then at most one category of updates. The next pass looks at the resource again and goes on.
-/
namespace DesiredState

structure Remediation (σ : Type) where
  verdict : Verdict
  delta : Delta
  resource : Observed σ
  deriving DecidableEq, Repr

/-- The desired spec with the identity, status and tags observed. A resource whose update goes on
is not active, whatever it was when it was looked at. -/
def Desired.merge {σ : Type} (desired : Desired σ) (observed : Observed σ) (transitioning : Bool) : Observed σ where
  spec := desired.spec
  status := if transitioning then some Phase.updating.text else observed.status
  arn := observed.arn.or desired.knownArn
  tags := observed.tags

def CallFailure.verdict (f : CallFailure) (config : Config) : Except Fault Verdict :=
  match Directive.ofFault config f.cause with
  | ⟨.conflict, backoff⟩ =>
    .ok (.wait s!"{f.operation} conflicts with an operation in progress: {f.cause.message}"
      (backoff.getD config.conflictBackoff))
  | ⟨.terminal, _⟩ => .ok (.terminal s!"{f.operation} was rejected ({f.cause.code}): {f.cause.message}")
  | ⟨.unknown, _⟩ => .error (.remote f.operation f.cause)

inductive TagFault where
  | call (f : CallFailure)
  | noArn (fault : Fault)
  deriving DecidableEq, Repr

def TagFault.verdict (f : TagFault) (config : Config) : Except Fault Verdict :=
  match f with
  | .call f => f.verdict config
  | .noArn fault => .error fault

namespace Binding
variable {σ υ : Type}

def rules (b : Binding σ υ) (config : Config) : StatusRules := b.statuses.configured config

def inactive? (b : Binding σ υ) (config : Config) (status : Option String) : Option Verdict :=
  let phase := (b.rules config).classify status
  let shown := status.getD "unknown"
  if StatusRules.isDeleting phase then
    some (.wait s!"{b.name} is currently being deleted" config.waitBackoff)
  else if StatusRules.isActive phase then none
  else if (b.rules config).isTerminal phase then some (.terminal s!"{b.name} is in '{shown}' status")
  else
    some (.wait s!"{b.name} in '{shown}' state, cannot be modified until '{Phase.active.text}'" config.waitBackoff)

/-- Packs an outcome. Only an applied update of an asynchronous kind leaves the resource updating. -/
def conclude (b : Binding σ υ) (desired : Desired σ) (observed : Observed σ) (v : Verdict) (δ : Delta) :
    Remediation σ :=
  ⟨v, δ, desired.merge observed (b.asyncUpdates && v.isApplied)⟩

/-- Brings the tags up to date. The result is the tags now on the resource, or none when they were
up to date already. -/
def syncTags (b : Binding σ υ) (answers : Answers σ) (desired : Desired σ) (observed : Observed σ) :
    Pass σ υ TagFault (Option StringMap) :=
  let want := (b.tags desired.spec).getD .empty
  if observed.tags = some want then pure none
  else
    match observed.arn with
    | none => .fail (.noArn (.internal "tags" s!"{b.name} {(b.resourceId desired.spec).text} has no ARN"))
    | some arn =>
      let work : Pass σ υ CallFailure (Option StringMap) := do
        let current ← match observed.tags with
          | some tags => pure tags
          | none => Tags.read answers arn
        let _ ← Tags.sync answers arn want current
        return some want
      { work with result := work.result.mapError .call }

def sendFrom (b : Binding σ υ) (answers : Answers σ) (id : ResourceId) (n : Nat) :
    List υ → Pass σ υ CallFailure Unit
  | [] => pure ()
  | u :: rest => do
    match ← (Pass.tell (.update id u) .update (b.operation u) (answers.update n)).settle with
    | .ok _ => b.sendFrom answers id (n + 1) rest
    | .error f => if b.benign u f.cause then b.sendFrom answers id (n + 1) rest else .fail f

def applyFirst (b : Binding σ υ) (config : Config) (answers : Answers σ) (desired : Desired σ)
    (observed : Observed σ) (δ : Delta) : Pass σ υ Fault (Remediation σ) :=
  match b.choice ⟨desired.spec, observed.spec, δ, desired.annotations⟩ with
  | .nothing => pure (b.conclude desired observed .converged δ)
  | .refuse reason => pure (b.conclude desired observed (.terminal reason) δ)
  | .send category updates => do
    match ← (b.sendFrom answers (b.resourceId desired.spec) 0 updates).settle with
    | .ok _ => return b.conclude desired observed (.applied category) δ
    | .error f => return b.conclude desired observed (← .ofExcept (f.verdict config)) δ

def remediate (b : Binding σ υ) (config : Config) (answers : Answers σ) (desired : Desired σ)
    (observed : Observed σ) : Pass σ υ Fault (Remediation σ) :=
  match b.inactive? config observed.status with
  | some v => pure (b.conclude desired observed v .empty)
  | none => do
    match ← (b.syncTags answers desired observed).settle with
    | .error f => return b.conclude desired observed (← .ofExcept (f.verdict config)) .empty
    | .ok synced =>
      let r ← b.applyFirst config answers desired observed (b.delta desired observed.spec)
      return { r with resource := { r.resource with tags := synced.or r.resource.tags } }

end Binding
end DesiredState
