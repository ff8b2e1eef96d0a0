import DesiredState.Delta.Table
import DesiredState.Json.Record
import DesiredState.Remote
import DesiredState.Status

/-!
Bindings: all that tells one kind of resource from another. A binding has data only: how specs are
written, compared and identified, and which updates a delta calls for, in order of priority.
-/
namespace DesiredState

structure Operations where
  describe : String
  create : String
  delete : String
  deriving DecidableEq, Repr

structure PlanInput (σ : Type) where
  desired : σ
  observed : σ
  delta : Delta
  annotations : Annotations

inductive GroupPlan (υ : Type) where
  | calls (updates : List υ)
  | terminal (reason : String)
  | skip
  deriving DecidableEq, Repr

structure UpdateGroup (σ υ : Type) where
  category : String
  paths : List String
  plan : PlanInput σ → GroupPlan υ

def UpdateGroup.matches {σ υ : Type} (g : UpdateGroup σ υ) (δ : Delta) : Bool := g.paths.any δ.differsAt

structure Binding (σ υ : Type) where
  name : String
  operations : Operations
  /-- Whether an update goes on after its call has returned. -/
  asyncUpdates : Bool
  statuses : StatusRules
  table : FieldTable σ
  groups : List (UpdateGroup σ υ)
  resourceId : σ → ResourceId
  tags : σ → Option StringMap
  /-- The name of the operation that an update calls. -/
  operation : υ → String
  /-- A refusal of a whole delta. -/
  rejects : PlanInput σ → Option String
  /-- Whether a failure of an update means that there was nothing to change. -/
  benign : υ → RemoteFault → Bool
  codec : Codec σ
  renderUpdate : υ → Json

inductive Choice (υ : Type) where
  | nothing
  | refuse (reason : String)
  | send (category : String) (updates : List υ)
  deriving DecidableEq, Repr

namespace Binding
variable {σ υ : Type}

def delta (b : Binding σ υ) (desired : Desired σ) (observed : σ) : Delta :=
  b.table.compute desired.spec observed desired.annotations

def firstPlan (groups : List (UpdateGroup σ υ)) (input : PlanInput σ) : Choice υ :=
  match groups with
  | [] => .nothing
  | g :: rest =>
    if g.matches input.delta then
      match g.plan input with
      | .skip => firstPlan rest input
      | .terminal reason => .refuse reason
      | .calls updates => .send g.category updates
    else firstPlan rest input

/-- An empty delta needs nothing; a delta may be refused as a whole; else one group decides. -/
def choice (b : Binding σ υ) (input : PlanInput σ) : Choice υ :=
  if input.delta.isEmpty then .nothing
  else
    match b.rejects input with
    | some reason => .refuse reason
    | none => firstPlan b.groups input

end Binding
end DesiredState
