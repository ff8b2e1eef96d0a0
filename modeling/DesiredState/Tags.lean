import DesiredState.KeyedPlan
import DesiredState.Pass

/-!
Tags of a resource. They are compared as string maps and changed by at most two calls: one writes
the new and changed entries, one removes the keys that are not wanted.
-/
namespace DesiredState.Tags
variable {σ υ : Type}

def listOperation : String := "ListTagsForResource"
def tagOperation : String := "TagResource"
def untagOperation : String := "UntagResource"

structure Change where
  written : List String
  removed : List String
  deriving DecidableEq, Repr

def Change.isNoop (c : Change) : Bool := c.written.isEmpty && c.removed.isEmpty

def read (answers : Answers σ) (arn : String) : Pass σ υ CallFailure StringMap :=
  Pass.ask (.listTags arn) .readMany listOperation answers.listTags

def sync (answers : Answers σ) (arn : String) (desired observed : StringMap) : Pass σ υ CallFailure Change := do
  let plan := desired.reconcile observed
  let toWrite := plan.written
  unless toWrite.isEmpty do
    Pass.tell (.tagResource arn toWrite) .update tagOperation answers.tagResource
  unless plan.toRemove.isEmpty do
    Pass.tell (.untagResource arn plan.toRemove) .update untagOperation answers.untagResource
  return ⟨toWrite.keys, plan.toRemove⟩

end DesiredState.Tags
