import DesiredState.Json.Basic
import DesiredState.RequestTarget
import DesiredState.Timestamp
import DesiredState.Verdict

/-!
Publishing the conditions of a verdict: a write happens only when it changes more than times. The
write itself is a merge patch of the status of an object; an object that no request can name is not
asked for at all.
-/
namespace DesiredState

structure StatusTarget where
  name : String
  nameSpace : Option String
  deriving DecidableEq, Repr

/-- One attempt to bring conditions to their target. `written` holds what was handed to the writer;
the outcome says whether the status was replaced. -/
structure Publishing where
  written : Option (List Condition)
  outcome : Except Fault Bool

namespace Publishing

def ofVerdict (current : List Condition) (v : Verdict) (now : Int) (answer : Option Fault) : Publishing :=
  let next := v.conditions now
  if Condition.changed current next then
    ⟨some next, match answer with | none => .ok true | some f => .error f⟩
  else ⟨none, .ok false⟩

def contents (p : Publishing) (current : List Condition) : List Condition :=
  match p.written, p.outcome with
  | some next, .ok true => next
  | _, _ => current

end Publishing

structure ObjectType where
  group : String
  version : String
  plural : String
  deriving DecidableEq, Repr

structure StatusPatch where
  target : RequestTarget
  body : Json
  deriving DecidableEq, Repr

namespace StatusPatch

def fieldManager : String := "converge-engine"
def verb : String := "PATCH"
def contentType : String := "application/merge-patch+json"

def conditionJson (c : Condition) : Json :=
  .object [("type", .text c.type), ("status", .text c.status.text), ("reason", .text c.reason),
    ("message", .text c.message), ("lastTransitionTime", .text (Timestamp.text c.since))]

def root (t : ObjectType) : String :=
  if t.group.isEmpty then s!"/api/{t.version}" else s!"/apis/{t.group}/{t.version}"

def targetText (t : ObjectType) (target : StatusTarget) : String :=
  let scope := match target.nameSpace with | some ns => s!"/namespaces/{ns}" | none => ""
  root t ++ scope ++ s!"/{t.plural}/{target.name}/status" ++ s!"?&fieldManager={fieldManager}"

/-- The request for one object. There is none for an object without a name, or when a part of its
place cannot stand in a request. -/
def ofConditions? (t : ObjectType) (target : StatusTarget) (conditions : List Condition) : Option StatusPatch :=
  if target.name.isEmpty then none
  else
    (RequestTarget.ofText? (targetText t target)).map fun r =>
      ⟨r, .object [("status", .object [("conditions", .list (conditions.map conditionJson))])]⟩

def answer? (code : Nat) : Option Fault := if 400 ≤ code then some (.kubernetes (some code)) else none

end StatusPatch

structure StatusWrite where
  request : Option StatusPatch
  failure : Option Fault
  deriving DecidableEq, Repr

def StatusWrite.ofConditions (t : ObjectType) (target : StatusTarget) (conditions : List Condition) (code : Nat) :
    StatusWrite :=
  match StatusPatch.ofConditions? t target conditions with
  | some patch => ⟨some patch, StatusPatch.answer? code⟩
  | none => ⟨none, some (.kubernetes none)⟩

end DesiredState
