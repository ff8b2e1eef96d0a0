import DesiredState.Fault

/-!
Metrics of remote calls: one entry per call with its kind, the name of the operation, and the code
of its failure. A recorder observes and never changes what a pass does.
-/
namespace DesiredState

inductive CallKind where
  | readOne
  | readMany
  | create
  | update
  | delete
  deriving DecidableEq, Repr

def CallKind.label : CallKind → String
  | .readOne => "READ_ONE"
  | .readMany => "READ_MANY"
  | .create => "CREATE"
  | .update => "UPDATE"
  | .delete => "DELETE"

structure Metric where
  kind : CallKind
  operation : String
  errorCode : Option String
  deriving DecidableEq, Repr

def Metric.ofCall (kind : CallKind) (operation : String) (failure : Option RemoteFault) : Metric :=
  ⟨kind, operation, failure.map RemoteFault.code⟩

inductive Recorder where
  | memory
  | discarding
  | exporting
  deriving DecidableEq, Repr

def Recorder.kept? : Recorder → List Metric → Option (List Metric)
  | .memory, metrics => some metrics
  | _, _ => none

end DesiredState
