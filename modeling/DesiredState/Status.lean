import DesiredState.Config

/-!
Lifecycle phases and what they allow. A status is read without regard to case, underscores and
hyphens; a status that is none of the known ones keeps its own spelling.
-/
namespace DesiredState

inductive Phase where
  | creating
  | active
  | updating
  | deleting
  | degraded
  | createFailed
  | deleteFailed
  | updateFailed
  | failed
  | pending
  | unknown (raw : String)
  deriving DecidableEq, Repr

namespace Phase

def known : List Phase :=
  [.creating, .active, .updating, .deleting, .degraded, .createFailed, .deleteFailed, .updateFailed, .failed, .pending]

def text : Phase → String
  | .creating => "CREATING"
  | .active => "ACTIVE"
  | .updating => "UPDATING"
  | .deleting => "DELETING"
  | .degraded => "DEGRADED"
  | .createFailed => "CREATE_FAILED"
  | .deleteFailed => "DELETE_FAILED"
  | .updateFailed => "UPDATE_FAILED"
  | .failed => "FAILED"
  | .pending => "PENDING"
  | .unknown raw => raw

def folded (s : String) : List Char := (s.toList.filter fun c => c != '_' && c != '-').map Char.toUpper

def parse (s : String) : Phase :=
  match known.find? fun p => folded p.text == folded s with
  | some p => p
  | none => .unknown s

end Phase

structure StatusRules where
  kind : String
  terminal : List Phase
  absent : Option Phase := none
  deriving DecidableEq, Repr

namespace StatusRules

def alwaysActive (kind : String) : StatusRules := ⟨kind, [], some .active⟩

def withDegradedTerminal (r : StatusRules) (terminal : Bool) : StatusRules :=
  let others := r.terminal.filter fun p => p != .degraded
  { r with terminal := if terminal then others ++ [.degraded] else others }

def configured (r : StatusRules) (config : Config) : StatusRules :=
  r.withDegradedTerminal (config.degradedIsTerminal r.kind)

/-- The phase of a status; an empty status is a missing one. -/
def classify (r : StatusRules) : Option String → Option Phase
  | none => r.absent
  | some raw => if raw.isEmpty then r.absent else some (.parse raw)

def isActive (phase : Option Phase) : Bool := phase == some .active

def isDeleting (phase : Option Phase) : Bool := phase == some .deleting

def isTerminal (r : StatusRules) (phase : Option Phase) : Bool := phase.any r.terminal.contains

end StatusRules
end DesiredState
