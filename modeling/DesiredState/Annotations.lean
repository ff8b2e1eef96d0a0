import DesiredState.SortedMap
import DesiredState.Text.Blank

/-!
Annotations of a declared object. Two of them are signals: who sets the desired size of a nodegroup,
and whether a version update passes over the checks of the remote.
-/
namespace DesiredState

inductive Owner where
  | controller
  | external
  deriving DecidableEq, Repr

structure Annotations where
  values : StringMap
  deriving DecidableEq, Repr

namespace Annotations
open Text

def empty : Annotations := ⟨.empty⟩

def get? (a : Annotations) (key : String) : Option String := a.values.get? key

def insert (a : Annotations) (key value : String) : Annotations := ⟨a.values.insert key value⟩

/-- A flag is set by 1, t or true, in any case and with blanks around; anything else leaves it off. -/
def isTrue (raw : String) : Bool :=
  (["1", "t", "true"].map String.toList).contains ((trim raw.toList).map Char.toLower)

def flag (a : Annotations) (key : String) : Bool := (a.get? key).any isTrue

def sizeOwnerKey : String := "converge.dev/desired-size-managed-by"

def externalAutoscaler : String := "external-autoscaler"

def forceKey : String := "converge.dev/force-update-version"

def sizeOwner (a : Annotations) : Owner :=
  if a.get? sizeOwnerKey = some externalAutoscaler then .external else .controller

def forcesUpdate (a : Annotations) : Bool := a.flag forceKey

end Annotations
end DesiredState
