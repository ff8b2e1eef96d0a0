import DesiredState.Json.Basic

/-!
Differences between a desired and an observed state, each under a dotted path. A path names its own
place and every place below it: a.b.c lies under a.b, not under a.bc.
-/
namespace DesiredState

structure Difference where
  path : String
  desired : Json
  observed : Json
  deriving DecidableEq, Repr

def pathUnder (path top : String) : Bool :=
  path == top || (top.toList ++ ['.']).isPrefixOf path.toList

structure Delta where
  differences : List Difference
  deriving DecidableEq, Repr

namespace Delta

def empty : Delta := ⟨[]⟩

def paths (δ : Delta) : List String := δ.differences.map Difference.path

def isEmpty (δ : Delta) : Bool := δ.differences.isEmpty

def size (δ : Delta) : Nat := δ.differences.length

def get? (δ : Delta) (path : String) : Option Difference := δ.differences.find? fun d => d.path == path

/-- Adds a difference; a path already present keeps its first difference. -/
def add (δ : Delta) (d : Difference) : Delta :=
  if δ.differences.any fun e => e.path == d.path then δ else ⟨δ.differences ++ [d]⟩

def addAll (δ : Delta) (ds : List Difference) : Delta := ds.foldl add δ

def differsAt (δ : Delta) (top : String) : Bool := δ.differences.any fun d => pathUnder d.path top

def differsOutside (δ : Delta) (tops : List String) : Bool :=
  δ.differences.any fun d => !tops.any fun top => pathUnder d.path top

def pathsUnder (δ : Delta) (top : String) : List String :=
  (δ.differences.filter fun d => pathUnder d.path top).map Difference.path

def strip (δ : Delta) (top : String) : Delta := ⟨δ.differences.filter fun d => !pathUnder d.path top⟩

def strippedCount (δ : Delta) (top : String) : Nat := δ.size - (δ.strip top).size

def text (δ : Delta) : String := ",".intercalate δ.paths

def immutableChanges? (δ : Delta) (immutable : List String) : Option String :=
  match immutable.flatMap δ.pathsUnder with
  | [] => none
  | changed => some ("Immutable spec fields have been modified: " ++ ",".intercalate changed)

end Delta
end DesiredState
