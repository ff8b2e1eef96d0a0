import DesiredState.SortedMap

/-!
What to add, overwrite and remove so that an observed keyed collection becomes a desired one. Of
items with one key the first counts; every bucket is ascending by key. A collection whose records
cannot be overwritten replaces a changed record by a removal and an addition.
-/
namespace DesiredState

inductive WriteMode where
  | inPlace
  | removeThenAdd
  deriving DecidableEq, Repr

structure KeyedPlan (τ κ : Type) where
  toAdd : List τ
  toUpdate : List (τ × κ)
  toRemove : List κ
  unchanged : List κ
  deriving DecidableEq, Repr

inductive PlanStep (τ κ : Type) where
  | remove (key : κ)
  | update (item : τ) (key : κ)
  | add (item : τ)
  deriving DecidableEq, Repr

inductive Treatment where
  | add
  | update
  | replace
  | leave
  deriving DecidableEq, Repr

namespace KeyedPlan
variable {τ κ : Type} [Ord κ]

def isEmpty (p : KeyedPlan τ κ) : Bool := p.toAdd.isEmpty && p.toUpdate.isEmpty && p.toRemove.isEmpty

/-- Removals, then updates, then additions: a replaced key is gone before it comes back. -/
def steps (p : KeyedPlan τ κ) : List (PlanStep τ κ) :=
  p.toRemove.map .remove ++ p.toUpdate.map (fun u => .update u.1 u.2) ++ p.toAdd.map .add

def replacedKeys (key : τ → κ) (p : KeyedPlan τ κ) : List κ :=
  p.toRemove.filter fun k => p.toAdd.any fun item => compare k (key item) == .eq

def treatment (same : τ → τ → Bool) (mode : WriteMode) (want : τ) : Option τ → Treatment
  | none => .add
  | some held =>
    if same want held then .leave
    else
      match mode with
      | .inPlace => .update
      | .removeThenAdd => .replace

variable [Std.TransOrd κ] [Std.LawfulEqOrd κ]

def index (key : τ → κ) (items : List τ) : SortedMap κ τ := .ofList (items.map fun item => (key item, item))

def reconcile (key : τ → κ) (same : τ → τ → Bool) (mode : WriteMode) (desired observed : List τ) :
    KeyedPlan τ κ :=
  let want := index key desired
  let held := index key observed
  let fate (e : κ × τ) := treatment same mode e.2 (held.get? e.1)
  { toAdd := (want.entries.filter fun e => fate e == .add || fate e == .replace).map Prod.snd
    toUpdate := (want.entries.filter fun e => fate e == .update).map fun e => (e.2, e.1)
    toRemove := held.keys.filter fun k =>
      match want.get? k with
      | none => true
      | some item => fate (k, item) == .replace
    unchanged := (want.entries.filter fun e => fate e == .leave).map Prod.fst }

end KeyedPlan

def SortedMap.reconcile (desired observed : StringMap) : KeyedPlan (String × String) String :=
  KeyedPlan.reconcile Prod.fst (fun want held => want.2 == held.2) .inPlace desired.entries observed.entries

namespace KeyedPlan

def written (p : KeyedPlan (String × String) String) : StringMap := .ofList (p.toAdd ++ p.toUpdate.map Prod.fst)

end KeyedPlan
end DesiredState
