import DesiredState.Annotations
import DesiredState.Delta.Basic
import DesiredState.Json.Agreement

/-!
Field tables: how the delta of two states is found. A row renders one field of a state and says by
which rule two renderings are compared. Fields that somebody else owns are stripped afterwards.
-/
namespace DesiredState

inductive Rule where
  | whole
  | nested
  | map
  | multiset
  deriving DecidableEq, Repr

namespace Rule
open Json

def leaf (differs : Bool) (path : String) (d o : Json) : List Difference :=
  if differs then [⟨path, d, o⟩] else []

def nameUnion (l r : List (String × Json)) : List String :=
  (SortedMap.ofList ((names l ++ names r).map fun k => (k, ()))).keys

theorem memNameUnion {k : String} {l r : List (String × Json)} (found : k ∈ nameUnion l r) :
    k ∈ names l ++ names r := by
  unfold nameUnion SortedMap.keys at found
  obtain ⟨e, member, rfl⟩ := List.mem_map.mp found
  generalize names l ++ names r = ks at member
  induction ks with
  | nil => cases member
  | cons k ks ih =>
    rcases SortedMap.memPut member with same | later
    · simp [same]
    · exact List.mem_cons_of_mem _ (ih later)

/-- Walks two objects by their names, null being the empty object, and reports the places that
differ. Lists found on the way are compared in any order. -/
def walk (path : String) (d o : Json) : List Difference :=
  match _left : d.members?, _right : o.members? with
  | some l, some r =>
    (nameUnion l r).attach.flatMap fun k =>
      let dv := member l k.1
      let ov := member r k.1
      let child := s!"{path}.{k.1}"
      if dv.isObject || ov.isObject then walk child dv ov
      else if dv.isList || ov.isList then leaf (!agreeAsBags dv ov) child dv ov
      else leaf (!agree dv ov) child dv ov
  | _, _ => leaf (!agree d o) path d o
termination_by d.size + o.size
decreasing_by exact sizeMembersLt _left _right (memNameUnion k.2)

theorem walkMembers {d o : Json} {l r : List (String × Json)} (path : String) (left : d.members? = some l)
    (right : o.members? = some r) :
    walk path d o = (nameUnion l r).flatMap fun k =>
      let dv := member l k
      let ov := member r k
      let child := s!"{path}.{k}"
      if dv.isObject || ov.isObject then walk child dv ov
      else if dv.isList || ov.isList then leaf (!agreeAsBags dv ov) child dv ov
      else leaf (!agree dv ov) child dv ov := by
  rw [walk]
  split
  · rename_i hl hr
    rw [left] at hl; rw [right] at hr
    cases hl; cases hr
    conv => rhs; rw [← List.attach_map_subtype_val (nameUnion l r), List.flatMap_map]
  · rename_i none'
    exact (none' _ _ left right).elim

theorem walkLeaf {d o : Json} (path : String) (single : d.members? = none ∨ o.members? = none) :
    walk path d o = leaf (!agree d o) path d o := by
  rw [walk]
  split
  · rename_i left right
    rcases single with f | f
    · rw [f] at left; cases left
    · rw [f] at right; cases right
  · rfl

def differences : Rule → String → Json → Json → List Difference
  | .whole, path, d, o => leaf (!agree d o) path d o
  | .nested, path, d, o => walk path d o
  | .map, path, d, o => leaf (!agreeAsMaps d o) path d o
  | .multiset, path, d, o => leaf (!agreeAsBags d o) path d o

end Rule

/-- One row of a table. An `explicitOnly` row is compared only when the desired side sets it. -/
structure Field (σ : Type) where
  path : String
  rule : Rule
  render : σ → Json
  explicitOnly : Bool

def Field.always {σ : Type} (path : String) (rule : Rule) (render : σ → Json) : Field σ := ⟨path, rule, render, false⟩

def Field.whenSet {σ : Type} (path : String) (rule : Rule) (render : σ → Json) : Field σ := ⟨path, rule, render, true⟩

def Field.differences {σ : Type} (f : Field σ) (desired observed : σ) : List Difference :=
  let d := f.render desired
  if f.explicitOnly && d.isZero then [] else f.rule.differences f.path d (f.render observed)

structure Handover where
  path : String
  owner : Annotations → Owner

def Handover.apply (h : Handover) (annotations : Annotations) (δ : Delta) : Delta :=
  if h.owner annotations = .external then δ.strip h.path else δ

structure FieldTable (σ : Type) where
  fields : List (Field σ)
  handovers : List Handover := []

namespace FieldTable
variable {σ : Type}

def paths (t : FieldTable σ) : List String := t.fields.map Field.path

def raw (t : FieldTable σ) (desired observed : σ) : Delta :=
  t.fields.foldl (fun δ f => δ.addAll (f.differences desired observed)) .empty

def compute (t : FieldTable σ) (desired observed : σ) (annotations : Annotations) : Delta :=
  t.handovers.foldl (fun δ h => h.apply annotations δ) (t.raw desired observed)

end FieldTable
end DesiredState
