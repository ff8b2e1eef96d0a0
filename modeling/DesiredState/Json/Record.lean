import DesiredState.Json.Basic
import DesiredState.SortedMap

/-!
Codecs for values with named members. A record lists its members once; writing and reading both
follow that list. Reading looks names up, so unknown members and the order of members do not matter.
-/
namespace DesiredState

structure Codec (α : Type) where
  write : α → Json
  read? : Json → Option α

namespace Codec

def text : Codec String where
  write := .text
  read?
    | .text s => some s
    | _ => none

def bool : Codec Bool where
  write := .bool
  read?
    | .bool b => some b
    | _ => none

def int64 : Codec Int64 where
  write n := .int n.toInt
  read?
    | .int n => if Int64.minValue.toInt ≤ n ∧ n ≤ Int64.maxValue.toInt then some (Int64.ofInt n) else none
    | _ => none

def word64 : Codec UInt64 where
  write n := .int n.toNat
  read?
    | .int n => if 0 ≤ n ∧ n.toNat < UInt64.size then some (UInt64.ofNat n.toNat) else none
    | _ => none

def list {α : Type} (c : Codec α) : Codec (List α) where
  write xs := .list (xs.map c.write)
  read?
    | .list xs => xs.mapM c.read?
    | _ => none

def strings : Codec StringMap where
  write m := .object (m.entries.map fun e => (e.1, .text e.2))
  read?
    | .object ms => (ms.mapM fun m => (text.read? m.2).map fun s => (m.1, s)).map .ofList
    | _ => none

end Codec

structure Member (σ : Type) where
  name : String
  write : σ → Option Json

structure Record (σ α : Type) where
  members : List (Member σ)
  read? : (String → Option Json) → Option α

namespace Record
variable {σ α : Type}

instance : Applicative (Record σ) where
  pure a := ⟨[], fun _ => some a⟩
  map f r := ⟨r.members, fun doc => (r.read? doc).map f⟩
  seq r s := ⟨r.members ++ (s ()).members, fun doc => (r.read? doc).bind fun f => ((s ()).read? doc).map f⟩

def names (r : Record σ α) : List String := r.members.map Member.name

def document (r : Record σ α) (a : σ) : List (String × Json) :=
  r.members.filterMap fun m => (m.write a).map fun v => (m.name, v)

def required (name : String) (c : Codec α) (get : σ → α) : Record σ α where
  members := [⟨name, fun a => some (c.write (get a))⟩]
  read? doc := (doc name).bind c.read?

/-- Left out when unset; missing and null both read as unset. -/
def optional (name : String) (c : Codec α) (get : σ → Option α) : Record σ (Option α) where
  members := [⟨name, fun a => (get a).map c.write⟩]
  read? doc :=
    match doc name with
    | none => some none
    | some .null => some none
    | some v => (c.read? v).map some

/-- Always written; missing reads as the default, null does not. -/
def defaulted (name : String) (c : Codec α) (default : α) (get : σ → α) : Record σ α where
  members := [⟨name, fun a => some (c.write (get a))⟩]
  read? doc :=
    match doc name with
    | none => some default
    | some v => c.read? v

/-- A list that is left out when empty; missing reads as empty, null does not. -/
def listed (name : String) (c : Codec α) (get : σ → List α) : Record σ (List α) where
  members := [⟨name, fun a => if (get a).isEmpty then none else some (c.list.write (get a))⟩]
  read? doc :=
    match doc name with
    | none => some []
    | some v => c.list.read? v

def codec (r : Record α α) : Codec α where
  write a := .object (r.document a)
  read?
    | .object ms => r.read? fun name => ms.lookup name
    | _ => none

end Record

namespace Json

def ofSlots (slots : List (String × Option Json)) : Json :=
  .object (slots.filterMap fun s => s.2.map fun v => (s.1, v))

def ofOption {α : Type} (write : α → Json) : Option α → Json
  | none => .null
  | some a => write a

end Json
end DesiredState
