/-!
JSON values. A member list is read through `lookup` only: the first entry of a name counts, and a
missing name reads as null. Integers and floats are different numbers; a float is its bit pattern.
-/
namespace DesiredState

inductive Json where
  | null
  | bool (b : Bool)
  | int (n : Int)
  | float (bits : UInt64)
  | text (s : String)
  | list (items : List Json)
  | object (members : List (String × Json))
  deriving Repr

namespace Json

instance : Inhabited Json := ⟨.null⟩

/- Equality of values as written, decided along both values. -/
mutual
def same : Json → Json → Bool
  | .null, .null => true
  | .bool a, .bool b => a == b
  | .int a, .int b => a == b
  | .float a, .float b => a == b
  | .text a, .text b => a == b
  | .list xs, .list ys => sameItems xs ys
  | .object ms, .object ns => sameMembers ms ns
  | _, _ => false

def sameItems : List Json → List Json → Bool
  | [], [] => true
  | x :: xs, y :: ys => same x y && sameItems xs ys
  | _, _ => false

def sameMembers : List (String × Json) → List (String × Json) → Bool
  | [], [] => true
  | (k, x) :: ms, (l, y) :: ns => k == l && same x y && sameMembers ms ns
  | _, _ => false
end

mutual
theorem sameIff : ∀ a b : Json, same a b = true ↔ a = b
  | .null, b => by cases b <;> simp [same]
  | .bool _, b => by cases b <;> simp [same]
  | .int _, b => by cases b <;> simp [same]
  | .float _, b => by cases b <;> simp [same]
  | .text _, b => by cases b <;> simp [same]
  | .list xs, b => by cases b <;> simp [same, sameItemsIff xs]
  | .object ms, b => by cases b <;> simp [same, sameMembersIff ms]

theorem sameItemsIff : ∀ xs ys : List Json, sameItems xs ys = true ↔ xs = ys
  | [], ys => by cases ys <;> simp [sameItems]
  | x :: xs, ys => by cases ys <;> simp [sameItems, sameIff x, sameItemsIff xs]

theorem sameMembersIff : ∀ ms ns : List (String × Json), sameMembers ms ns = true ↔ ms = ns
  | [], ns => by cases ns <;> simp [sameMembers]
  | (k, x) :: ms, ns => by
    cases ns with
    | nil => simp [sameMembers]
    | cons n ns => cases n; simp [sameMembers, sameIff x, sameMembersIff ms, and_assoc]
end

instance : DecidableEq Json := fun a b => decidable_of_iff _ (sameIff a b)

/- The number of nodes of a value; the measure of the comparisons. -/
mutual
def size : Json → Nat
  | .list xs => 1 + itemsSize xs
  | .object ms => 1 + membersSize ms
  | _ => 1

def itemsSize : List Json → Nat
  | [] => 0
  | x :: xs => size x + itemsSize xs

def membersSize : List (String × Json) → Nat
  | [] => 0
  | (_, x) :: ms => size x + membersSize ms
end

/-- The zero of a type: false, the number 0, and the empty text, list and object; null as well. -/
def isZero : Json → Bool
  | .null => true
  | .bool b => !b
  | .int n => n == 0
  | .float bits => bits == 0
  | .text s => s.isEmpty
  | .list xs => xs.isEmpty
  | .object ms => ms.isEmpty

def isObject : Json → Bool
  | .object _ => true
  | _ => false

def isList : Json → Bool
  | .list _ => true
  | _ => false

def members? : Json → Option (List (String × Json))
  | .null => some []
  | .object ms => some ms
  | _ => none

def items? : Json → Option (List Json)
  | .null => some []
  | .list xs => some xs
  | _ => none

def member (ms : List (String × Json)) (name : String) : Json := (ms.lookup name).getD .null

def names (ms : List (String × Json)) : List String := ms.map Prod.fst

theorem sizePos (a : Json) : 0 < a.size := by
  cases a <;> simp only [size] <;> omega

theorem sizeItemLe {x : Json} {xs : List Json} (inside : x ∈ xs) : x.size ≤ itemsSize xs := by
  induction xs with
  | nil => simp at inside
  | cons y ys ih =>
    rcases List.mem_cons.mp inside with here | later
    · simp [itemsSize, here]
    · have := ih later; simp only [itemsSize]; omega

theorem sizeMemberLe (ms : List (String × Json)) (name : String) :
    (member ms name).size ≤ 1 + membersSize ms := by
  induction ms with
  | nil => simp [member, size, membersSize]
  | cons m ms ih =>
    obtain ⟨k, x⟩ := m
    unfold member at ih ⊢
    simp only [List.lookup_cons, membersSize]
    have := sizePos x
    cases name == k with
    | true => simp only [Option.getD_some]; omega
    | false => simp only; omega

theorem sizeMemberLt {ms : List (String × Json)} {name : String} (named : name ∈ names ms) :
    (member ms name).size ≤ membersSize ms := by
  induction ms with
  | nil => simp [names] at named
  | cons m ms ih =>
    obtain ⟨k, x⟩ := m
    unfold member at ih ⊢
    simp only [List.lookup_cons, membersSize]
    by_cases same : name = k
    · subst same; simp
    · have rest : name ∈ names ms := by
        rcases List.mem_cons.mp named with here | later
        · exact absurd here same
        · exact later
      have := ih rest
      simp only [beq_false_of_ne same]
      omega

theorem sizeMembersLt {a b : Json} {l r : List (String × Json)} {name : String}
    (left : a.members? = some l) (right : b.members? = some r) (named : name ∈ names l ++ names r) :
    (member l name).size + (member r name).size < a.size + b.size := by
  have sizeOf : ∀ {c : Json} {ms}, c.members? = some ms → c.size = 1 + membersSize ms := by
    intro c ms found
    cases c <;> cases found <;> rfl
  have hl := sizeOf left
  have hr := sizeOf right
  have sl := sizeMemberLe l name
  have sr := sizeMemberLe r name
  rcases List.mem_append.mp named with here | here
  · have := sizeMemberLt here; omega
  · have := sizeMemberLt here; omega

end Json
end DesiredState
