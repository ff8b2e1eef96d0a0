import DesiredState.Proofs.NormalForms

/-!
Values of one shape. A step leads from a value to one inside of it, by a name or by an index. Two values agree exactly
when their normal forms are equal, provided that at each place of both they have one type or one of them is null: zeros
of two types have one normal form and may still differ. Agreement is reflexive and symmetric for all values. -/
namespace DesiredState.Json

inductive Shape where
  | null
  | bool
  | number
  | text
  | list
  | object
  deriving DecidableEq, Repr

def shape : Json → Shape
  | .null => .null
  | .bool _ => .bool
  | .int _ => .number
  | .float _ => .number
  | .text _ => .text
  | .list _ => .list
  | .object _ => .object

inductive Step where
  | name (k : String)
  | index (i : Nat)
  deriving DecidableEq, Repr

def enter : Json → Step → Option Json
  | .object ms, .name k => ms.lookup k
  | .list xs, .index i => xs[i]?
  | _, _ => none

def at? (v : Json) (place : List Step) : Option Json := place.foldlM enter v

def OneType (v w : Json) : Prop := v.shape = w.shape ∨ v = .null ∨ w = .null

def OneShape (a b : Json) : Prop := ∀ place v w, a.at? place = some v → b.at? place = some w → OneType v w

theorem atStep (v : Json) (step : Step) (place : List Step) :
    v.at? (step :: place) = (v.enter step).bind fun w => w.at? place := rfl

theorem oneShapeIff {a b : Json} : OneShape a b ↔
    OneType a b ∧ ∀ step v w, a.enter step = some v → b.enter step = some w → OneShape v w := by
  constructor
  · intro alike
    refine ⟨alike [] a b rfl rfl, fun step v w left right place v' w' found found' => ?_⟩
    refine alike (step :: place) v' w' ?_ ?_
    · rw [atStep, left]
      exact found
    · rw [atStep, right]
      exact found'
  · rintro ⟨here, inside⟩ place v w left right
    cases place with
    | nil =>
      cases left
      cases right
      exact here
    | cons step place =>
      obtain ⟨v', entered, found⟩ := Option.bind_eq_some_iff.mp left
      obtain ⟨w', entered', found'⟩ := Option.bind_eq_some_iff.mp right
      exact inside step v' w' entered entered' place v w found found'

theorem oneShapeLeaf {a b : Json} (here : OneType a b) (leaf : ∀ step, a.enter step = none) : OneShape a b := by
  refine oneShapeIff.mpr ⟨here, fun step v w entered => ?_⟩
  rw [leaf] at entered
  cases entered

theorem oneShapeLists {xs ys : List Json} :
    OneShape (.list xs) (.list ys) ↔ ∀ p ∈ xs.zip ys, OneShape p.1 p.2 := by
  rw [oneShapeIff, and_iff_right (.inl rfl)]
  constructor
  · intro inside p member
    obtain ⟨i, within, rfl⟩ := List.mem_iff_getElem.mp member
    rw [List.length_zip, Nat.lt_min] at within
    rw [List.getElem_zip]
    exact inside (.index i) _ _ (List.getElem?_eq_getElem within.1) (List.getElem?_eq_getElem within.2)
  · intro pairs step v w left right
    cases step with
    | name k => cases left
    | index i =>
      obtain ⟨within, rfl⟩ := List.getElem?_eq_some_iff.mp left
      obtain ⟨within', rfl⟩ := List.getElem?_eq_some_iff.mp right
      have paired : i < (xs.zip ys).length := by
        rw [List.length_zip]
        exact Nat.lt_min.mpr ⟨within, within'⟩
      exact pairs (xs[i], ys[i]) (List.getElem_zip (h := paired) ▸ List.getElem_mem paired)

theorem lookupNamed {ms : List (String × Json)} {k : String} (named : k ∈ names ms) :
    ms.lookup k = some (member ms k) := by
  obtain ⟨m, inside, rfl⟩ := List.mem_map.mp named
  cases found : ms.lookup m.1 with
  | none => exact absurd rfl (bne_iff_ne.mp (List.lookup_eq_none_iff.mp found m inside))
  | some v => rw [member, found, Option.getD_some]

theorem oneShapeObjects {ms ns : List (String × Json)} : OneShape (.object ms) (.object ns) ↔
    ∀ k ∈ names ms, k ∈ names ns → OneShape (member ms k) (member ns k) := by
  rw [oneShapeIff, and_iff_right (.inl rfl)]
  constructor
  · intro inside k named named'
    exact inside (.name k) _ _ (lookupNamed named) (lookupNamed named')
  · intro each step v w left right
    cases step with
    | index i => cases left
    | name k =>
      have named {ls : List (String × Json)} {u : Json} (found : ls.lookup k = some u) : k ∈ names ls := by
        refine Classical.not_not.mp fun missing => ?_
        rw [lookupMissing missing] at found
        cases found
      have found : ms.lookup k = some v := left
      have found' : ns.lookup k = some w := right
      have alike := each k (named found) (named found')
      rwa [member, member, found, found'] at alike

theorem OneShape.similar {a b : Json} (alike : OneShape a b) : Similar a b := by
  -- By induction on the size: what lies at a place is found by a name or an index.
  have here : OneType a b := (oneShapeIff.mp alike).1
  cases a with
  | null => exact .absent b
  | list xs =>
    cases b with
    | null => exact .missing _
    | list ys =>
      refine .list fun p inside => ?_
      have smaller := sizeItemLe (List.of_mem_zip inside).1
      exact (oneShapeLists.mp alike p inside).similar
    | _ => simp [OneType, shape] at here
  | object ms =>
    cases b with
    | null => exact .missing _
    | object ns =>
      refine .object fun k => ?_
      by_cases left : k ∈ names ms
      · by_cases right : k ∈ names ns
        · have smaller := sizeMemberLt left
          exact (oneShapeObjects.mp alike k left right).similar
        · exact memberMissing right ▸ .missing _
      · exact memberMissing left ▸ .absent _
    | _ => simp [OneType, shape] at here
  | _ =>
    cases b with
    | null => exact .missing _
    | list => simp [OneType, shape] at here
    | object => simp [OneType, shape] at here
    | _ => exact .plain ⟨rfl, rfl⟩ ⟨rfl, rfl⟩
termination_by a.size
decreasing_by
  all_goals
    subst_vars
    simp only [size]
    omega

theorem agreementIsNormal :
    (∀ a b, OneShape a b → (agree a b = true ↔ normal a = normal b)) ∧ (∀ a, agree a a = true) ∧
      ∀ a b, agree a b = agree b a :=
  ⟨fun _ _ alike => alike.similar.agreeIff, agreeSelf, agreeComm⟩

theorem zerosLeftOut :
    let a : Json := .object [("size", .int 0), ("zones", .list [.text "a", .null])]
    let b : Json := .object [("zones", .list [.text "a", .text ""]), ("labels", .object [("team", .bool false)])]
    OneShape a b ∧ agree a b = true ∧ normal b = .object [("zones", .list [.text "a", .null])] := by
  intro a b
  have alike : OneShape a b := by
    refine oneShapeObjects.mpr fun k left right => ?_
    obtain rfl : k = "zones" := by
      simp only [names, List.map_cons, List.map_nil, List.mem_cons, List.not_mem_nil, or_false] at left right
      rcases left with rfl | zones
      · simp at right
      · exact zones
    have texts : OneShape (.text "a") (.text "a") := oneShapeLeaf (.inl rfl) fun _ => rfl
    have blanks : OneShape .null (.text "") := oneShapeLeaf (.inr (.inl rfl)) fun _ => rfl
    exact oneShapeLists.mpr (by simp [texts, blanks])
  have same : normal a = normal b := by decide +kernel
  exact ⟨alike, (agreementIsNormal.1 a b alike).mpr same, by decide +kernel⟩

/- Both are nothing, and neither is a zero of the other. -/
example :
    let v : Json := .object [("size", .int 0)]
    normal v = normal (.int 0) ∧ agree v (.int 0) = false := by
  decide +kernel

end DesiredState.Json
