import DesiredState.Proofs.Walks

/-!
The rules by strictness. Values that are the same map agree; values that agree are the same bag, and a walk over them
finds nothing. Only lists set a walk apart from agreement: without any it finds nothing just where the values agree. -/
namespace DesiredState

namespace Json

theorem agreeOfMaps {a b : Json} (same : agreeAsMaps a b = true) : agree a b = true := by
  unfold agreeAsMaps at same
  split at same
  · rename_i l r left right
    rw [Bool.and_eq_true, Bool.and_eq_true] at same
    obtain ⟨⟨_, rightInLeft⟩, values⟩ := same
    rw [agreeMembers left right, List.all_eq_true]
    intro k named
    refine List.all_eq_true.mp values k ?_
    rcases List.mem_append.mp named with here | there
    · exact here
    · simpa using List.all_eq_true.mp rightInLeft k there
  · exact same

theorem matchInTurn {xs ys : List Json} (each : List.Forall₂ (fun x y => agree x y = true) xs ys) :
    matchItems xs ys = true := by
  induction each with
  | nil => rfl
  | @cons x y xs ys here _ ih =>
    -- The items before this one are taken, so the first that fits is its own.
    have first : (y :: ys).findIdx? (agree x) = some 0 := by rw [List.findIdx?_cons, if_pos here]
    unfold matchItems
    rw [first]
    exact ih

theorem bagsOfAgree {a b : Json} (agrees : agree a b = true) : agreeAsBags a b = true := by
  unfold agreeAsBags
  split
  · rename_i xs ys left right
    rw [agreeItems left right, Bool.and_eq_true, beq_iff_eq, List.all_eq_true] at agrees
    obtain ⟨lengths, pairs⟩ := agrees
    exact matchInTurn (List.forall₂_iff_zip.mpr ⟨lengths, fun inside => pairs _ inside⟩)
  · exact agrees

/- A value and all the values inside of it. -/
mutual
def parts : Json → List Json
  | .list xs => .list xs :: itemsParts xs
  | .object ms => .object ms :: membersParts ms
  | v => [v]

def itemsParts : List Json → List Json
  | [] => []
  | x :: xs => parts x ++ itemsParts xs

def membersParts : List (String × Json) → List Json
  | [] => []
  | (_, x) :: ms => parts x ++ membersParts ms
end

theorem partsSelf (v : Json) : v ∈ parts v := by
  cases v <;> exact List.mem_cons_self

theorem partsMember {ms : List (String × Json)} {k : String} {v : Json} (inside : v ∈ parts (member ms k)) :
    v = .null ∨ v ∈ membersParts ms := by
  unfold member at inside
  induction ms with
  | nil => exact .inl (List.mem_singleton.mp inside)
  | cons m ms ih =>
    obtain ⟨l, x⟩ := m
    rw [List.lookup_cons] at inside
    rw [membersParts, List.mem_append]
    split at inside
    · exact .inr (.inl inside)
    · exact (ih inside).imp_right .inr

theorem everyPart {p : Json → Prop} (null : p .null) {a : Json} {ms : List (String × Json)}
    (shown : a.members? = some ms) (every : ∀ v ∈ parts a, p v) (k : String) : ∀ v ∈ parts (member ms k), p v := by
  intro v inside
  rcases partsMember inside with rfl | found
  · exact null
  · cases a with
    | null =>
      cases shown
      cases found
    | object =>
      cases shown
      exact every v (List.mem_cons_of_mem _ found)
    | _ => cases shown

def ListFree (a : Json) : Prop := ∀ v ∈ parts a, v.isList = false

instance (a : Json) : Decidable (ListFree a) := inferInstanceAs (Decidable (∀ v ∈ parts a, v.isList = false))

theorem ListFree.inside {a : Json} (free : ListFree a) {ms : List (String × Json)} (shown : a.members? = some ms)
    (k : String) : ListFree (member ms k) :=
  everyPart (p := fun v => v.isList = false) rfl shown free k

end Json

namespace Rule
open Json

theorem belowOfAgree {path : String} {d o : Json} (walked : walk path d o = []) (agrees : agree d o = true) :
    below path d o = [] := by
  unfold below
  split
  · exact walked
  · split
    · exact leafNothing.mpr (bagsOfAgree agrees)
    · exact leafNothing.mpr agrees

theorem walkOfAgree (path : String) {d o : Json} (agrees : agree d o = true) : walk path d o = [] := by
  cases left : d.members? with
  | none =>
    rw [walkLeaf path (.inl left)]
    exact leafNothing.mpr agrees
  | some l =>
    cases right : o.members? with
    | none =>
      rw [walkLeaf path (.inr right)]
      exact leafNothing.mpr agrees
    | some r =>
      rw [walkNames left right, List.flatMap_eq_nil_iff]
      intro k named
      have smaller := sizeMembersLt left right (memNameUnion named)
      have here := (agreeNames left right).mp agrees k
      exact belowOfAgree (walkOfAgree _ here) here
termination_by d.size + o.size

theorem agreeOfWalk {path : String} {d o : Json} (leftFree : ListFree d) (rightFree : ListFree o)
    (nothing : walk path d o = []) : agree d o = true := by
  cases left : d.members? with
  | none =>
    rw [walkLeaf path (.inl left)] at nothing
    exact leafNothing.mp nothing
  | some l =>
    cases right : o.members? with
    | none =>
      rw [walkLeaf path (.inr right)] at nothing
      exact leafNothing.mp nothing
    | some r =>
      rw [agreeMembers left right, List.all_eq_true]
      intro k named
      have smaller := sizeMembersLt left right named
      have leftInside : ListFree (member l k) := leftFree.inside left k
      have rightInside : ListFree (member r k) := rightFree.inside right k
      have here := (walkNothing left right path).mp nothing k
      unfold below at here
      rw [leftInside _ (partsSelf _), rightInside _ (partsSelf _)] at here
      split at here
      · exact agreeOfWalk leftInside rightInside here
      · exact leafNothing.mp here
termination_by d.size + o.size

theorem rulesByStrictness :
    (∀ a b, agreeAsMaps a b = true → agree a b = true) ∧ (∀ a b, agree a b = true → agreeAsBags a b = true) ∧
      (∀ path a b, agree a b = true → walk path a b = []) ∧
      ∀ path a b, ListFree a → ListFree b → (walk path a b = [] ↔ agree a b = true) := by
  refine ⟨fun _ _ => agreeOfMaps, fun _ _ => bagsOfAgree, fun path _ _ => walkOfAgree path, ?_⟩
  intro path a b left right
  exact ⟨agreeOfWalk left right, walkOfAgree path⟩

theorem emptyClaimAgrees :
    let a : Json := .object [("issuer", .text "https://id"), ("claims", .object [("team", .text "")])]
    let b : Json := .object [("issuer", .text "https://id")]
    ListFree a ∧ ListFree b ∧ agree a b = true ∧ agreeAsBags a b = true ∧ agreeAsMaps b b = true ∧
      walk "oidc" b b = [] := by
  intro a b
  obtain ⟨ofMaps, toBags, toWalk, exactly⟩ := rulesByStrictness
  have left : ListFree a := by decide +kernel
  have right : ListFree b := by decide +kernel
  have silent : walk "oidc" a b = [] := by decide +kernel
  have agrees := (exactly "oidc" a b left right).mp silent
  have same : agreeAsMaps b b = true := by decide +kernel
  exact ⟨left, right, agrees, toBags a b agrees, same, toWalk "oidc" b b (ofMaps b b same)⟩

/- None of this can be turned around: a name that only one side has tells maps apart, and order tells apart neither bags
nor what a walk sees below a name. -/
example :
    let a : Json := .object [("types", .list [.text "api", .text "audit"]), ("enabled", .bool false)]
    let b : Json := .object [("types", .list [.text "audit", .text "api"])]
    agreeAsMaps (.object [("enabled", .bool false)]) .null = false ∧
      agree (.object [("enabled", .bool false)]) .null = true ∧
      agreeAsBags (.list [a, b]) (.list [b, a]) = true ∧ agree (.list [a, b]) (.list [b, a]) = false ∧
      walk "logging" a b = [] ∧ agree a b = false := by
  decide +kernel

end Rule
end DesiredState
