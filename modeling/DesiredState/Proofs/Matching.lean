import DesiredState.Proofs.FixedPoint
import Mathlib.Data.Fintype.Basic
import Mathlib.Data.List.Zip
import Mathlib.Logic.Equiv.Fin.Basic

/-!
Matching one to one. Two lists are paired when a bijection of their positions pairs related items only. Bags that agree
are paired; where agreement is transitive on the items of both, bags agree exactly when they are paired. -/
namespace DesiredState

def Paired {α β : Type} (related : α → β → Prop) (xs : List α) (ys : List β) : Prop :=
  ∃ pair : Fin xs.length ≃ Fin ys.length, ∀ i, related xs[i] ys[pair i]

namespace Paired
variable {α β γ ρ : Type} {related : α → β → Prop} {xs : List α} {ys : List β}

theorem inTurn (each : List.Forall₂ related xs ys) : Paired related xs ys := by
  refine ⟨finCongr each.length_eq, fun i => ?_⟩
  have here := each.get i.isLt (each.length_eq ▸ i.isLt)
  simpa using here

theorem ofPerm {zs : List α} (perm : xs.Perm zs) : Paired Eq xs zs := by
  classical
  refine ⟨⟨perm.idxBij, perm.symm.idxBij, perm.idxBij_rightInverse_idxBij_symm,
    perm.idxBij_leftInverse_idxBij_symm⟩, fun i => ?_⟩
  exact (perm.getElem_idxBij_eq_getElem i).symm

theorem trans {next : β → γ → Prop} {zs : List γ} (first : Paired related xs ys) (second : Paired next ys zs) :
    Paired (fun x z => ∃ y, related x y ∧ next y z) xs zs := by
  obtain ⟨pair, pairs⟩ := first
  obtain ⟨pair', pairs'⟩ := second
  exact ⟨pair.trans pair', fun i => ⟨_, pairs i, pairs' (pair i)⟩⟩

theorem weaken {weaker : α → β → Prop} (paired : Paired related xs ys)
    (implies : ∀ x ∈ xs, ∀ y ∈ ys, related x y → weaker x y) : Paired weaker xs ys := by
  obtain ⟨pair, pairs⟩ := paired
  exact ⟨pair, fun i => implies _ (List.getElem_mem _) _ (List.getElem_mem _) (pairs i)⟩

theorem congr {same : α → β → Prop} (alike : ∀ x y, related x y ↔ same x y) :
    Paired related xs ys ↔ Paired same xs ys := by
  constructor
  · intro paired
    exact paired.weaken fun x _ y _ => (alike x y).mp
  · intro paired
    exact paired.weaken fun x _ y _ => (alike x y).mpr

theorem readings {r : α → ρ} {s : β → ρ} : Paired (fun x y => r x = s y) xs ys ↔ (xs.map r).Perm (ys.map s) := by
  constructor
  · rintro ⟨pair, pairs⟩
    have left : (Finset.univ.val.map fun i : Fin xs.length => r xs[i]) = (xs.map r : Multiset ρ) := by
      simp
    have right : (Finset.univ.val.map fun j : Fin ys.length => s ys[j]) = (ys.map s : Multiset ρ) := by
      simp
    have moved : (Finset.univ.val.map fun i : Fin xs.length => s ys[pair i]) =
        (Finset.univ.val.map pair).map fun j : Fin ys.length => s ys[j] := by
      rw [Multiset.map_map]
      rfl
    rw [← Multiset.coe_eq_coe, ← left, ← right]
    simp only [pairs, moved, Multiset.map_univ_val_equiv]
  · intro perm
    have first : List.Forall₂ (fun x c => r x = c) xs (xs.map r) := by
      simp [List.forall₂_map_right_iff, List.forall₂_same]
    have last : List.Forall₂ (fun c y => c = s y) (ys.map s) ys := by
      simp [List.forall₂_map_left_iff, List.forall₂_same]
    refine (((inTurn first).trans (ofPerm perm)).trans (inTurn last)).weaken fun x _ y _ related => ?_
    obtain ⟨c, ⟨_, rfl, rfl⟩, same⟩ := related
    exact same

end Paired

namespace Json

theorem agreeComm (a b : Json) : agree a b = agree b a := by
  -- By induction on both sizes, members being looked up by name.
  by_cases lists : (a.isList && b.isList) = true
  · cases a with
    | list xs =>
      cases b with
      | list ys =>
        rw [agreeList, agreeList, ← List.zip_swap xs ys, List.all_map, Bool.beq_comm]
        congr 1
        rw [Bool.eq_iff_iff, List.all_eq_true, List.all_eq_true]
        refine forall₂_congr fun p inside => ?_
        obtain ⟨left, right⟩ := List.of_mem_zip inside
        have smaller := sizeItemLe left
        have smaller' := sizeItemLe right
        rw [agreeComm p.1 p.2]
        rfl
      | _ => simp [isList] at lists
    | _ => simp [isList] at lists
  · rw [Bool.not_eq_true] at lists
    by_cases objects : (a.isObject || b.isObject) = true
    · cases left : a.members? with
      | none =>
        rw [agreeForeign objects (.inl left), agreeForeign (Bool.or_comm _ _ ▸ objects) (.inr left), Bool.and_comm]
      | some l =>
        cases right : b.members? with
        | none =>
          rw [agreeForeign objects (.inr right), agreeForeign (Bool.or_comm _ _ ▸ objects) (.inl right),
            Bool.and_comm]
        | some r =>
          rw [agreeMembers left right, agreeMembers right left, List.all_append, List.all_append, Bool.and_comm,
            ← List.all_append, ← List.all_append, Bool.eq_iff_iff, List.all_eq_true, List.all_eq_true]
          refine forall₂_congr fun k named => ?_
          have smaller := sizeMembersLt right left named
          rw [agreeComm (member l k) (member r k)]
    · rw [Bool.not_eq_true] at objects
      rw [agreeScalar objects lists, agreeScalar (Bool.or_comm _ _ ▸ objects) (Bool.and_comm _ _ ▸ lists),
        Bool.and_comm, Bool.beq_comm]
termination_by a.size + b.size
decreasing_by
  · simp only [size]
    omega
  · omega

def Transitive (vs : List Json) : Prop :=
  ∀ u ∈ vs, ∀ v ∈ vs, ∀ w ∈ vs, agree u v = true → agree v w = true → agree u w = true

def kin (vs : List Json) (v w : Json) : Prop := w ∈ vs ∧ agree v w = true

theorem Transitive.sorts {vs : List Json} (transitive : Transitive vs) {v w : Json} (left : v ∈ vs) (right : w ∈ vs) :
    agree v w = true ↔ kin vs v = kin vs w := by
  constructor
  · intro agrees
    funext u
    refine propext (and_congr_right fun inside => ?_)
    constructor
    · intro first
      exact transitive w right v left u inside (agreeComm v w ▸ agrees) first
    · intro second
      exact transitive v left w right u inside agrees second
  · intro same
    have itself : kin vs w w := ⟨right, agreeSelf w⟩
    rw [← same] at itself
    exact itself.2

section
variable {ρ : Type} {r : Json → ρ} {vs xs ys : List Json}

theorem matchItemsWithin (faithful : ∀ v ∈ vs, ∀ w ∈ vs, agree v w = true ↔ r v = r w) (left : xs ⊆ vs)
    (right : ys ⊆ vs) : matchItems xs ys = true ↔ (xs.map r).Perm (ys.map r) := by
  have shown (zs : List Json) (within : ∀ z ∈ zs, z ∈ vs) :
      (zs.attachWith (· ∈ vs) within).map (fun v => r v.1) = zs.map r := by
    conv => rhs; rw [← List.attachWith_map_subtype_val within, List.map_map]
    rfl
  have images := matchItemsImages (α := { v // v ∈ vs }) (f := Subtype.val) (r := fun v => r v.1)
    (fun v w => faithful v.1 v.2 w.1 w.2) (xs.attachWith _ fun _ inside => left inside)
    (ys.attachWith _ fun _ inside => right inside)
  rwa [List.attachWith_map_subtype_val, List.attachWith_map_subtype_val, shown, shown] at images

theorem Transitive.matches (transitive : Transitive vs) (left : xs ⊆ vs) (right : ys ⊆ vs) :
    matchItems xs ys = true ↔ (xs.map (kin vs)).Perm (ys.map (kin vs)) :=
  matchItemsWithin (fun _ left _ right => transitive.sorts left right) left right

theorem matchPaired (matched : matchItems xs ys = true) : Paired (fun x y => agree x y = true) xs ys := by
  have taken : ∃ zs, List.Forall₂ (fun x z => agree x z = true) xs zs ∧ zs.Perm ys := by
    induction xs generalizing ys with
    | nil =>
      obtain rfl := List.isEmpty_iff.mp matched
      exact ⟨[], .nil, .refl _⟩
    | cons x xs ih =>
      unfold matchItems at matched
      split at matched
      · rename_i i place
        obtain ⟨inside, agrees, _⟩ := List.findIdx?_eq_some_iff_getElem.mp place
        obtain ⟨zs, each, perm⟩ := ih matched
        -- The one taken goes first; the others are matched with what is left.
        refine ⟨ys[i] :: zs, .cons agrees each, (perm.cons ys[i]).trans ?_⟩
        exact List.getElem_cons_eraseIdx_perm inside
      · cases matched
  obtain ⟨zs, each, perm⟩ := taken
  refine ((Paired.inTurn each).trans (.ofPerm perm)).weaken fun x _ y _ related => ?_
  obtain ⟨z, agrees, rfl⟩ := related
  exact agrees

variable (transitive : Transitive (xs ++ ys))
include transitive

theorem Transitive.complete (paired : Paired (fun x y => agree x y = true) xs ys) : matchItems xs ys = true := by
  have left : xs ⊆ xs ++ ys := List.subset_append_left xs ys
  have right : ys ⊆ xs ++ ys := List.subset_append_right xs ys
  refine (transitive.matches left right).mpr (Paired.readings.mp (paired.weaken fun x inside y inside' agrees => ?_))
  exact (transitive.sorts (left inside) (right inside')).mp agrees

theorem Transitive.matchesComm : matchItems ys xs = matchItems xs ys := by
  have left : xs ⊆ xs ++ ys := List.subset_append_left xs ys
  have right : ys ⊆ xs ++ ys := List.subset_append_right xs ys
  rw [Bool.eq_iff_iff, transitive.matches left right, transitive.matches right left]
  exact List.perm_comm

theorem Transitive.matchesReordered {xs' ys' : List Json} (left : xs.Perm xs') (right : ys.Perm ys') :
    matchItems xs' ys' = matchItems xs ys := by
  have first : xs ⊆ xs ++ ys := List.subset_append_left xs ys
  have second : ys ⊆ xs ++ ys := List.subset_append_right xs ys
  rw [Bool.eq_iff_iff, transitive.matches first second,
    transitive.matches (List.Subset.trans left.symm.subset first) (List.Subset.trans right.symm.subset second)]
  constructor
  · intro same
    exact (left.map _).trans (same.trans (right.map _).symm)
  · intro same
    exact (left.map _).symm.trans (same.trans (right.map _))

end

instance (vs : List Json) : Decidable (Transitive vs) :=
  inferInstanceAs (Decidable (∀ u ∈ vs, ∀ v ∈ vs, ∀ w ∈ vs, agree u v = true → agree v w = true → agree u w = true))

/- Bags that agree are paired. Where agreement is transitive on all their items, any pairing is found, and neither the
side nor the order counts. -/
theorem bagsOneToOne (xs ys : List Json) :
    (agreeAsBags (.list xs) (.list ys) = true → Paired (fun x y => agree x y = true) xs ys) ∧
      (Transitive (xs ++ ys) →
        (Paired (fun x y => agree x y = true) xs ys → agreeAsBags (.list xs) (.list ys) = true) ∧
        agreeAsBags (.list ys) (.list xs) = agreeAsBags (.list xs) (.list ys) ∧
        ∀ xs' ys', xs.Perm xs' → ys.Perm ys' →
          agreeAsBags (.list xs') (.list ys') = agreeAsBags (.list xs) (.list ys)) := by
  refine ⟨matchPaired, fun transitive => ⟨transitive.complete, transitive.matchesComm, ?_⟩⟩
  intro xs' ys' left right
  exact transitive.matchesReordered left right

theorem zerosPaired :
    let xs : List Json := [.null, .text "a", .int 0]
    let ys : List Json := [.text "", .bool false, .text "a"]
    Transitive (xs ++ ys) ∧ Paired (fun x y => agree x y = true) xs ys ∧ agreeAsBags (.list ys) (.list xs) = true := by
  intro xs ys
  have transitive : Transitive (xs ++ ys) := by decide +kernel
  have found : agreeAsBags (.list xs) (.list ys) = true := by decide +kernel
  obtain ⟨sound, complete⟩ := bagsOneToOne xs ys
  exact ⟨transitive, sound found, (complete transitive).2.1.trans found⟩

/- Null agrees with the number and with the object, which do not agree with each other: it takes the first of them, and
whether that is the right one is a matter of the order. -/
example :
    agreeAsBags (.list [.null, .int 0]) (.list [.int 0, .object [("a", .int 0)]]) = false ∧
      agreeAsBags (.list [.int 0, .null]) (.list [.int 0, .object [("a", .int 0)]]) = true := by
  decide +kernel

end Json
end DesiredState
