import DesiredState.Delta.Basic
import DesiredState.Proofs.Texts

/-!
Paths by their names. A path lies under another one when it goes by all the names of the other first. What a delta says
about a path, and what is left when the path is stripped, follow from this order alone, so it does not matter which of
several paths is stripped first. -/
namespace DesiredState

def pathNames (path : String) : List String := (path.toList.splitOn '.').map String.ofList

section
variable {p q r : String}

theorem joinNames (p : String) : ".".intercalate (pathNames p) = p := joinPieces (by decide) p

theorem pathUnderIff : pathUnder p q = true ↔ p = q ∨ q.toList ++ ['.'] <+: p.toList := by
  unfold pathUnder
  rw [Bool.or_eq_true, beq_iff_eq, List.isPrefixOf_iff_prefix]

theorem underNames : pathUnder p q = true ↔ pathNames q <+: pathNames p := by
  rw [pathUnderIff]
  constructor
  · rintro (rfl | ⟨rest, joined⟩)
    · exact List.prefix_rfl
    · have split : pathNames p = pathNames q ++ (rest.splitOn '.').map String.ofList := by
        unfold pathNames
        rw [← joined, List.append_assoc, List.singleton_append, List.splitOn_append_cons_self, List.map_append]
      rw [split]
      exact List.prefix_append _ _
  · -- A dot follows the names of `q`, unless these are all there are.
    rintro ⟨more, split⟩
    have joined := joinNames p
    rw [← split] at joined
    cases more with
    | nil =>
      rw [List.append_nil, joinNames] at joined
      exact .inl joined.symm
    | cons name more =>
      have top : pathNames q ≠ [] := by
        unfold pathNames
        simp [List.splitOn_ne_nil]
      rw [String.intercalate_append_of_ne_nil top (List.cons_ne_nil name more), joinNames] at joined
      refine .inr ⟨(".".intercalate (name :: more)).toList, ?_⟩
      rw [← joined]
      simp

theorem underSelf (p : String) : pathUnder p p = true := underNames.mpr List.prefix_rfl

theorem underTrans (lower : pathUnder p q = true) (upper : pathUnder q r = true) : pathUnder p r = true :=
  underNames.mpr ((underNames.mp upper).trans (underNames.mp lower))

theorem underEither (left : pathUnder p q = true) (right : pathUnder p r = true) :
    pathUnder q r = true ∨ pathUnder r q = true := by
  rw [underNames, underNames]
  exact (List.prefix_or_prefix_of_prefix (underNames.mp left) (underNames.mp right)).symm

theorem underMember (path name : String) : pathUnder s!"{path}.{name}" path = true := by
  refine pathUnderIff.mpr (.inr ⟨name.toList, ?_⟩)
  simp [toString]

end

namespace Delta
variable {δ : Delta} {top : String}

theorem keptIff {x : Difference} : (!pathUnder x.path top) = decide ¬pathNames top <+: pathNames x.path := by
  rw [Bool.eq_iff_iff, Bool.not_eq_true', decide_eq_true_iff, ← underNames, Bool.not_eq_true]

structure Strips (δ : Delta) (top : String) : Prop where
  kept : (δ.strip top).differences = δ.differences.filter fun x => ¬pathNames top <+: pathNames x.path
  counted : δ.strippedCount top = (δ.pathsUnder top).length
  gone : (δ.strip top).differsAt top = false
  others : ∀ other, (δ.strip top).pathsUnder other = (δ.pathsUnder other).filter fun p => ¬pathNames top <+: pathNames p

theorem strips (δ : Delta) (top : String) : δ.Strips top where
  kept := List.filter_congr fun _ _ => keptIff
  counted := by
    have split := List.length_eq_countP_add_countP (fun x : Difference => pathUnder x.path top) (l := δ.differences)
    unfold strippedCount pathsUnder size strip
    rw [List.length_map, ← List.countP_eq_length_filter, ← List.countP_eq_length_filter]
    simp only [Bool.not_eq_true, Bool.decide_eq_false] at split
    omega
  gone := by
    unfold differsAt strip
    simp
  others other := by
    unfold pathsUnder strip
    rw [List.filter_map, List.filter_filter, List.filter_filter]
    refine congrArg _ (List.filter_congr fun x _ => ?_)
    rw [keptIff, Bool.and_comm]
    rfl

theorem stripAll (δ : Delta) (tops : List String) :
    (tops.foldl strip δ).differences = δ.differences.filter fun x => !tops.any fun top => pathUnder x.path top := by
  induction tops generalizing δ with
  | nil => exact (List.filter_eq_self.mpr fun _ _ => rfl).symm
  | cons top tops ih =>
    rw [List.foldl_cons, ih]
    unfold strip
    rw [List.filter_filter]
    refine List.filter_congr fun x _ => ?_
    rw [List.any_cons, Bool.not_or, Bool.and_comm]

theorem outsideIff {tops order : List String} (same : order.Perm tops) :
    δ.differsOutside tops = true ↔ (order.foldl strip δ).isEmpty = false := by
  have any (x : Difference) : (order.any fun top => pathUnder x.path top) = tops.any fun top => pathUnder x.path top :=
    same.any_eq
  unfold isEmpty differsOutside
  simp only [stripAll, any]
  rw [List.isEmpty_eq_false_iff, Ne, List.filter_eq_nil_iff, List.any_eq_true]
  simp

/- A delta goes by the names of its paths alone. -/
theorem pathsGoByNames :
    (∀ p top, pathUnder p top = true ↔ pathNames top <+: pathNames p) ∧ (∀ δ top, Strips δ top) ∧
      ∀ (δ : Delta) (tops order : List String), order.Perm tops →
        (δ.differsOutside tops = true ↔ (order.foldl strip δ).isEmpty = false) :=
  ⟨fun _ _ => underNames, strips, fun _ _ _ => outsideIff⟩

theorem emptyNamesStripped :
    let δ : Delta := ⟨["a.b.c", "a.bc", "a..é", ".a"].map fun path => ⟨path, .bool true, .null⟩⟩
    (δ.strip "a.b").paths = ["a.bc", "a..é", ".a"] ∧ (["a.", "a.b"].foldl strip δ).paths = ["a.bc", ".a"] ∧
      (δ.differsOutside ["a.b", "a."] = true ↔ (["a.", "a.b"].foldl strip δ).isEmpty = false) := by
  intro δ
  exact ⟨by decide +kernel, by decide +kernel, pathsGoByNames.2.2 δ _ _ (.swap _ _ _)⟩

end Delta
end DesiredState
