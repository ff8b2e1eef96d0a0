import DesiredState.Json.Agreement
import DesiredState.Json.Record

/-!
Bags of renderings. Where agreement of two renderings means equality of what they say, two bags agree
exactly when they say the same up to order. -/
namespace DesiredState.Json

theorem agreeText (s t : String) : agree (.text s) (.text t) = true ↔ s = t := by
  rw [agreeScalar rfl rfl]
  simp only [isZero, String.isEmpty_iff, Bool.or_eq_true, Bool.and_eq_true, beq_iff_eq, text.injEq]
  constructor
  · rintro (⟨left, right⟩ | same)
    · rw [left, right]
    · exact same
  · exact .inr

theorem agreeOptionalText {s : String} (set : s ≠ "") (o : Option String) :
    agree (.text s) (.ofOption .text o) = true ↔ o = some s := by
  cases o with
  | none =>
    rw [agreeScalar rfl rfl]
    simp [isZero, ofOption, set]
  | some t =>
    rw [ofOption, agreeText, Option.some.injEq]
    exact eq_comm

theorem agreeTexts (xs ys : List String) :
    agree (Codec.text.list.write xs) (Codec.text.list.write ys) = true ↔ xs = ys := by
  change agree (.list (xs.map .text)) (.list (ys.map .text)) = true ↔ _
  rw [agreeList, Bool.and_eq_true, beq_iff_eq, List.length_map, List.length_map]
  induction xs generalizing ys with
  | nil => cases ys <;> simp
  | cons x xs ih =>
    cases ys with
    | nil => simp
    | cons y ys =>
      rw [List.map_cons, List.map_cons, List.zip_cons_cons, List.all_cons, Bool.and_eq_true, agreeText,
        List.cons.injEq, ← ih ys, List.length_cons, List.length_cons, Nat.add_right_cancel_iff]
      exact and_left_comm

theorem agreeObjects {a b : String} (other : a ≠ b) (v w x y : Json) :
    agree (.object [(a, v), (b, w)]) (.object [(a, x), (b, y)]) = true ↔ agree v x = true ∧ agree w y = true := by
  rw [agreeMembers rfl rfl]
  simp only [names, member, List.lookup_cons, List.map_cons, List.map_nil, List.cons_append, List.nil_append,
    List.all_cons, List.all_nil, beq_self_eq_true, beq_false_of_ne other.symm, Option.getD_some, Bool.and_true,
    Bool.and_eq_true]
  exact ⟨fun both => ⟨both.1, both.2.1⟩, fun both => ⟨both.1, both.2, both⟩⟩

section
variable {α ρ : Type} {f : α → Json} {r : α → ρ}

theorem matchItemsImages (faithful : ∀ p q, agree (f p) (f q) = true ↔ r p = r q) (ps qs : List α) :
    matchItems (ps.map f) (qs.map f) = true ↔ (ps.map r).Perm (qs.map r) := by
  induction ps generalizing qs with
  | nil => simp [matchItems]
  | cons p ps ih =>
    rw [List.map_cons, List.map_cons, matchItems, List.findIdx?_map]
    -- It does not matter which of the items that say the same is taken.
    cases place : qs.findIdx? (agree (f p) ∘ f) with
    | none =>
      have apart : r p ∉ qs.map r := by
        intro member
        obtain ⟨q, inside, same⟩ := List.mem_map.mp member
        have agrees := (faithful p q).mpr same.symm
        have misses := List.findIdx?_eq_none_iff.mp place q inside
        exact Bool.false_ne_true (misses.symm.trans agrees)
      exact iff_of_false Bool.false_ne_true fun perm => apart (perm.subset List.mem_cons_self)
    | some i =>
      obtain ⟨inside, agrees, _⟩ := List.findIdx?_eq_some_iff_getElem.mp place
      have same : r p = r qs[i] := (faithful p qs[i]).mp agrees
      have split : qs = qs.take i ++ qs[i] :: qs.drop (i + 1) := by
        rw [← List.drop_eq_getElem_cons inside, List.take_append_drop]
      have taken : (qs.map f).eraseIdx i = (qs.take i ++ qs.drop (i + 1)).map f := by
        rw [List.eraseIdx_eq_take_drop_succ, List.map_append, List.map_take, List.map_drop]
      have moved : (qs.map r).Perm (r p :: (qs.take i ++ qs.drop (i + 1)).map r) := by
        have middle := congrArg (List.map r) split
        rw [List.map_append, List.map_cons, ← same] at middle
        rw [middle, List.map_append]
        exact List.perm_middle
      dsimp only
      rw [taken, ih, ← List.perm_cons (r p)]
      exact ⟨fun perm => perm.trans moved.symm, fun perm => perm.trans moved⟩

theorem agreeBagsImages (faithful : ∀ p q, agree (f p) (f q) = true ↔ r p = r q) (ps qs : List α) :
    agreeAsBags (.list (ps.map f)) (.list (qs.map f)) = true ↔ (ps.map r).Perm (qs.map r) :=
  matchItemsImages faithful ps qs

end

theorem agreeTextBags (xs ys : List String) :
    agreeAsBags (Codec.text.list.write xs) (Codec.text.list.write ys) = true ↔ xs.Perm ys := by
  have images := agreeBagsImages (f := Json.text) (r := id) agreeText xs ys
  rwa [List.map_id, List.map_id] at images

end DesiredState.Json
