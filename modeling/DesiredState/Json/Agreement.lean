import DesiredState.Json.Basic

/-!
Three ways in which two values may say the same. `agree` takes an unset value and a zero for equal,
everywhere inside; `agreeAsMaps` also asks for equal sets of names at the top; `agreeAsBags` ignores
the order of a list at the top. None of them is transitive on arbitrary values.
-/
namespace DesiredState.Json

/-- Equal up to zeros. Lists agree position by position; objects agree under every name of either. -/
def agree (a b : Json) : Bool :=
  if a.isZero && b.isZero then true
  else
    match a, b with
    | .list xs, .list ys => xs.length == ys.length && (xs.attach.zip ys.attach).all fun (x, y) => agree x.1 y.1
    | a, b =>
      if a.isObject || b.isObject then
        match _left : a.members?, _right : b.members? with
        | some l, some r => (names l ++ names r).attach.all fun k => agree (member l k.1) (member r k.1)
        | _, _ => false
      else a == b
termination_by a.size + b.size
decreasing_by
  · simp only [size]
    have := sizeItemLe x.2
    have := sizeItemLe y.2
    omega
  · exact sizeMembersLt _left _right k.2

theorem allUnattach {α : Type} (xs : List α) (p : α → Bool) : (xs.attach.all fun x => p x.1) = xs.all p := by
  conv => rhs; rw [← List.attach_map_subtype_val xs, List.all_map]
  rfl

theorem zipUnattach (xs ys : List Json) :
    (xs.attach.zip ys.attach).all (fun p => agree p.1.1 p.2.1) = (xs.zip ys).all fun p => agree p.1 p.2 := by
  conv => rhs; rw [← List.attach_map_subtype_val xs, ← List.attach_map_subtype_val ys, List.zip_map, List.all_map]
  rfl

theorem agreeZeros {a b : Json} (zeros : (a.isZero && b.isZero) = true) : agree a b = true := by
  rw [agree.eq_def, if_pos zeros]

theorem agreeList (xs ys : List Json) :
    agree (.list xs) (.list ys) = (xs.length == ys.length && (xs.zip ys).all fun p => agree p.1 p.2) := by
  rw [agree]
  split
  · rename_i zeros
    obtain ⟨left, right⟩ := Bool.and_eq_true_iff.mp zeros
    have : xs = [] := List.isEmpty_iff.mp left
    have : ys = [] := List.isEmpty_iff.mp right
    subst xs; subst ys; rfl
  · exact congrArg (xs.length == ys.length && ·) (zipUnattach xs ys)

theorem membersZero {c : Json} {ms : List (String × Json)} (found : c.members? = some ms) (zero : c.isZero = true) :
    ms = [] := by
  cases c <;> cases found
  · rfl
  · exact List.isEmpty_iff.mp zero

theorem agreeMembers {a b : Json} {l r : List (String × Json)} (left : a.members? = some l)
    (right : b.members? = some r) :
    agree a b = (names l ++ names r).all fun k => agree (member l k) (member r k) := by
  by_cases zeros : (a.isZero && b.isZero) = true
  · obtain ⟨za, zb⟩ := Bool.and_eq_true_iff.mp zeros
    rw [agreeZeros zeros, membersZero left za, membersZero right zb]; rfl
  · rw [agree.eq_2 a b (by rintro xs ys rfl; cases left), if_neg zeros]
    have objects : (a.isObject || b.isObject) = true := by
      cases a <;> cases b <;> first | rfl | exact (zeros rfl).elim | cases left; done | cases right
    rw [if_pos objects]
    split
    · rename_i hl hr
      rw [left] at hl; rw [right] at hr
      cases hl; cases hr
      exact allUnattach _ fun k => agree (member l k) (member r k)
    · rename_i none'
      exact (none' _ _ left right).elim

theorem agreeScalar {a b : Json} (plain : (a.isObject || b.isObject) = false)
    (single : (a.isList && b.isList) = false) : agree a b = (a.isZero && b.isZero || a == b) := by
  rw [agree.eq_2 a b (by rintro xs ys rfl rfl; cases single), plain]
  cases a.isZero && b.isZero <;> rfl

theorem agreeForeign {a b : Json} (object : (a.isObject || b.isObject) = true)
    (foreign : a.members? = none ∨ b.members? = none) : agree a b = (a.isZero && b.isZero) := by
  rw [agree.eq_2 a b (by rintro xs ys rfl rfl; cases object), if_pos object]
  split
  · rename_i zeros; rw [zeros]
  · rename_i zeros
    rw [Bool.not_eq_true] at zeros
    rw [zeros]
    split
    · rename_i left right
      rcases foreign with f | f
      · rw [f] at left; cases left
      · rw [f] at right; cases right
    · rfl

/-- Equal sets of names, and agreement under each; null is the empty map. Values of which one is
neither an object nor null fall back to `agree`. -/
def agreeAsMaps (a b : Json) : Bool :=
  match a.members?, b.members? with
  | some l, some r =>
    (names l).all (names r).contains && (names r).all (names l).contains &&
      (names l).all fun k => agree (member l k) (member r k)
  | _, _ => agree a b

/-- Takes for each left item the first right item not taken yet that agrees with it; all must be taken. -/
def matchItems : List Json → List Json → Bool
  | [], ys => ys.isEmpty
  | x :: xs, ys =>
    match ys.findIdx? (agree x) with
    | some i => matchItems xs (ys.eraseIdx i)
    | none => false

def agreeAsBags (a b : Json) : Bool :=
  match a.items?, b.items? with
  | some xs, some ys => matchItems xs ys
  | _, _ => agree a b

end DesiredState.Json
