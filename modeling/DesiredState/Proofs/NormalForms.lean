import DesiredState.Proofs.Matching

/-!
Normal forms of values. Zeros become null, and members without a value are dropped. Where two values are of one shape
they agree exactly when their normal forms are equal. -/
namespace DesiredState.Json

theorem sizeMembersLe {m : String × Json} {ms : List (String × Json)} (inside : m ∈ ms) :
    m.2.size ≤ membersSize ms := by
  induction ms with
  | nil => simp at inside
  | cons n ms ih =>
    rcases List.mem_cons.mp inside with here | later
    · simp [membersSize, here]
    · have := ih later
      simp only [membersSize]
      omega

/- Zeros are null. A list keeps its length; an object keeps the members that are not null, ascending by name. -/
def normal : Json → Json
  | .list xs => if xs.isEmpty then .null else .list (xs.attach.map fun x => normal x.1)
  | .object ms =>
    let values := SortedMap.ofList (ms.attach.map fun m => (m.1.1, normal m.1.2))
    let present := values.entries.filter fun e => e.2 != .null
    if present.isEmpty then .null else .object present
  | v => if v.isZero then .null else v
termination_by v => v.size
decreasing_by
  · have := sizeItemLe x.2
    simp only [size]
    omega
  · have := sizeMembersLe m.2
    simp only [size]
    omega

theorem normalList (xs : List Json) : normal (.list xs) = if xs.isEmpty then .null else .list (xs.map normal) := by
  rw [normal, List.attach_map_val]

def present (ms : List (String × Json)) : SortedMap String Json :=
  let values := SortedMap.ofList (ms.map fun m => (m.1, normal m.2))
  ⟨values.entries.filter fun e => e.2 != .null, values.ascending.filter _⟩

theorem normalObject (ms : List (String × Json)) :
    normal (.object ms) = if (present ms).isEmpty then .null else .object (present ms).entries := by
  have plain : (ms.attach.map fun m => (m.1.1, normal m.1.2)) = ms.map fun m => (m.1, normal m.2) :=
    List.attach_map_val (f := fun m : String × Json => (m.1, normal m.2))
  rw [normal, plain]
  rfl

theorem normalPlain {v : Json} (object : v.isObject = false) (list : v.isList = false) :
    normal v = if v.isZero then .null else v := by
  cases v with
  | list => cases list
  | object => cases object
  | _ => simp [normal]

theorem normalNull : normal .null = .null := normalPlain rfl rfl

theorem getPresent (ms : List (String × Json)) (k : String) :
    (present ms).get? k = ((ms.lookup k).map normal).filter fun v => v != .null := by
  have found : (SortedMap.ofList (ms.map fun m => (m.1, normal m.2))).get? k = (ms.lookup k).map normal := by
    induction ms with
    | nil => rfl
    | cons m ms ih =>
      rw [List.map_cons, SortedMap.ofListCons, SortedMap.getInsert, ih, List.lookup_cons]
      by_cases same : k = m.1
      · rw [if_pos (SortedMap.sameKeyIff.mpr same), beq_iff_eq.mpr same]
        rfl
      · rw [if_neg (mt SortedMap.sameKeyIff.mp same), beq_false_of_ne same]
  apply Option.ext
  intro v
  rw [SortedMap.getSomeIff, present, List.mem_filter, ← SortedMap.getSomeIff, found, Option.filter_eq_some_iff]

theorem normalMember (ms : List (String × Json)) (k : String) :
    normal (member ms k) = ((ms.lookup k).map normal).getD .null := by
  unfold member
  cases ms.lookup k with
  | none => exact normalNull
  | some v => rfl

theorem normalObjects {ms ns : List (String × Json)} :
    normal (.object ms) = normal (.object ns) ↔ ∀ k, normal (member ms k) = normal (member ns k) := by
  have packed : normal (.object ms) = normal (.object ns) ↔ present ms = present ns := by
    rw [normalObject, normalObject, SortedMap.ext_iff]
    unfold SortedMap.isEmpty
    cases (present ms).entries <;> cases (present ns).entries <;> simp
  rw [packed]
  constructor
  · intro same k
    rw [normalMember, normalMember, ← filterEqIff, ← getPresent, ← getPresent, same]
  · intro same
    refine SortedMap.extLookup fun k => ?_
    rw [getPresent, getPresent, filterEqIff, ← normalMember, ← normalMember, same]

theorem normalNothing {ms : List (String × Json)} :
    normal (.object ms) = .null ↔ ∀ k ∈ names ms, normal (member ms k) = .null := by
  have blank : normal (.object ms) = .null ↔ normal (.object ms) = normal (.object []) := by
    rw [show normal (.object []) = .null from normalObject []]
  have none' (k : String) : normal (member [] k) = .null := normalNull
  simp only [blank, normalObjects, none']
  constructor
  · intro all k _
    exact all k
  · intro named k
    by_cases inside : k ∈ names ms
    · exact named k inside
    · rw [memberMissing inside, normalNull]

theorem agreeNull (v : Json) : agree .null v = true ↔ normal v = .null := by
  cases v with
  | list xs =>
    rw [agreeItems rfl rfl, normalList]
    cases xs <;> simp
  | object ms =>
    rw [agreeMembers rfl rfl, List.all_eq_true, normalNothing]
    refine forall₂_congr fun k named => ?_
    have smaller := sizeMemberLt named
    exact agreeNull (member ms k)
  | _ =>
    rw [agreeScalar rfl rfl, normalPlain rfl rfl]
    simp [isZero]
termination_by v.size
decreasing_by
  simp only [size]
  omega

/- Of one shape at every place that both have: lists by position, objects by name. -/
inductive Similar : Json → Json → Prop where
  | absent (v : Json) : Similar .null v
  | missing (v : Json) : Similar v .null
  | plain {v w : Json} (left : v.isObject = false ∧ v.isList = false) (right : w.isObject = false ∧ w.isList = false) :
    Similar v w
  | list {xs ys : List Json} (each : ∀ p ∈ xs.zip ys, Similar p.1 p.2) : Similar (.list xs) (.list ys)
  | object {ms ns : List (String × Json)} (each : ∀ k, Similar (member ms k) (member ns k)) :
    Similar (.object ms) (.object ns)

theorem Similar.agreeIff {v w : Json} (similar : Similar v w) : agree v w = true ↔ normal v = normal w := by
  induction similar with
  | absent v => rw [agreeNull, normalNull, eq_comm]
  | missing v => rw [agreeComm, agreeNull, normalNull]
  | @plain v w left right =>
    rw [agreeScalar (by rw [left.1, right.1]; rfl) (by rw [left.2]; rfl), normalPlain left.1 left.2,
      normalPlain right.1 right.2]
    have shown {u : Json} (set : ¬u.isZero = true) : u ≠ .null := fun same => set (same ▸ rfl)
    by_cases zero : v.isZero = true
    · by_cases zero' : w.isZero = true
      · simp [zero, zero']
      · have apart : v ≠ w := fun same => zero' (same ▸ zero)
        simp [zero, zero', apart, (shown zero').symm]
    · by_cases zero' : w.isZero = true
      · have apart : v ≠ w := fun same => zero (same ▸ zero')
        simp [zero, zero', apart, shown zero]
      · simp [zero, zero']
  | @list xs ys each ih =>
    have items : agree (.list xs) (.list ys) = true ↔ xs.map normal = ys.map normal := by
      rw [agreeList, Bool.and_eq_true, beq_iff_eq, List.all_eq_true, ← List.forall₂_eq_eq_eq,
        List.forall₂_map_left_iff, List.forall₂_map_right_iff, List.forall₂_iff_zip]
      refine and_congr_right fun _ => ?_
      rw [forall₂_congr ih]
      exact ⟨fun all x y inside => all (x, y) inside, fun all p inside => all inside⟩
    rw [items, normalList, normalList]
    cases xs <;> cases ys <;> simp
  | object each ih =>
    rw [agreeNames rfl rfl, normalObjects]
    exact forall_congr' ih

end DesiredState.Json
