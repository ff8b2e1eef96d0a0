import DesiredState.SortedMap

/-!
Sorted maps through their lookups. Two maps with the same lookups are one map, so what holds of every
lookup holds of the entries and of their order as well. -/
namespace DesiredState.SortedMap
variable {κ ν : Type} [Ord κ]

def values (m : SortedMap κ ν) : List ν := m.entries.map Prod.snd

def erase (m : SortedMap κ ν) (k : κ) : SortedMap κ ν :=
  ⟨m.entries.filter fun e => compare k e.1 != .eq, m.ascending.filter _⟩

theorem keysErase (m : SortedMap κ ν) (k : κ) :
    (m.erase k).keys = m.keys.filter fun l => compare k l != .eq := by
  unfold keys erase
  rw [List.filter_map]
  rfl

theorem sameOrder {α : Type} {less : α → α → Prop} (asymm : ∀ a b, less a b → ¬ less b a) {xs ys : List α}
    (left : xs.Pairwise less) (right : ys.Pairwise less) (same : ∀ a, a ∈ xs ↔ a ∈ ys) : xs = ys := by
  have once {zs : List α} (up : zs.Pairwise less) : zs.Nodup := by
    refine up.imp fun {a b} below equal => ?_
    exact asymm a b below (equal ▸ below)
  have perm := (List.perm_ext_iff_of_nodup (once left) (once right)).mpr same
  exact perm.eq_of_pairwise (fun a b _ _ below above => absurd above (asymm a b below)) left right

section
variable [Std.LawfulEqOrd κ]

theorem sameKeyIff {k l : κ} : (compare k l == .eq) = true ↔ k = l := by simp

theorem otherKeyIff {k l : κ} : (compare k l != .eq) = true ↔ k ≠ l := by simp

theorem lessNotSame {k l : κ} (less : compare k l = .lt) : k ≠ l := by
  intro same
  rw [same, Std.compare_eq_iff_eq.mpr rfl] at less
  cases less

theorem distinctKeys (m : SortedMap κ ν) : m.keys.Nodup :=
  List.pairwise_map.mpr (m.ascending.imp lessNotSame)

theorem distinctEntries (m : SortedMap κ ν) : m.entries.Nodup :=
  m.ascending.imp fun less same => lessNotSame less (congrArg Prod.fst same)

theorem findAscending {k : κ} {v : ν} {es : List (κ × ν)}
    (sorted : es.Pairwise fun a b => compare a.1 b.1 = .lt) (member : (k, v) ∈ es) :
    es.find? (fun e => compare k e.1 == .eq) = some (k, v) := by
  induction es with
  | nil => simp at member
  | cons e es ih =>
    obtain ⟨above, rest⟩ := List.pairwise_cons.mp sorted
    rw [List.find?_cons]
    rcases List.mem_cons.mp member with here | later
    · subst here
      rw [sameKeyIff.mpr rfl]
    · have other : compare k e.1 ≠ .eq := by
        rw [Ne, Std.compare_eq_iff_eq]
        exact (lessNotSame (above _ later)).symm
      rw [beq_false_of_ne other]
      exact ih rest later

theorem getSomeIff {m : SortedMap κ ν} {k : κ} {v : ν} : m.get? k = some v ↔ (k, v) ∈ m.entries := by
  constructor
  · intro found
    obtain ⟨e, here, rfl⟩ := Option.map_eq_some_iff.mp found
    have same : k = e.1 := by simpa using List.find?_some here
    subst same
    exact List.mem_of_find?_eq_some here
  · intro member
    unfold get?
    rw [findAscending m.ascending member]
    rfl

theorem containsIff {m : SortedMap κ ν} {k : κ} : m.contains k = true ↔ k ∈ m.keys := by
  unfold contains keys
  rw [Option.isSome_iff_exists, List.mem_map]
  constructor
  · rintro ⟨v, found⟩
    exact ⟨(k, v), getSomeIff.mp found, rfl⟩
  · rintro ⟨⟨l, v⟩, member, rfl⟩
    exact ⟨v, getSomeIff.mpr member⟩

theorem getNoneIff {m : SortedMap κ ν} {k : κ} : m.get? k = none ↔ k ∉ m.keys := by
  rw [← containsIff, contains, Bool.not_eq_true, Option.isSome_eq_false_iff, Option.isNone_iff_eq_none]

theorem getEraseSame (m : SortedMap κ ν) (k : κ) : (m.erase k).get? k = none := by
  rw [getNoneIff, keysErase]
  simp

theorem getEraseOther (m : SortedMap κ ν) {k l : κ} (other : l ≠ k) : (m.erase k).get? l = m.get? l := by
  apply Option.ext
  intro v
  rw [getSomeIff, getSomeIff, erase, List.mem_filter, otherKeyIff]
  exact ⟨And.left, fun member => ⟨member, other.symm⟩⟩

theorem getEraseAll (m : SortedMap κ ν) (ks : List κ) (k : κ) :
    (k ∈ ks → (ks.foldl erase m).get? k = none) ∧ (k ∉ ks → (ks.foldl erase m).get? k = m.get? k) := by
  induction ks generalizing m with
  | nil => exact ⟨by simp, fun _ => rfl⟩
  | cons l ks ih =>
    obtain ⟨gone, kept⟩ := ih (m.erase l)
    constructor
    · intro member
      by_cases later : k ∈ ks
      · exact gone later
      · obtain rfl : k = l := (List.mem_cons.mp member).resolve_right later
        exact (kept later).trans (getEraseSame m k)
    · intro absent
      obtain ⟨other, later⟩ := not_or.mp (mt List.mem_cons.mpr absent)
      exact (kept later).trans (getEraseOther m other)

variable [Std.TransOrd κ]

theorem extLookup {m n : SortedMap κ ν} (same : ∀ k, m.get? k = n.get? k) : m = n := by
  have members (e : κ × ν) : e ∈ m.entries ↔ e ∈ n.entries := by
    rw [← getSomeIff, ← getSomeIff, same]
  exact ext (sameOrder (fun _ _ => Std.OrientedCmp.not_lt_of_lt) m.ascending n.ascending members)

theorem getInsertSame (m : SortedMap κ ν) (k : κ) (v : ν) : (m.insert k v).get? k = some v := by
  rw [getInsert, sameKeyIff.mpr rfl]
  rfl

theorem getInsertOther (m : SortedMap κ ν) {k l : κ} (v : ν) (other : l ≠ k) :
    (m.insert k v).get? l = m.get? l := by
  rw [getInsert, if_neg (by simpa using other)]

end
end DesiredState.SortedMap
