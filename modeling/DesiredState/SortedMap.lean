/-!
Finite maps as association lists in strictly ascending key order. The order is part of the type,
so a map has one form only; building from a list keeps the first entry of a repeated key.
-/
namespace DesiredState

structure SortedMap (κ ν : Type) [Ord κ] where
  entries : List (κ × ν)
  ascending : entries.Pairwise fun a b => compare a.1 b.1 = .lt
  deriving DecidableEq, Repr

/-- Tags, labels, claims and annotations. Text is ordered by code points. -/
abbrev StringMap := SortedMap String String

namespace SortedMap
variable {κ ν : Type} [Ord κ]

@[ext] theorem ext {m n : SortedMap κ ν} (same : m.entries = n.entries) : m = n := by
  cases m; cases n; cases same; rfl

def empty : SortedMap κ ν := ⟨[], .nil⟩

instance : Inhabited (SortedMap κ ν) := ⟨empty⟩

def keys (m : SortedMap κ ν) : List κ := m.entries.map Prod.fst

def isEmpty (m : SortedMap κ ν) : Bool := m.entries.isEmpty

def get? (m : SortedMap κ ν) (k : κ) : Option ν :=
  (m.entries.find? fun e => compare k e.1 == .eq).map Prod.snd

def contains (m : SortedMap κ ν) (k : κ) : Bool := (m.get? k).isSome

def put (k : κ) (v : ν) : List (κ × ν) → List (κ × ν)
  | [] => [(k, v)]
  | e :: es =>
    match compare k e.1 with
    | .lt => (k, v) :: e :: es
    | .eq => (k, v) :: es
    | .gt => e :: put k v es

theorem memPut {k : κ} {v : ν} {es : List (κ × ν)} {e : κ × ν} (member : e ∈ put k v es) :
    e = (k, v) ∨ e ∈ es := by
  induction es with
  | nil => simpa [put] using member
  | cons x xs ih =>
    unfold put at member
    split at member
    · rcases List.mem_cons.mp member with same | rest
      · exact .inl same
      · exact .inr rest
    · rcases List.mem_cons.mp member with same | rest
      · exact .inl same
      · exact .inr (List.mem_cons_of_mem _ rest)
    · rcases List.mem_cons.mp member with same | rest
      · exact .inr (same ▸ List.mem_cons_self)
      · rcases ih rest with same | inside
        · exact .inl same
        · exact .inr (List.mem_cons_of_mem _ inside)

variable [Std.TransOrd κ] [Std.LawfulEqOrd κ]

theorem ascendingPut (k : κ) (v : ν) {es : List (κ × ν)}
    (sorted : es.Pairwise fun a b => compare a.1 b.1 = .lt) :
    (put k v es).Pairwise fun a b => compare a.1 b.1 = .lt := by
  induction es with
  | nil => simp [put]
  | cons x xs ih =>
    obtain ⟨above, rest⟩ := List.pairwise_cons.mp sorted
    unfold put
    split
    · rename_i less
      refine List.pairwise_cons.mpr ⟨?_, sorted⟩
      intro y hy
      rcases List.mem_cons.mp hy with same | inside
      · exact same ▸ less
      · exact Std.TransCmp.lt_trans less (above y inside)
    · rename_i equal
      refine List.pairwise_cons.mpr ⟨?_, rest⟩
      intro y hy
      have same : k = x.1 := Std.compare_eq_iff_eq.mp equal
      simpa [same] using above y hy
    · rename_i greater
      refine List.pairwise_cons.mpr ⟨?_, ih rest⟩
      intro y hy
      rcases memPut hy with same | inside
      · subst same; exact Std.OrientedCmp.lt_of_gt greater
      · exact above y inside

def insert (m : SortedMap κ ν) (k : κ) (v : ν) : SortedMap κ ν := ⟨put k v m.entries, ascendingPut k v m.ascending⟩

def ofList (es : List (κ × ν)) : SortedMap κ ν := es.foldr (fun e m => m.insert e.1 e.2) empty

theorem ofListCons (e : κ × ν) (es : List (κ × ν)) : ofList (e :: es) = (ofList es).insert e.1 e.2 := rfl

theorem findPut (k l : κ) (v : ν) (es : List (κ × ν)) :
    (put k v es).find? (fun e => compare l e.1 == .eq) =
      if compare l k == .eq then some (k, v) else es.find? (fun e => compare l e.1 == .eq) := by
  induction es with
  | nil => simp [put, List.find?_cons]; cases compare l k <;> rfl
  | cons x xs ih =>
    unfold put
    split
    · simp only [List.find?_cons]; cases compare l k <;> rfl
    · rename_i equal
      have same : k = x.1 := Std.compare_eq_iff_eq.mp equal
      simp only [List.find?_cons, ← same]; cases compare l k <;> rfl
    · rename_i greater
      simp only [List.find?_cons, ih]
      cases here : compare l x.1 with
      | eq =>
        have same : l = x.1 := Std.compare_eq_iff_eq.mp here
        subst same
        simp [Std.OrientedCmp.lt_of_gt greater]
      | lt => rfl
      | gt => rfl

theorem getInsert (m : SortedMap κ ν) (k l : κ) (v : ν) :
    (m.insert k v).get? l = if compare l k == .eq then some v else m.get? l := by
  unfold get? insert
  simp only [findPut]
  split <;> rfl

theorem getOfList (es : List (κ × ν)) (l : κ) :
    (ofList es).get? l = (es.find? fun e => compare l e.1 == .eq).map Prod.snd := by
  induction es with
  | nil => rfl
  | cons e es ih =>
    rw [ofListCons, getInsert, ih, List.find?_cons]
    cases compare l e.1 <;> rfl

end SortedMap
end DesiredState
