import DesiredState.Proofs.KeyedAmendments

/-!
What turns one text map into another. The entries to write are those that are missing or read otherwise, the keys to
remove are those that are not wanted; a plan for two maps holds these and nothing else. -/
namespace DesiredState.SortedMap
open KeyedPlan

def writing (current entries : StringMap) : StringMap := writeAll current entries.entries

def without (current : StringMap) (keys : List String) : StringMap := keys.foldl erase current

def missing (desired current : StringMap) : StringMap :=
  ⟨desired.entries.filter fun e => current.get? e.1 != some e.2, desired.ascending.filter _⟩

def foreign (desired current : StringMap) : List String := current.keys.filter fun k => !desired.contains k

theorem getEmpty (k : String) : (empty : StringMap).get? k = none := rfl

section
variable (desired current : StringMap)

theorem getWriting (k : String) : (current.writing desired).get? k = (desired.get? k).or (current.get? k) := by
  obtain ⟨written, kept⟩ := getWritten current desired.entries desired.distinctKeys
  unfold writing
  cases wanted : desired.get? k with
  | none => exact kept k (getNoneIff.mp wanted)
  | some v => exact written (k, v) (getSomeIff.mp wanted)

theorem getWithout (ks : List String) (k : String) :
    (current.without ks).get? k = if k ∈ ks then none else current.get? k := by
  obtain ⟨gone, kept⟩ := getEraseAll current ks k
  split
  · exact gone ‹_›
  · exact kept ‹_›

theorem getMissing (k : String) :
    (missing desired current).get? k = (desired.get? k).filter fun v => current.get? k != some v := by
  apply Option.ext
  intro v
  rw [getSomeIff, missing, List.mem_filter, ← getSomeIff, Option.filter_eq_some_iff]

theorem memForeign {k : String} :
    k ∈ foreign desired current ↔ current.contains k = true ∧ desired.get? k = none := by
  unfold foreign
  rw [List.mem_filter, ← containsIff, Bool.not_eq_true', contains, contains, Option.isSome_eq_false_iff,
    Option.isNone_iff_eq_none]

theorem ascendingForeign : (foreign desired current).Pairwise fun a b => compare a b = .lt :=
  (List.pairwise_map.mpr current.ascending).filter _

theorem missingNothing : missing desired current = empty ↔
    ∀ k v, desired.get? k = some v → current.get? k = some v := by
  constructor
  · intro complete k v wanted
    have absent := getMissing desired current k
    rw [complete, wanted] at absent
    refine Classical.not_not.mp fun other => ?_
    simp [Option.filter, other, getEmpty] at absent
  · intro complete
    refine extLookup fun k => ?_
    rw [getMissing, getEmpty, Option.filter_eq_none_iff]
    intro v wanted
    simp [complete k v wanted]

theorem missingWritten : missing desired (current.writing (missing desired current)) = empty := by
  rw [missingNothing]
  intro k v wanted
  rw [getWriting, getMissing, wanted]
  by_cases held : current.get? k = some v <;> simp [held, Option.filter]

theorem foreignWritten : foreign desired (current.writing (missing desired current)) = foreign desired current := by
  refine sameOrder (fun _ _ => Std.OrientedCmp.not_lt_of_lt) (ascendingForeign _ _) (ascendingForeign _ _) fun k => ?_
  rw [memForeign, memForeign, contains, contains, getWriting, getMissing]
  refine and_congr_left fun unwanted => ?_
  rw [unwanted]
  rfl

theorem writtenAfterRemoval :
    (current.without (foreign desired current)).writing (missing desired current) = desired := by
  refine extLookup fun k => ?_
  rw [getWriting, getMissing, getWithout]
  cases wanted : desired.get? k with
  | none =>
    rw [Option.filter_none, Option.none_or]
    split
    · rfl
    · rename_i kept
      rw [memForeign, contains] at kept
      exact Option.not_isSome_iff_eq_none.mp fun present => kept ⟨present, wanted⟩
  | some v =>
    rw [if_neg (by rw [memForeign, wanted]; simp)]
    by_cases held : current.get? k = some v <;> simp [held, Option.filter]

theorem withoutForeign (complete : missing desired current = empty) :
    current.without (foreign desired current) = desired := by
  have reached := writtenAfterRemoval desired current
  rwa [complete] at reached

theorem foreignItself : foreign desired desired = [] := by
  rw [List.eq_nil_iff_forall_not_mem]
  intro k member
  obtain ⟨present, absent⟩ := (memForeign desired desired).mp member
  rw [contains, absent] at present
  cases present

end

theorem firstEntry (m : StringMap) (k : String) : first Prod.fst m.entries k = (m.get? k).map fun v => (k, v) := by
  apply Option.ext
  intro e
  rw [firstSome m.distinctKeys, Option.map_eq_some_iff]
  constructor
  · rintro ⟨member, rfl⟩
    exact ⟨e.2, getSomeIff.mpr member, rfl⟩
  · rintro ⟨v, found, rfl⟩
    exact ⟨getSomeIff.mp found, rfl⟩

section
variable (desired current : StringMap)

theorem memWrites (e : String × String) :
    e ∈ (desired.reconcile current).writes ↔ e ∈ (missing desired current).entries := by
  refine writtenInPlace.trans ?_
  rw [missing, List.mem_filter, firstSome desired.distinctKeys, and_iff_left rfl, firstEntry]
  refine and_congr_right fun _ => ?_
  cases current.get? e.1 with
  | none => exact iff_of_true nofun rfl
  | some v =>
    simp only [Option.map_some, Option.some.injEq, forall_eq', beq_eq_false_iff_ne, bne_iff_ne, Ne]
    exact ne_comm

theorem ofListWithin {es : List (String × String)} {m : StringMap} (within : ∀ e, e ∈ es ↔ e ∈ m.entries) :
    ofList es = m := by
  refine extLookup fun k => Option.ext fun v => ?_
  rw [getOfList, getSomeIff, ← within, Option.map_eq_some_iff]
  constructor
  · rintro ⟨e, found, rfl⟩
    have here := List.find?_some found
    rw [sameKeyIff.mp here]
    exact List.mem_of_find?_eq_some found
  · intro member
    have seen : (es.find? fun e => compare k e.1 == .eq).isSome = true :=
      List.find?_isSome.mpr ⟨(k, v), member, sameKeyIff.mpr rfl⟩
    obtain ⟨e, found⟩ := Option.isSome_iff_exists.mp seen
    have here := List.find?_some found
    have inside := (within e).mp (List.mem_of_find?_eq_some found)
    have both : m.get? k = some e.2 := getSomeIff.mpr (sameKeyIff.mp here ▸ inside)
    rw [getSomeIff.mpr ((within _).mp member)] at both
    exact ⟨e, found, (Option.some.inj both).symm⟩

theorem writtenMissing : (desired.reconcile current).written = missing desired current :=
  ofListWithin (memWrites desired current)

theorem removedForeign : (desired.reconcile current).toRemove = foreign desired current := by
  obtain ⟨_, _, _, up⟩ :=
    (partition Prod.fst (fun want held => want.2 == held.2) .inPlace desired.entries current.entries).ascending
  refine sameOrder (fun _ _ => Std.OrientedCmp.not_lt_of_lt) up (ascendingForeign _ _) fun k => ?_
  rw [memForeign, containsIff, getNoneIff]
  exact removedInPlace

theorem nothingToReconcile : (desired.reconcile current).isEmpty = true ↔ desired = current := by
  refine (nothingIff Prod.snd fun _ _ => beq_iff_eq).trans ?_
  simp only [getIndex, firstEntry, Option.map_map, Function.comp_def, Option.map_id']
  exact ⟨extLookup, fun same k => congrArg (get? · k) same⟩

end

end DesiredState.SortedMap
