import DesiredState.Proofs.KeyedStore
import DesiredState.Proofs.PlanPartition

/-!
Amendments of a keyed collection: some keys are removed, then some items are written under theirs. Two collections
whose keys are all their own say the same up to order exactly when they say the same under every key, so an amendment
arrives once every key does. -/
namespace DesiredState

namespace SortedMap
variable {κ ν ι : Type} [Ord κ]

def mapValues (f : ν → ι) (m : SortedMap κ ν) : SortedMap κ ι :=
  ⟨m.entries.map fun e => (e.1, f e.2), List.pairwise_map.mpr m.ascending⟩

theorem valuesMapped (f : ν → ι) (m : SortedMap κ ν) : (m.mapValues f).values = m.values.map f := by
  unfold values mapValues
  rw [List.map_map, List.map_map]
  rfl

theorem getMapped (f : ν → ι) (m : SortedMap κ ν) (k : κ) : (m.mapValues f).get? k = (m.get? k).map f := by
  unfold get? mapValues
  rw [List.find?_map, Option.map_map, Option.map_map]
  rfl

theorem sameValues [Std.TransOrd κ] [Std.LawfulEqOrd κ] {f : ν → ι} {m n : SortedMap κ ν}
    (same : ∀ k, (m.get? k).map f = (n.get? k).map f) : m.values.map f = n.values.map f := by
  have mapped : m.mapValues f = n.mapValues f := extLookup fun k => by rw [getMapped, getMapped, same]
  rw [← valuesMapped, ← valuesMapped, mapped]

end SortedMap

namespace KeyedPlan
open SortedMap

variable {τ κ ι : Type} [Ord κ] [Std.TransOrd κ] [Std.LawfulEqOrd κ] {key : τ → κ} {k : κ}

omit [Std.TransOrd κ] in
theorem firstKey {items : List τ} {item : τ} (found : first key items k = some item) : key item = k := by
  unfold first at found
  have here := List.find?_some found
  exact (sameKeyIff.mp here).symm

theorem firstNone {items : List τ} : first key items k = none ↔ k ∉ items.map key := by
  rw [← getIndex, ← indexContainsIff, contains, Option.not_isSome_iff_eq_none]

theorem firstSome {items : List τ} (distinct : (items.map key).Nodup) {item : τ} :
    first key items k = some item ↔ item ∈ items ∧ key item = k := by
  rw [← getIndex, indexSomeIff distinct]

theorem valuesUpToOrder {value : τ → ι} {store : SortedMap κ τ} {items : List τ} (distinct : (items.map key).Nodup)
    (same : ∀ k, (store.get? k).map value = (first key items k).map value) :
    (store.values.map value).Perm (items.map value) := by
  have values : store.values.map value = (index key items).values.map value :=
    sameValues fun k => by rw [getIndex, same]
  exact values ▸ (indexPerm distinct).map value

theorem sameUpToOrder {value : τ → ι} (told : ∀ x y, value x = value y → key x = key y) {xs ys : List τ}
    (left : (xs.map key).Nodup) (right : (ys.map key).Nodup) :
    (xs.map value).Perm (ys.map value) ↔ ∀ k, (first key xs k).map value = (first key ys k).map value := by
  constructor
  · intro perm k
    have within {as bs : List τ} (distinct : (bs.map key).Nodup) (perm : (as.map value).Perm (bs.map value))
        {a : τ} (found : first key as k = some a) : (first key bs k).map value = some (value a) := by
      have listed := perm.subset (List.mem_map_of_mem (List.mem_of_find?_eq_some found))
      obtain ⟨b, inside, same⟩ := List.mem_map.mp listed
      rw [(firstSome distinct).mpr ⟨inside, (told b a same).trans (firstKey found)⟩, Option.map_some, same]
    cases here : first key xs k with
    | some x => exact (within right perm here).symm
    | none =>
      cases there : first key ys k with
      | none => rfl
      | some y => exact here ▸ within left perm.symm there
  · intro same
    refine ((indexPerm left).symm.map value).trans (valuesUpToOrder right fun k => ?_)
    rw [getIndex, same]

/- What is held once some keys are removed and then some items written; of what is held the first items count. -/
def amend (key : τ → κ) (held : List τ) (removed : List κ) (written : List τ) : SortedMap κ τ :=
  writeAll (removed.foldl erase (index key held)) (written.map fun item => (key item, item))

section
variable {held written : List τ} {removed : List κ}

omit [Ord κ] [Std.TransOrd κ] [Std.LawfulEqOrd κ] in
theorem entryKeys (key : τ → κ) (items : List τ) :
    (items.map fun item => (key item, item)).map Prod.fst = items.map key :=
  List.map_map

theorem amendWritten (distinct : (written.map key).Nodup) {item : τ} (found : first key written k = some item) :
    (amend key held removed written).get? k = some item := by
  obtain ⟨member, rfl⟩ := (firstSome distinct).mp found
  rw [← entryKeys] at distinct
  exact (getWritten _ _ distinct).1 (key item, item) (List.mem_map_of_mem member)

theorem amendUnwritten (held : List τ) (removed : List κ) (distinct : (written.map key).Nodup)
    (absent : first key written k = none) :
    (k ∈ removed → (amend key held removed written).get? k = none) ∧
    (k ∉ removed → (amend key held removed written).get? k = first key held k) := by
  have unwritten := firstNone.mp absent
  have erased := getEraseAll (index key held) removed k
  rw [← entryKeys] at distinct unwritten
  rw [getIndex] at erased
  unfold amend
  rwa [(getWritten _ _ distinct).2 k unwritten]

theorem amendReaches {value : τ → ι} {desired : List τ} (distinct : (written.map key).Nodup)
    (gone : ∀ k, k ∈ removed ↔ k ∈ held.map key ∧ k ∉ desired.map key)
    (settled : ∀ k, first key written k = first key desired k ∨
      first key written k = none ∧ (first key held k).map value = (first key desired k).map value) (k : κ) :
    ((amend key held removed written).get? k).map value = (first key desired k).map value := by
  cases sent : first key written k with
  | some item =>
    rw [amendWritten distinct sent]
    rcases settled k with same | ⟨absent, _⟩
    · rw [← same, sent]
    · rw [sent] at absent
      cases absent
  | none =>
    obtain ⟨erased, kept⟩ := amendUnwritten held removed distinct sent
    by_cases due : k ∈ removed
    · rw [erased due, firstNone.mpr ((gone k).mp due).2]
    · rw [kept due]
      rcases settled k with same | ⟨_, same⟩
      · have unwanted : first key desired k = none := same.symm.trans sent
        have unheld : k ∉ held.map key := fun present => due ((gone k).mpr ⟨present, firstNone.mp unwanted⟩)
        rw [unwanted, firstNone.mpr unheld]
      · exact same

theorem amendWhole (distinct : (written.map key).Nodup)
    (gone : ∀ k, k ∈ removed ↔ k ∈ held.map key ∧ k ∉ written.map key) :
    amend key held removed written = index key written := by
  refine extLookup fun k => ?_
  have reached : ((amend key held removed written).get? k).map id = (first key written k).map id :=
    amendReaches distinct gone (fun _ => .inl rfl) k
  rw [getIndex]
  rwa [Option.map_id_fun, id, id] at reached

end

section
variable {same : τ → τ → Bool} {desired observed : List τ}

def writes {τ κ : Type} (plan : KeyedPlan τ κ) : List τ := plan.toAdd ++ plan.toUpdate.map Prod.fst

theorem removedInPlace : k ∈ (reconcile key same .inPlace desired observed).toRemove ↔
    k ∈ observed.map key ∧ k ∉ desired.map key := by
  have parts := partition key same .inPlace desired observed
  refine (parts.removed k).trans (or_iff_left fun replaced => ?_)
  exact nomatch ((parts.replaced k).mp replaced).1

theorem removedItems [BEq κ] [LawfulBEq κ] :
    k ∈ (observed.filter fun item =>
        (reconcile key same .inPlace desired observed).toRemove.contains (key item)).map key ↔
      k ∈ observed.map key ∧ k ∉ desired.map key := by
  constructor
  · intro found
    obtain ⟨item, chosen, rfl⟩ := List.mem_map.mp found
    exact removedInPlace.mp (List.contains_iff_mem.mp (List.mem_filter.mp chosen).2)
  · intro foreign
    have removed : k ∈ (reconcile key same .inPlace desired observed).toRemove := removedInPlace.mpr foreign
    obtain ⟨item, held, rfl⟩ := List.mem_map.mp foreign.1
    exact List.mem_map.mpr ⟨item, List.mem_filter.mpr ⟨held, List.contains_iff_mem.mpr removed⟩, rfl⟩

theorem writtenInPlace {item : τ} : item ∈ (reconcile key same .inPlace desired observed).writes ↔
    first key desired (key item) = some item ∧
      ∀ old, first key observed (key item) = some old → same item old = false := by
  have parts := partition key same .inPlace desired observed
  have added : item ∈ (reconcile key same .inPlace desired observed).toAdd ↔
      first key desired (key item) = some item ∧ first key observed (key item) = none := by
    refine (parts.added item).trans (and_congr_right fun _ => ?_)
    rw [firstNone]
    refine or_iff_left fun replaced => ?_
    exact nomatch ((parts.replaced _).mp replaced).1
  have updated : item ∈ (reconcile key same .inPlace desired observed).toUpdate.map Prod.fst ↔
      first key desired (key item) = some item ∧ Changed key same desired observed (key item) := by
    constructor
    · intro member
      obtain ⟨u, inside, rfl⟩ := List.mem_map.mp member
      obtain ⟨wanted, _, changed⟩ := (parts.overwritten u).mp inside
      rw [firstKey wanted]
      exact ⟨wanted, changed⟩
    · rintro ⟨wanted, changed⟩
      exact List.mem_map.mpr ⟨(item, key item), (parts.overwritten _).mpr ⟨wanted, rfl, changed⟩, rfl⟩
  rw [writes, List.mem_append, added, updated, ← and_or_left]
  refine and_congr_right fun wanted => ?_
  cases present : first key observed (key item) with
  | none => exact iff_of_true (.inl rfl) nofun
  | some old => simp [Changed, wanted, present]

theorem writtenOnce : ((reconcile key same .inPlace desired observed).writes.map key).Nodup := by
  have parts := partition key same .inPlace desired observed
  have keys : ((reconcile key same .inPlace desired observed).toUpdate.map Prod.fst).map key =
      (reconcile key same .inPlace desired observed).toUpdate.map Prod.snd := by
    rw [List.map_map]
    refine List.map_congr_left fun u member => ?_
    have own : key u.1 = u.2 := firstKey ((parts.overwritten u).mp member).1
    exact own
  have settled := parts.settledOnce
  unfold settledKeys at settled
  rw [List.append_assoc] at settled
  rw [writes, List.map_append, keys]
  exact settled.sublist (List.sublist_append_right _ _)

theorem reachedInPlace {value : τ → ι} {removed : List κ}
    (told : ∀ want held, same want held = true → key want = key held → value held = value want)
    (gone : ∀ k, k ∈ removed ↔ k ∈ observed.map key ∧ k ∉ desired.map key) (k : κ) :
    ((amend key observed removed (reconcile key same .inPlace desired observed).writes).get? k).map value =
      (first key desired k).map value := by
  refine amendReaches writtenOnce gone (fun k => ?_) k
  cases sent : first key _ k with
  | some item =>
    obtain ⟨member, rfl⟩ := (firstSome writtenOnce).mp sent
    exact .inl (writtenInPlace.mp member).1.symm
  | none =>
    cases wanted : first key desired k with
    | none => exact .inl rfl
    | some want =>
      have own := firstKey wanted
      -- What is desired and not written is held, and the equality accepts it.
      have kept : ∃ old, first key observed (key want) = some old ∧ same want old = true := by
        refine Classical.byContradiction fun unkept => ?_
        have member := writtenInPlace.mpr ⟨own ▸ wanted, fun old held =>
          Bool.eq_false_iff.mpr fun accepted => unkept ⟨old, held, accepted⟩⟩
        exact firstNone.mp sent (own ▸ List.mem_map_of_mem member)
      obtain ⟨old, held, accepted⟩ := kept
      refine .inr ⟨rfl, ?_⟩
      rw [← own, held, Option.map_some, Option.map_some, told want old accepted (firstKey held).symm]

end

end KeyedPlan
end DesiredState
