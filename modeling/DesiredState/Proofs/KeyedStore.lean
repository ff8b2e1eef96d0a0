import DesiredState.Proofs.KeyedPlans
import DesiredState.Proofs.Runs

/-!
Keyed plans at work. The steps of a plan run on a store of items under their keys: every step finds its
key in the state it needs, and the store ends with the desired keys. -/
namespace DesiredState

variable {τ κ : Type} [Ord κ] [Std.TransOrd κ] [Std.LawfulEqOrd κ]

namespace PlanStep

def apply (key : τ → κ) (store : SortedMap κ τ) : PlanStep τ κ → SortedMap κ τ
  | .remove k => store.erase k
  | .update item k => store.insert k item
  | .add item => store.insert (key item) item

def Fits (key : τ → κ) (store : SortedMap κ τ) : PlanStep τ κ → Prop
  | .remove k => store.contains k = true
  | .update _ k => store.contains k = true
  | .add item => store.contains (key item) = false

def run (key : τ → κ) (store : SortedMap κ τ) (steps : List (PlanStep τ κ)) : SortedMap κ τ :=
  steps.foldl (apply key) store

end PlanStep

namespace KeyedPlan
open SortedMap PlanStep

theorem getAfterRemovals (key : τ → κ) (store : SortedMap κ τ) (ks : List κ) (l : κ) :
    (l ∈ ks → (run key store (ks.map .remove)).get? l = none) ∧
    (l ∉ ks → (run key store (ks.map .remove)).get? l = store.get? l) := by
  unfold run
  rw [List.foldl_map]
  exact getEraseAll store ks l

def writeAll (store : SortedMap κ τ) (es : List (κ × τ)) : SortedMap κ τ :=
  es.foldl (fun m e => m.insert e.1 e.2) store

theorem getWritten (store : SortedMap κ τ) (es : List (κ × τ)) (distinct : (es.map Prod.fst).Nodup) :
    (∀ e ∈ es, (writeAll store es).get? e.1 = some e.2) ∧
    ∀ l, l ∉ es.map Prod.fst → (writeAll store es).get? l = store.get? l := by
  induction es generalizing store with
  | nil => exact ⟨by simp, fun _ _ => rfl⟩
  | cons e es ih =>
    obtain ⟨fresh, rest⟩ := List.nodup_cons.mp distinct
    obtain ⟨written, kept⟩ := ih (store.insert e.1 e.2) rest
    constructor
    · intro x member
      rcases List.mem_cons.mp member with rfl | later
      · exact (kept x.1 fresh).trans (getInsertSame store x.1 x.2)
      · exact written x later
    · intro l absent
      obtain ⟨other, later⟩ := not_or.mp (mt List.mem_cons.mpr absent)
      exact (kept l later).trans (getInsertOther store e.2 other)

theorem runUpdates (key : τ → κ) (store : SortedMap κ τ) (es : List (κ × τ)) :
    run key store (es.map fun e => .update e.2 e.1) = writeAll store es := by
  unfold run writeAll
  rw [List.foldl_map]
  rfl

theorem runAdditions {key : τ → κ} (store : SortedMap κ τ) {es : List (κ × τ)} (keyed : ∀ e ∈ es, key e.2 = e.1) :
    run key store (es.map fun e => .add e.2) = writeAll store es := by
  unfold run writeAll
  rw [List.foldl_map]
  induction es generalizing store with
  | nil => rfl
  | cons e es ih =>
    obtain ⟨here, later⟩ := List.forall_mem_cons.mp keyed
    rw [List.foldl_cons, List.foldl_cons, apply, here]
    exact ih _ later

section
variable (key : τ → κ) (same : τ → τ → Bool) (mode : WriteMode) (want held : SortedMap κ τ)

def cleared : SortedMap κ τ := run key held ((between same mode want held).toRemove.map .remove)

def overwritten : SortedMap κ τ := writeAll (cleared key same mode want held) (selected isUpdate same mode want held)

theorem getWriteSelected (store : SortedMap κ τ) (p : Treatment → Bool) (k : κ) :
    (writeAll store (selected p same mode want held)).get? k =
      match want.get? k with
      | none => store.get? k
      | some item => if p (fate same mode held (k, item)) = true then some item else store.get? k := by
  obtain ⟨written, kept⟩ := getWritten store (selected p same mode want held) (distinctSelected p)
  have beside (clear : ∀ item, want.get? k = some item → p (fate same mode held (k, item)) = false) :
      k ∉ (selected p same mode want held).map Prod.fst := by
    intro member
    obtain ⟨e, inside, rfl⟩ := List.mem_map.mp member
    obtain ⟨here, passes⟩ := memSelected.mp inside
    rw [clear e.2 here] at passes
    cases passes
  cases wanted : want.get? k with
  | none => exact kept k (beside (by simp [wanted]))
  | some item =>
    dsimp only
    split
    · rename_i passes
      exact written (k, item) (memSelected.mpr ⟨wanted, passes⟩)
    · rename_i fails
      exact kept k (beside (by simpa [wanted] using fails))

theorem getCleared (k : κ) : (cleared key same mode want held).get? k =
    match want.get? k with
    | none => none
    | some item => if fate same mode held (k, item) = .replace then none else held.get? k := by
  unfold cleared
  obtain ⟨gone, kept⟩ := getAfterRemovals key held (between same mode want held).toRemove k
  by_cases removed : k ∈ (between same mode want held).toRemove
  · rw [gone removed]
    cases wanted : want.get? k with
    | none => rfl
    | some item => exact (if_pos ((memToRemove.mp removed).2 item wanted)).symm
  · rw [kept removed]
    have missing (all : ∀ item, want.get? k = some item → fate same mode held (k, item) = .replace) :
        held.get? k = none :=
      Classical.byContradiction fun present =>
        removed (memToRemove.mpr ⟨Option.isSome_iff_ne_none.mpr present, all⟩)
    cases wanted : want.get? k with
    | none => exact missing (by simp [wanted])
    | some item =>
      dsimp only
      split
      · rename_i replaced
        exact missing (by simpa [wanted] using replaced)
      · rfl

theorem getOverwritten (k : κ) : (overwritten key same mode want held).get? k =
    match want.get? k with
    | none => none
    | some item =>
      match fate same mode held (k, item) with
      | .update => some item
      | .leave => held.get? k
      | _ => none := by
  unfold overwritten
  rw [getWriteSelected, getCleared]
  cases want.get? k with
  | none => rfl
  | some item =>
    cases due : fate same mode held (k, item) with
    | add => simpa [due, isUpdate] using fateAdd.mp due
    | update => simp [due, isUpdate]
    | replace => simp [due, isUpdate]
    | leave => simp [due, isUpdate]

variable {key} {want}

theorem getAfterSteps (keyed : Keyed key want) (k : κ) :
    (run key held (between same mode want held).steps).get? k =
      match want.get? k with
      | none => none
      | some item => if fate same mode held (k, item) = .leave then held.get? k else some item := by
  rw [stepsBetween]
  unfold run
  rw [List.foldl_append, List.foldl_append]
  change (run key (run key (cleared key same mode want held) _) _).get? k = _
  rw [runUpdates, runAdditions _ fun e member => keyed e.1 e.2 (memSelected.mp member).1]
  change (writeAll (overwritten key same mode want held) _).get? k = _
  rw [getWriteSelected, getOverwritten]
  cases want.get? k with
  | none => rfl
  | some item => cases due : fate same mode held (k, item) <;> simp [due, isAddition]

end

theorem fitsRemovals (key : τ → κ) {store : SortedMap κ τ} {ks : List κ} (distinct : ks.Nodup)
    (present : ∀ k ∈ ks, store.contains k = true) : Throughout (apply key) (Fits key) store (ks.map .remove) := by
  induction ks generalizing store with
  | nil => exact throughoutNil
  | cons k ks ih =>
    obtain ⟨fresh, rest⟩ := List.nodup_cons.mp distinct
    refine throughoutCons.mpr ⟨present k List.mem_cons_self, ih rest fun l member => ?_⟩
    have other : l ≠ k := fun same => fresh (same ▸ member)
    unfold contains apply
    rw [getEraseOther store other]
    exact present l (List.mem_cons_of_mem _ member)

theorem fitsUpdates (key : τ → κ) {store : SortedMap κ τ} {es : List (κ × τ)}
    (present : ∀ e ∈ es, store.contains e.1 = true) :
    Throughout (apply key) (Fits key) store (es.map fun e => .update e.2 e.1) := by
  induction es generalizing store with
  | nil => exact throughoutNil
  | cons e es ih =>
    refine throughoutCons.mpr ⟨present e List.mem_cons_self, ih fun x member => ?_⟩
    unfold contains apply
    by_cases same : x.1 = e.1
    · rw [same, getInsertSame]
      rfl
    · rw [getInsertOther store e.2 same]
      exact present x (List.mem_cons_of_mem _ member)

theorem fitsAdditions {key : τ → κ} {store : SortedMap κ τ} {es : List (κ × τ)} (keyed : ∀ e ∈ es, key e.2 = e.1)
    (distinct : (es.map Prod.fst).Nodup) (absent : ∀ e ∈ es, store.contains e.1 = false) :
    Throughout (apply key) (Fits key) store (es.map fun e => .add e.2) := by
  induction es generalizing store with
  | nil => exact throughoutNil
  | cons e es ih =>
    obtain ⟨fresh, rest⟩ := List.nodup_cons.mp distinct
    obtain ⟨own, keyed⟩ := List.forall_mem_cons.mp keyed
    refine throughoutCons.mpr ⟨?_, ih keyed rest fun x member => ?_⟩
    · change store.contains (key e.2) = false
      rw [own]
      exact absent e List.mem_cons_self
    · have other : x.1 ≠ e.1 := fun same => fresh (same ▸ List.mem_map_of_mem member)
      change ((store.insert (key e.2) e.2).get? x.1).isSome = false
      rw [own, getInsertOther store e.2 other]
      exact absent x (List.mem_cons_of_mem _ member)

section
variable {key : τ → κ} (same : τ → τ → Bool) (mode : WriteMode) {want : SortedMap κ τ} (held : SortedMap κ τ)

theorem stepsFit (keyed : Keyed key want) :
    Throughout (apply key) (Fits key) held (between same mode want held).steps := by
  have ownKey (p : Treatment → Bool) (e : κ × τ) (member : e ∈ selected p same mode want held) : key e.2 = e.1 :=
    keyed e.1 e.2 (memSelected.mp member).1
  rw [stepsBetween]
  refine throughoutAppend.mpr ⟨throughoutAppend.mpr ⟨?_, ?_⟩, ?_⟩
  · exact fitsRemovals key distinctToRemove fun k member => (memToRemove.mp member).1
  · change Throughout _ _ (cleared key same mode want held) _
    refine fitsUpdates key fun e member => ?_
    obtain ⟨wanted, due⟩ := memSelected.mp member
    have updated : fate same mode held e = .update := by simpa [isUpdate] using due
    have present : held.get? e.1 ≠ none := by
      rw [Ne, ← fateAdd, updated]
      simp
    unfold contains
    rw [getCleared, wanted]
    simpa [updated, Option.isSome_iff_ne_none] using present
  · rw [List.foldl_append]
    change Throughout _ _ (run key (cleared key same mode want held) _) _
    rw [runUpdates]
    change Throughout _ _ (overwritten key same mode want held) _
    refine fitsAdditions (ownKey isAddition) (distinctSelected isAddition) fun e member => ?_
    obtain ⟨wanted, due⟩ := memSelected.mp member
    -- Absent from the start, or replaced and gone with the removals.
    have added : fate same mode held e = .add ∨ fate same mode held e = .replace := by
      simpa [isAddition] using due
    unfold contains
    rw [getOverwritten, wanted]
    rcases added with here | here <;> simp [here]

end

/- The first desired item of every key arrives, or the item seen stays that the equality accepts for it. -/
theorem planReachesDesired (key : τ → κ) (same : τ → τ → Bool) (mode : WriteMode) (desired observed : List τ)
    (distinct : (observed.map key).Nodup) :
    let store := index key observed
    let steps := (reconcile key same mode desired observed).steps
    store.values.Perm observed ∧
    Throughout (apply key) (Fits key) store steps ∧
    (∀ k, (run key store steps).contains k = true ↔ ∃ item ∈ desired, key item = k) ∧
    ∀ k item, (run key store steps).get? k = some item →
      ∃ want, desired.find? (fun x => compare k (key x) == .eq) = some want ∧
        (item = want ∨ item ∈ observed ∧ key item = k ∧ same want item = true) := by
  intro store steps
  have keyed := indexKeyed key desired
  have final (k : κ) := getAfterSteps same mode store keyed k
  refine ⟨indexPerm distinct, stepsFit same mode store keyed, fun k => ?_, fun k item found => ?_⟩
  · rw [← indexContains key desired k]
    change ((run key store (between same mode (index key desired) store).steps).get? k).isSome = true ↔ _
    rw [final, contains]
    cases wanted : (index key desired).get? k with
    | none => simp
    | some want =>
      dsimp only
      split
      · rename_i left
        obtain ⟨old, present, _⟩ := fateLeave.mp left
        simp [present]
      · simp
  · change (run key store (between same mode (index key desired) store).steps).get? k = _ at found
    rw [final, indexGet] at found
    cases wanted : desired.find? (fun x => compare k (key x) == .eq) with
    | none => simp [wanted] at found
    | some want =>
      refine ⟨want, rfl, ?_⟩
      rw [wanted] at found
      dsimp only at found
      split at found
      · rename_i left
        obtain ⟨old, present, accepted⟩ := fateLeave.mp left
        obtain rfl : old = item := Option.some.inj (present.symm.trans found)
        refine .inr ⟨?_, indexKeyed key observed k old present, accepted⟩
        rw [indexGet] at present
        exact List.mem_of_find?_eq_some present
      · exact .inl (Option.some.inj found).symm

theorem replacedRecordReached :
    let steps := (reconcile Prod.fst (· == ·) .removeThenAdd [(1, 5), (2, 6), (1, 7)] [(1, 4), (3, 3)]).steps
    steps = [.remove 1, .remove 3, .add (1, 5), .add (2, 6)] ∧
    Throughout (apply Prod.fst) (Fits Prod.fst) (index Prod.fst [(1, 4), (3, 3)]) steps :=
  ⟨by decide, (planReachesDesired Prod.fst (· == ·) .removeThenAdd [(1, 5), (2, 6), (1, 7)] [(1, 4), (3, 3)]
    (by decide)).2.1⟩

end KeyedPlan
end DesiredState
