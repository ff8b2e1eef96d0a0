import DesiredState.Proofs.KeyedPlans

/-!
What a keyed plan holds, and where. A key that is asked for is left, added or overwritten, one that is only held is
removed, and one that is replaced is removed and added; nothing else is in a plan, and every bucket is ascending. Of
the two collections only the first item of each key counts. -/
namespace DesiredState.KeyedPlan
open SortedMap

variable {τ κ : Type} [Ord κ]

def first (key : τ → κ) (items : List τ) (k : κ) : Option τ := items.find? fun item => compare k (key item) == .eq

def Changed (key : τ → κ) (same : τ → τ → Bool) (desired observed : List τ) (k : κ) : Prop :=
  ∃ want held, first key desired k = some want ∧ first key observed k = some held ∧ same want held = false

def settledKeys (key : τ → κ) (plan : KeyedPlan τ κ) : List κ :=
  plan.unchanged ++ plan.toAdd.map key ++ plan.toUpdate.map Prod.snd

def Ascending (ks : List κ) : Prop := ks.Pairwise fun k l => compare k l = .lt

/- Every key in its place, once. -/
structure Partition (key : τ → κ) (same : τ → τ → Bool) (mode : WriteMode) (desired observed : List τ)
    (plan : KeyedPlan τ κ) : Prop where
  settledOnce : (plan.settledKeys key).Nodup
  settled : ∀ k, k ∈ plan.settledKeys key ↔ k ∈ desired.map key
  removed : ∀ k, k ∈ plan.toRemove ↔ k ∈ observed.map key ∧ k ∉ desired.map key ∨ k ∈ plan.replacedKeys key
  shared : ∀ k, k ∈ plan.replacedKeys key ↔ k ∈ plan.toRemove ∧ k ∈ plan.toAdd.map key
  replaced : ∀ k, k ∈ plan.replacedKeys key ↔ mode = .removeThenAdd ∧ Changed key same desired observed k
  left : ∀ k, k ∈ plan.unchanged ↔
    ∃ want held, first key desired k = some want ∧ first key observed k = some held ∧ same want held = true
  added : ∀ item, item ∈ plan.toAdd ↔
    first key desired (key item) = some item ∧ (key item ∉ observed.map key ∨ key item ∈ plan.replacedKeys key)
  overwritten : ∀ u, u ∈ plan.toUpdate ↔
    first key desired u.2 = some u.1 ∧ mode = .inPlace ∧ Changed key same desired observed u.2
  ascending : Ascending plan.unchanged ∧ Ascending (plan.toAdd.map key) ∧ Ascending (plan.toUpdate.map Prod.snd) ∧
    Ascending plan.toRemove

theorem memReplaced [Std.LawfulEqOrd κ] {key : τ → κ} {plan : KeyedPlan τ κ} {k : κ} :
    k ∈ plan.replacedKeys key ↔ k ∈ plan.toRemove ∧ k ∈ plan.toAdd.map key := by
  simp only [replacedKeys, List.mem_filter, List.any_eq_true, sameKeyIff, List.mem_map, eq_comm (a := k)]

section
variable {key : τ → κ} {same : τ → τ → Bool} {mode : WriteMode} {want held : SortedMap κ τ} {k : κ}

theorem selectedPerm (same : τ → τ → Bool) (mode : WriteMode) (want held : SortedMap κ τ) :
    (selected (· == .leave) same mode want held ++ selected isAddition same mode want held ++
      selected isUpdate same mode want held).Perm want.entries := by
  have rest : (selected isAddition same mode want held ++ selected isUpdate same mode want held).Perm
      (selected (· != .leave) same mode want held) := by
    have halves := List.filter_append_perm (fun e => isAddition (fate same mode held e))
      (selected (· != .leave) same mode want held)
    unfold selected at halves ⊢
    rw [List.filter_filter, List.filter_filter] at halves
    refine (List.Perm.of_eq ?_).trans halves
    congr 1 <;> refine List.filter_congr fun e _ => ?_ <;> cases fate same mode held e <;> rfl
  rw [List.append_assoc]
  exact (rest.append_left _).trans (List.filter_append_perm (fun e => fate same mode held e == .leave) want.entries)

theorem ascendingSelected (p : Treatment → Bool) : Ascending ((selected p same mode want held).map Prod.fst) :=
  (List.pairwise_map.mpr want.ascending).sublist (List.filter_sublist.map Prod.fst)

variable [Std.LawfulEqOrd κ]

theorem addedKeys (keyed : Keyed key want) :
    (between same mode want held).toAdd.map key = (selected isAddition same mode want held).map Prod.fst := by
  unfold between
  rw [List.map_map]
  exact List.map_congr_left fun e member => keyed e.1 e.2 (memSelected.mp member).1

omit [Std.LawfulEqOrd κ] in
theorem updatedKeys :
    (between same mode want held).toUpdate.map Prod.snd = (selected isUpdate same mode want held).map Prod.fst :=
  List.map_map

theorem memSelectedKeys {p : Treatment → Bool} : k ∈ (selected p same mode want held).map Prod.fst ↔
    ∃ item, want.get? k = some item ∧ p (fate same mode held (k, item)) = true := by
  rw [List.mem_map]
  constructor
  · rintro ⟨e, member, rfl⟩
    exact ⟨e.2, memSelected.mp member⟩
  · rintro ⟨item, chosen⟩
    exact ⟨(k, item), memSelected.mpr chosen, rfl⟩

theorem settledPerm (keyed : Keyed key want) (same : τ → τ → Bool) (mode : WriteMode) (held : SortedMap κ τ) :
    ((between same mode want held).settledKeys key).Perm want.keys := by
  unfold settledKeys
  rw [addedKeys keyed, updatedKeys]
  have keys := (selectedPerm same mode want held).map Prod.fst
  rwa [List.map_append, List.map_append] at keys

theorem memBoth (keyed : Keyed key want) :
    k ∈ (between same mode want held).toRemove ∧ k ∈ (between same mode want held).toAdd.map key ↔
      ∃ item, want.get? k = some item ∧ fate same mode held (k, item) = .replace := by
  rw [addedKeys keyed, memSelectedKeys]
  constructor
  · rintro ⟨removed, item, wanted, _⟩
    exact ⟨item, wanted, (memToRemove.mp removed).2 item wanted⟩
  · rintro ⟨item, wanted, replaced⟩
    obtain ⟨_, old, present, _⟩ := fateReplace.mp replaced
    refine ⟨memToRemove.mpr ⟨?_, fun other also => ?_⟩, item, wanted, by rw [replaced]; rfl⟩
    · rw [contains, present]
      rfl
    · rw [wanted] at also
      cases also
      exact replaced

theorem memAdded (keyed : Keyed key want) {item : τ} : item ∈ (between same mode want held).toAdd ↔
    want.get? (key item) = some item ∧ (¬ held.contains (key item) = true ∨
      key item ∈ (between same mode want held).toRemove ∧ key item ∈ (between same mode want held).toAdd.map key) := by
  have chosen : item ∈ (between same mode want held).toAdd ↔
      want.get? (key item) = some item ∧ isAddition (fate same mode held (key item, item)) = true := by
    refine List.mem_map.trans ⟨?_, fun due => ⟨(key item, item), memSelected.mpr due, rfl⟩⟩
    rintro ⟨e, member, rfl⟩
    have due := memSelected.mp member
    rwa [keyed e.1 e.2 due.1]
  rw [chosen, memBoth keyed]
  refine and_congr_right fun wanted => ?_
  rw [isAddition, Bool.or_eq_true, beq_iff_eq, beq_iff_eq, fateAdd, contains, Option.not_isSome_iff_eq_none]
  refine or_congr_right ⟨fun replaced => ⟨item, wanted, replaced⟩, ?_⟩
  rintro ⟨other, also, replaced⟩
  rw [wanted] at also
  cases also
  exact replaced

theorem memRemoved (keyed : Keyed key want) : k ∈ (between same mode want held).toRemove ↔
    held.contains k = true ∧ ¬ want.contains k = true ∨
      k ∈ (between same mode want held).toRemove ∧ k ∈ (between same mode want held).toAdd.map key := by
  rw [memBoth keyed]
  constructor
  · intro removed
    obtain ⟨present, due⟩ := memToRemove.mp removed
    cases wanted : want.get? k with
    | none => exact .inl ⟨present, by rw [contains, wanted]; exact Bool.false_ne_true⟩
    | some item => exact .inr ⟨item, rfl, due item wanted⟩
  · rintro (⟨present, unwanted⟩ | both)
    · exact memToRemove.mpr ⟨present, fun item wanted => absurd (by rw [contains, wanted]; rfl) unwanted⟩
    · exact ((memBoth keyed).mpr both).1

end

variable [Std.TransOrd κ] [Std.LawfulEqOrd κ]

theorem getIndex (key : τ → κ) (items : List τ) (k : κ) : (index key items).get? k = first key items k :=
  indexGet key items k

theorem indexContainsIff {key : τ → κ} {items : List τ} {k : κ} :
    (index key items).contains k = true ↔ k ∈ items.map key :=
  (indexContains key items k).trans List.mem_map.symm

theorem partition (key : τ → κ) (same : τ → τ → Bool) (mode : WriteMode) (desired observed : List τ) :
    Partition key same mode desired observed (reconcile key same mode desired observed) := by
  have keyed := indexKeyed key desired
  have settled := settledPerm keyed same mode (index key observed)
  rw [reconcileBetween]
  constructor
  case settledOnce => exact settled.nodup_iff.mpr (distinctKeys _)
  case settled => exact fun k => settled.mem_iff.trans (containsIff.symm.trans indexContainsIff)
  case removed =>
    intro k
    rw [memReplaced, ← indexContainsIff, ← indexContainsIff]
    exact memRemoved keyed
  case shared => exact fun k => memReplaced
  case replaced =>
    intro k
    rw [memReplaced, memBoth keyed]
    simp only [fateReplace, Changed, getIndex]
    constructor
    · rintro ⟨item, wanted, replaces, old, present, apart⟩
      exact ⟨replaces, item, old, wanted, present, apart⟩
    · rintro ⟨replaces, item, old, wanted, present, apart⟩
      exact ⟨item, wanted, replaces, old, present, apart⟩
  case left =>
    intro k
    refine (memSelectedKeys (p := (· == .leave))).trans ?_
    simp only [beq_iff_eq, fateLeave, getIndex]
    constructor
    · rintro ⟨item, wanted, old, present, alike⟩
      exact ⟨item, old, wanted, present, alike⟩
    · rintro ⟨item, old, wanted, present, alike⟩
      exact ⟨item, wanted, old, present, alike⟩
  case added =>
    intro item
    rw [memReplaced, ← getIndex, ← indexContainsIff]
    exact memAdded keyed
  case overwritten =>
    intro u
    have chosen : u ∈ (between same mode (index key desired) (index key observed)).toUpdate ↔
        (u.2, u.1) ∈ selected isUpdate same mode (index key desired) (index key observed) := by
      refine List.mem_map.trans ⟨?_, fun member => ⟨_, member, rfl⟩⟩
      rintro ⟨e, member, rfl⟩
      exact member
    rw [chosen, memSelected, isUpdate, beq_iff_eq, fateUpdate]
    simp only [getIndex, Changed]
    refine and_congr_right fun wanted => and_congr_right fun _ => ?_
    constructor
    · rintro ⟨old, present, apart⟩
      exact ⟨u.1, old, wanted, present, apart⟩
    · rintro ⟨item, old, also, present, apart⟩
      rw [wanted] at also
      cases also
      exact ⟨old, present, apart⟩
  case ascending =>
    refine ⟨ascendingSelected _, ?_, ?_, (List.pairwise_map.mpr (ascending _)).filter _⟩
    · rw [addedKeys keyed]
      exact ascendingSelected _
    · rw [updatedKeys]
      exact ascendingSelected _

theorem reconcileFirsts (key : τ → κ) (same : τ → τ → Bool) (mode : WriteMode)
    {desired desired' observed observed' : List τ} (wanted : first key desired' = first key desired)
    (present : first key observed' = first key observed) :
    reconcile key same mode desired' observed' = reconcile key same mode desired observed := by
  have alike {items items' : List τ} (firsts : first key items' = first key items) :
      index key items' = index key items := extLookup fun k => by rw [getIndex, getIndex, firsts]
  rw [reconcileBetween, reconcileBetween, alike wanted, alike present]

/- Every key is in its place once. Later items of a key say nothing, and neither does the order of items that all have
keys of their own. -/
theorem planSortsKeys (key : τ → κ) (same : τ → τ → Bool) (mode : WriteMode) (desired observed : List τ) :
    let plan := reconcile key same mode desired observed
    Partition key same mode desired observed plan ∧
    (∀ desired' observed', first key desired' = first key desired → first key observed' = first key observed →
      reconcile key same mode desired' observed' = plan) ∧
    ((desired.map key).Nodup → ∀ desired', desired'.Perm desired →
      reconcile key same mode desired' observed = plan) ∧
    ((observed.map key).Nodup → ∀ observed', observed'.Perm observed →
      reconcile key same mode desired observed' = plan) := by
  refine ⟨partition key same mode desired observed, fun _ _ => reconcileFirsts key same mode, ?_, ?_⟩
  · intro distinct desired' perm
    rw [reconcileBetween, ← indexOfPerm distinct perm.symm]
    rfl
  · intro distinct observed' perm
    rw [reconcileBetween, ← indexOfPerm distinct perm.symm]
    rfl

theorem shuffledPlanSame :
    let desired := [(2, 6), (1, 5)]
    let observed := [(1, 4), (3, 3)]
    let plan := reconcile Prod.fst (· == ·) .removeThenAdd desired observed
    plan.toAdd = [(1, 5), (2, 6)] ∧ plan.toRemove = [1, 3] ∧ plan.replacedKeys Prod.fst = [1] ∧
      (plan.settledKeys Prod.fst).Nodup ∧
      reconcile Prod.fst (· == ·) .removeThenAdd (desired ++ [(2, 7)]) observed = plan ∧
      reconcile Prod.fst (· == ·) .removeThenAdd desired.reverse observed = plan ∧
      reconcile Prod.fst (· == ·) .removeThenAdd desired observed.reverse = plan := by
  intro desired observed plan
  obtain ⟨partition, later, shuffled, shuffled'⟩ :=
    planSortsKeys Prod.fst (· == ·) .removeThenAdd desired observed
  have late : first Prod.fst (desired ++ [(2, 7)]) = first Prod.fst desired := by
    funext k
    by_cases here : k = 2
    · subst here
      rfl
    · simp [first, here]
  exact ⟨by decide, by decide, by decide, partition.settledOnce, later _ _ late rfl,
    shuffled (by decide) _ (by decide), shuffled' (by decide) _ (by decide)⟩

end DesiredState.KeyedPlan
