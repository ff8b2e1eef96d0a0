import DesiredState.KeyedPlan
import DesiredState.Proofs.Lookup

/-!
What a keyed plan puts where. A plan depends on its two collections only through their indexes; each
desired entry has one fate, read off what is held under its key, and the buckets select by fate. -/
namespace DesiredState.KeyedPlan
open SortedMap

def isAddition (t : Treatment) : Bool := t == .add || t == .replace

def isUpdate (t : Treatment) : Bool := t == .update

theorem isEmptySteps {τ κ : Type} (plan : KeyedPlan τ κ) : plan.isEmpty = plan.steps.isEmpty := by
  cases plan with
  | mk toAdd toUpdate toRemove unchanged =>
    cases toRemove <;> cases toUpdate <;> cases toAdd <;> rfl

section
variable {τ κ : Type} [Ord κ]

def fate (same : τ → τ → Bool) (mode : WriteMode) (held : SortedMap κ τ) (e : κ × τ) : Treatment :=
  treatment same mode e.2 (held.get? e.1)

def selected (p : Treatment → Bool) (same : τ → τ → Bool) (mode : WriteMode) (want held : SortedMap κ τ) :
    List (κ × τ) :=
  want.entries.filter fun e => p (fate same mode held e)

def between (same : τ → τ → Bool) (mode : WriteMode) (want held : SortedMap κ τ) : KeyedPlan τ κ where
  toAdd := (selected isAddition same mode want held).map Prod.snd
  toUpdate := (selected isUpdate same mode want held).map fun e => (e.2, e.1)
  toRemove := held.keys.filter fun k =>
    match want.get? k with
    | none => true
    | some item => fate same mode held (k, item) == .replace
  unchanged := (selected (· == .leave) same mode want held).map Prod.fst

variable {same : τ → τ → Bool} {mode : WriteMode} {want held : SortedMap κ τ} {e : κ × τ}

theorem reconcileBetween [Std.TransOrd κ] [Std.LawfulEqOrd κ] (key : τ → κ) (same : τ → τ → Bool)
    (mode : WriteMode) (desired observed : List τ) :
    reconcile key same mode desired observed = between same mode (index key desired) (index key observed) := rfl

theorem fateAdd : fate same mode held e = .add ↔ held.get? e.1 = none := by
  unfold fate
  cases held.get? e.1 with
  | none => simp [treatment]
  | some old =>
    unfold treatment
    cases h : same e.2 old <;> cases mode <;> simp [h]

theorem fateLeave : fate same mode held e = .leave ↔ ∃ old, held.get? e.1 = some old ∧ same e.2 old = true := by
  unfold fate
  cases held.get? e.1 with
  | none => simp [treatment]
  | some old =>
    unfold treatment
    cases h : same e.2 old <;> cases mode <;> simp [h]

theorem fateUpdate : fate same mode held e = .update ↔
    mode = .inPlace ∧ ∃ old, held.get? e.1 = some old ∧ same e.2 old = false := by
  unfold fate
  cases held.get? e.1 with
  | none => simp [treatment]
  | some old =>
    unfold treatment
    cases h : same e.2 old <;> cases mode <;> simp [h]

theorem fateReplace : fate same mode held e = .replace ↔
    mode = .removeThenAdd ∧ ∃ old, held.get? e.1 = some old ∧ same e.2 old = false := by
  unfold fate
  cases held.get? e.1 with
  | none => simp [treatment]
  | some old =>
    unfold treatment
    cases h : same e.2 old <;> cases mode <;> simp [h]

theorem fateNotUpdate : fate same .removeThenAdd held e ≠ .update := by
  rw [Ne, fateUpdate]
  exact fun both => nomatch both.1

theorem stepsBetween : (between same mode want held).steps =
    (between same mode want held).toRemove.map .remove ++
    (selected isUpdate same mode want held).map (fun e => .update e.2 e.1) ++
    (selected isAddition same mode want held).map fun e => .add e.2 := by
  unfold steps between
  dsimp only
  rw [List.map_map, List.map_map]
  rfl

theorem stepsReplacing : (between same .removeThenAdd want held).steps =
    (between same .removeThenAdd want held).toRemove.map .remove ++
    (selected isAddition same .removeThenAdd want held).map fun e => .add e.2 := by
  have untouched : selected isUpdate same .removeThenAdd want held = [] :=
    List.filter_eq_nil_iff.mpr fun e _ => by simpa [isUpdate] using fateNotUpdate
  rw [stepsBetween, untouched, List.map_nil, List.append_nil]

variable [Std.LawfulEqOrd κ]

theorem memSelected {p : Treatment → Bool} : e ∈ selected p same mode want held ↔
    want.get? e.1 = some e.2 ∧ p (fate same mode held e) = true := by
  unfold selected
  rw [List.mem_filter, getSomeIff]

theorem distinctSelected (p : Treatment → Bool) : ((selected p same mode want held).map Prod.fst).Nodup :=
  want.distinctKeys.sublist (List.filter_sublist.map Prod.fst)

theorem memToRemove {k : κ} : k ∈ (between same mode want held).toRemove ↔
    held.contains k = true ∧ ∀ item, want.get? k = some item → fate same mode held (k, item) = .replace := by
  unfold between
  rw [List.mem_filter, containsIff]
  cases want.get? k <;> simp

theorem distinctToRemove : (between same mode want held).toRemove.Nodup :=
  held.distinctKeys.sublist List.filter_sublist

theorem stepsSettled (left : ∀ e ∈ want.entries, fate same mode held e = .leave)
    (covered : ∀ k, held.contains k = true → want.contains k = true) : (between same mode want held).steps = [] := by
  have untouched (p : Treatment → Bool) (still : p .leave = false) : selected p same mode want held = [] := by
    refine List.filter_eq_nil_iff.mpr fun e member => ?_
    rw [left e member, still]
    exact Bool.false_ne_true
  have kept : (between same mode want held).toRemove = [] := by
    rw [List.eq_nil_iff_forall_not_mem]
    intro k removed
    obtain ⟨present, due⟩ := memToRemove.mp removed
    obtain ⟨item, wanted⟩ := Option.isSome_iff_exists.mp (covered k present)
    have leave := left (k, item) (getSomeIff.mp wanted)
    rw [due item wanted] at leave
    cases leave
  rw [stepsBetween, kept, untouched isUpdate rfl, untouched isAddition rfl]
  rfl

theorem idleIff {ι : Type} (value : τ → ι) (told : ∀ want held, same want held = true ↔ value want = value held) :
    (between same mode want held).steps = [] ↔ ∀ k, (want.get? k).map value = (held.get? k).map value := by
  constructor
  · intro idle k
    simp only [stepsBetween, List.append_eq_nil_iff, List.map_eq_nil_iff] at idle
    obtain ⟨⟨unremoved, unchanged⟩, unadded⟩ := idle
    cases wanted : want.get? k with
    | none =>
      cases present : held.get? k with
      | none => rfl
      | some old =>
        have removed : k ∈ (between same mode want held).toRemove :=
          memToRemove.mpr ⟨by rw [contains, present]; rfl, fun item due => by rw [wanted] at due; cases due⟩
        rw [unremoved] at removed
        cases removed
    | some item =>
      have unpicked {p : Treatment → Bool} (nothing : selected p same mode want held = []) :
          p (fate same mode held (k, item)) = false := by
        refine Bool.eq_false_iff.mpr fun picked => ?_
        have member := memSelected.mpr ⟨wanted, picked⟩
        rw [nothing] at member
        cases member
      have leave : fate same mode held (k, item) = .leave := by
        have notAdded := unpicked unadded
        have notUpdated := unpicked unchanged
        cases treated : fate same mode held (k, item) <;> simp_all [isUpdate, isAddition]
      obtain ⟨old, present, equal⟩ := fateLeave.mp leave
      rw [present, Option.map_some, Option.map_some, (told _ _).mp equal]
  · intro alike
    refine stepsSettled (fun e member => ?_) fun k present => ?_
    · have equal := alike e.1
      rw [getSomeIff.mpr member, Option.map_some] at equal
      obtain ⟨old, present, same⟩ := Option.map_eq_some_iff.mp equal.symm
      exact fateLeave.mpr ⟨old, present, (told _ _).mpr same.symm⟩
    · unfold contains at present ⊢
      rwa [← Option.isSome_map (f := value), alike k, Option.isSome_map]

theorem fateEraseSame (same : τ → τ → Bool) (mode : WriteMode) (held : SortedMap κ τ) (e : κ × τ) :
    fate same mode (held.erase e.1) e = .add := by
  rw [fateAdd, getEraseSame]

theorem fateEraseOther {k : κ} (other : e.1 ≠ k) : fate same mode (held.erase k) e = fate same mode held e := by
  unfold fate
  rw [getEraseOther held other]

end

variable {τ κ : Type} [Ord κ] [Std.TransOrd κ] [Std.LawfulEqOrd κ]

def Keyed (key : τ → κ) (m : SortedMap κ τ) : Prop := ∀ k item, m.get? k = some item → key item = k

theorem indexGet (key : τ → κ) (items : List τ) (k : κ) :
    (index key items).get? k = items.find? fun item => compare k (key item) == .eq := by
  unfold index
  rw [getOfList, List.find?_map, Option.map_map]
  exact congrFun Option.map_id _

theorem indexKeyed (key : τ → κ) (items : List τ) : Keyed key (index key items) := by
  intro k item found
  rw [indexGet] at found
  have here := List.find?_some found
  exact (sameKeyIff.mp here).symm

theorem indexContains (key : τ → κ) (items : List τ) (k : κ) :
    (index key items).contains k = true ↔ ∃ item ∈ items, key item = k := by
  unfold contains
  rw [indexGet, List.find?_isSome]
  constructor
  · rintro ⟨item, member, here⟩
    exact ⟨item, member, (sameKeyIff.mp here).symm⟩
  · rintro ⟨item, member, rfl⟩
    exact ⟨item, member, sameKeyIff.mpr rfl⟩

theorem indexValues {key : τ → κ} {m : SortedMap κ τ} (keyed : Keyed key m) : index key m.values = m := by
  have entries : m.values.map (fun item => (key item, item)) = m.entries := by
    unfold values
    rw [List.map_map]
    refine (List.map_congr_left fun e member => ?_).trans (List.map_id _)
    exact Prod.ext (keyed e.1 e.2 (getSomeIff.mpr member)) rfl
  unfold index
  rw [entries]
  exact extLookup fun k => getOfList m.entries k

omit [Std.TransOrd κ] in
theorem findDistinct {key : τ → κ} {items : List τ} {item : τ} (distinct : (items.map key).Nodup)
    (member : item ∈ items) : (items.find? fun x => compare (key item) (key x) == .eq) = some item := by
  induction items with
  | nil => cases member
  | cons x items ih =>
    obtain ⟨fresh, rest⟩ := List.nodup_cons.mp distinct
    rw [List.find?_cons]
    rcases List.mem_cons.mp member with rfl | later
    · rw [sameKeyIff.mpr rfl]
    · have other : key item ≠ key x := fun same => fresh (same ▸ List.mem_map_of_mem later)
      rw [Bool.eq_false_iff.mpr (mt sameKeyIff.mp other)]
      exact ih rest later

theorem indexSomeIff {key : τ → κ} {items : List τ} (distinct : (items.map key).Nodup) {k : κ} {item : τ} :
    (index key items).get? k = some item ↔ item ∈ items ∧ key item = k := by
  constructor
  · intro found
    have own := indexKeyed key items k item found
    rw [indexGet] at found
    exact ⟨List.mem_of_find?_eq_some found, own⟩
  · rintro ⟨member, rfl⟩
    rw [indexGet, findDistinct distinct member]

theorem indexOfPerm {key : τ → κ} {items others : List τ} (distinct : (items.map key).Nodup)
    (perm : items.Perm others) : index key items = index key others := by
  refine extLookup fun k => Option.ext fun item => ?_
  rw [indexSomeIff distinct, indexSomeIff ((perm.map key).nodup_iff.mp distinct), perm.mem_iff]

omit [Std.TransOrd κ] in
theorem valuesKeys {key : τ → κ} {m : SortedMap κ τ} (keyed : Keyed key m) : m.values.map key = m.keys := by
  unfold values SortedMap.keys
  rw [List.map_map]
  exact List.map_congr_left fun e member => keyed e.1 e.2 (getSomeIff.mpr member)

theorem indexPerm {key : τ → κ} {items : List τ} (distinct : (items.map key).Nodup) :
    (index key items).values.Perm items := by
  have once {xs : List τ} (distinct : (xs.map key).Nodup) : xs.Nodup :=
    List.Pairwise.of_map key (fun _ _ apart same => apart (congrArg key same)) distinct
  have values : ((index key items).values.map key).Nodup := by
    rw [valuesKeys (indexKeyed key items)]
    exact distinctKeys _
  refine (List.perm_ext_iff_of_nodup (once values) (once distinct)).mpr fun item => ?_
  constructor
  · intro member
    obtain ⟨e, inside, rfl⟩ := List.mem_map.mp member
    exact ((indexSomeIff distinct).mp (getSomeIff.mpr inside)).1
  · intro member
    have found := (indexSomeIff distinct).mpr ⟨member, rfl⟩
    exact List.mem_map.mpr ⟨(key item, item), getSomeIff.mp found, rfl⟩

theorem nothingIff {ι : Type} {key : τ → κ} {same : τ → τ → Bool} {mode : WriteMode} (value : τ → ι)
    (told : ∀ want held, same want held = true ↔ value want = value held) {desired observed : List τ} :
    (reconcile key same mode desired observed).isEmpty = true ↔
      ∀ k, ((index key desired).get? k).map value = ((index key observed).get? k).map value := by
  rw [isEmptySteps, reconcileBetween, List.isEmpty_iff, idleIff value told]

theorem changeIff {ι γ : Type} {key : τ → κ} {same : τ → τ → Bool} {mode : WriteMode} (value : τ → ι)
    (told : ∀ want held, same want held = true ↔ value want = value held) {desired observed : List τ} (change : γ) :
    (if (reconcile key same mode desired observed).isEmpty then none else some change) ≠ none ↔
      ∃ k, ((index key desired).get? k).map value ≠ ((index key observed).get? k).map value := by
  rw [Ne, ite_eq_left_iff]
  simp only [reduceCtorEq, imp_false, Classical.not_not]
  rw [nothingIff value told, Classical.not_forall]

end DesiredState.KeyedPlan
