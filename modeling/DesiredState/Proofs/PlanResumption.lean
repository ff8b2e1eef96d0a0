import DesiredState.Proofs.KeyedStore

/-!
Plans cut short. Each step settles its own key and touches no other, so a plan made anew after any number
of steps consists of the steps that are left. -/
namespace DesiredState.KeyedPlan
open SortedMap PlanStep

theorem filterTail {α : Type} {p q : α → Bool} {xs rest : List α} {x : α} (distinct : xs.Nodup)
    (first : xs.filter p = x :: rest) (gone : q x = false) (others : ∀ y ∈ xs, y ≠ x → q y = p y) :
    xs.filter q = rest := by
  induction xs with
  | nil => cases first
  | cons y ys ih =>
    obtain ⟨fresh, distinct⟩ := List.nodup_cons.mp distinct
    cases passes : p y with
    | true =>
      rw [List.filter_cons_of_pos passes] at first
      obtain ⟨rfl, rfl⟩ := List.cons.inj first
      rw [List.filter_cons_of_neg (by simp [gone])]
      refine List.filter_congr fun z member => others z (List.mem_cons_of_mem _ member) ?_
      exact fun same => fresh (same ▸ member)
    | false =>
      rw [List.filter_cons_of_neg (by simp [passes])] at first
      have inside : x ∈ ys := (List.mem_filter.mp (first ▸ List.mem_cons_self)).1
      have other : y ≠ x := fun same => fresh (same ▸ inside)
      rw [List.filter_cons_of_neg (by simp [others y List.mem_cons_self other, passes])]
      exact ih distinct first fun z member => others z (List.mem_cons_of_mem _ member)

variable {τ κ : Type} [Ord κ] [Std.LawfulEqOrd κ]
  {same : τ → τ → Bool} {mode : WriteMode} {want held : SortedMap κ τ} {e : κ × τ} {es : List (κ × τ)}
  {p : Treatment → Bool}

section removal
variable {k : κ} {ks : List κ}

theorem selectedAfterRemoval (alike : p .add = p .replace) (removed : k ∈ (between same mode want held).toRemove) :
    selected p same mode want (held.erase k) = selected p same mode want held := by
  refine List.filter_congr fun e inside => ?_
  by_cases here : e.1 = k
  · -- A replacement turns into an addition, and both are in the selection or neither is.
    subst here
    rw [fateEraseSame, (memToRemove.mp removed).2 e.2 (getSomeIff.mpr inside), alike]
  · rw [fateEraseOther here]

theorem removalsAfterRemoval (first : (between same mode want held).toRemove = k :: ks) :
    (between same mode want (held.erase k)).toRemove = ks := by
  unfold between at first ⊢
  dsimp only at first ⊢
  rw [keysErase, List.filter_filter]
  refine filterTail held.distinctKeys first (by simp) fun l _ other => ?_
  rw [otherKeyIff.mpr other.symm, Bool.and_true]
  cases want.get? l with
  | none => rfl
  | some item =>
    dsimp only
    rw [fateEraseOther other]

end removal

variable [Std.TransOrd κ]

section writing
variable (reflexive : ∀ item, same item item = true) (member : e ∈ want.entries)
include reflexive member

theorem fatesAfterWrite {x : κ × τ} (inside : x ∈ want.entries) :
    x = e ∧ fate same mode (held.insert e.1 e.2) x = .leave ∨
    x ≠ e ∧ fate same mode (held.insert e.1 e.2) x = fate same mode held x := by
  by_cases here : x.1 = e.1
  · have both : some x.2 = some e.2 :=
      (getSomeIff.mpr inside).symm.trans ((congrArg want.get? here).trans (getSomeIff.mpr member))
    refine .inl ⟨Prod.ext here (Option.some.inj both), ?_⟩
    rw [fateLeave, here]
    exact ⟨e.2, getInsertSame held e.1 e.2, Option.some.inj both ▸ reflexive x.2⟩
  · refine .inr ⟨fun both => here (congrArg Prod.fst both), ?_⟩
    unfold fate
    rw [getInsertOther held e.2 here]

theorem removalsAfterWrite (cleared : (between same mode want held).toRemove = []) :
    (between same mode want (held.insert e.1 e.2)).toRemove = [] := by
  rw [List.eq_nil_iff_forall_not_mem] at cleared ⊢
  intro k removed
  obtain ⟨present, due⟩ := memToRemove.mp removed
  by_cases here : k = e.1
  · have left := due e.2 (here ▸ getSomeIff.mpr member)
    rcases fatesAfterWrite reflexive member member with ⟨_, done⟩ | ⟨other, _⟩
    · rw [here, done] at left
      cases left
    · exact other rfl
  · refine cleared k (memToRemove.mpr ⟨?_, fun item wanted => ?_⟩)
    · unfold contains at present ⊢
      rwa [getInsertOther held e.2 here] at present
    · have replaced := due item wanted
      unfold fate at replaced ⊢
      rwa [getInsertOther held e.2 here] at replaced

theorem selectedAfterWrite (still : p .leave = false) (first : selected p same mode want held = e :: es) :
    selected p same mode want (held.insert e.1 e.2) = es := by
  refine filterTail want.distinctEntries first ?_ fun x inside other => ?_
  · rcases fatesAfterWrite reflexive member member with ⟨_, done⟩ | ⟨other, _⟩
    · rw [done, still]
    · exact absurd rfl other
  · rcases fatesAfterWrite reflexive member inside with ⟨here, _⟩ | ⟨_, kept⟩
    · exact absurd here other
    · rw [kept]

theorem selectedBesideWrite (still : p .leave = false) (aside : p (fate same mode held e) = false) :
    selected p same mode want (held.insert e.1 e.2) = selected p same mode want held := by
  refine List.filter_congr fun x inside => ?_
  rcases fatesAfterWrite reflexive member inside with ⟨here, done⟩ | ⟨_, kept⟩
  · rw [done, still, here, aside]
  · rw [kept]

end writing

variable {key : τ → κ}

theorem stepsAfterFirst (reflexive : ∀ item, same item item = true) (keyed : Keyed key want) {s : PlanStep τ κ}
    {rest : List (PlanStep τ κ)} (next : (between same mode want held).steps = s :: rest) :
    (between same mode want (apply key held s)).steps = rest := by
  rw [stepsBetween] at next ⊢
  -- The first step heads the first bucket that is not empty; the buckets before it stay empty.
  cases removals : (between same mode want held).toRemove with
  | cons k ks =>
    rw [removals] at next
    obtain ⟨rfl, rfl⟩ := List.cons.inj next
    have removed : k ∈ (between same mode want held).toRemove := removals ▸ List.mem_cons_self
    unfold apply
    rw [removalsAfterRemoval removals, selectedAfterRemoval rfl removed, selectedAfterRemoval rfl removed]
    rfl
  | nil =>
    rw [removals] at next
    cases updates : selected isUpdate same mode want held with
    | cons e es =>
      have chosen : e ∈ selected isUpdate same mode want held := updates ▸ List.mem_cons_self
      obtain ⟨wanted, due⟩ := memSelected.mp chosen
      have aside : isAddition (fate same mode held e) = false := by
        have here : fate same mode held e = .update := by simpa [isUpdate] using due
        rw [here]
        rfl
      have member := getSomeIff.mp wanted
      rw [updates] at next
      obtain ⟨rfl, rfl⟩ := List.cons.inj next
      unfold apply
      rw [removalsAfterWrite reflexive member removals, selectedAfterWrite reflexive member rfl updates,
        selectedBesideWrite reflexive member rfl aside]
      rfl
    | nil =>
      rw [updates] at next
      cases additions : selected isAddition same mode want held with
      | nil => simp [additions] at next
      | cons e es =>
        have chosen : e ∈ selected isAddition same mode want held := additions ▸ List.mem_cons_self
        obtain ⟨wanted, due⟩ := memSelected.mp chosen
        have aside : isUpdate (fate same mode held e) = false := by
          cases here : fate same mode held e <;> simp [here, isAddition] at due <;> rfl
        have member := getSomeIff.mp wanted
        rw [additions] at next
        obtain ⟨rfl, rfl⟩ := List.cons.inj next
        unfold apply
        dsimp only
        rw [keyed e.1 e.2 wanted, removalsAfterWrite reflexive member removals,
          selectedAfterWrite reflexive member rfl additions, selectedBesideWrite reflexive member rfl aside, updates]
        rfl

theorem keyedApply (wanted : Keyed key want) (stored : Keyed key held) {s : PlanStep τ κ} {rest : List (PlanStep τ κ)}
    (next : (between same mode want held).steps = s :: rest) : Keyed key (apply key held s) := by
  have written (k : κ) (item : τ) (own : key item = k) : Keyed key (held.insert k item) := by
    intro l x found
    by_cases here : l = k
    · subst here
      rw [getInsertSame] at found
      exact Option.some.inj found ▸ own
    · rw [getInsertOther held item here] at found
      exact stored l x found
  have member : s ∈ (between same mode want held).steps := next ▸ List.mem_cons_self
  rw [stepsBetween, List.mem_append, List.mem_append] at member
  rcases member with (removal | update) | addition
  · obtain ⟨k, _, rfl⟩ := List.mem_map.mp removal
    intro l x found
    change (held.erase k).get? l = some x at found
    by_cases here : l = k
    · rw [here, getEraseSame] at found
      cases found
    · rw [getEraseOther held here] at found
      exact stored l x found
  · obtain ⟨e, chosen, rfl⟩ := List.mem_map.mp update
    exact written e.1 e.2 (wanted e.1 e.2 (memSelected.mp chosen).1)
  · obtain ⟨e, _, rfl⟩ := List.mem_map.mp addition
    exact written (key e.2) e.2 rfl

theorem stepsAfterRun (reflexive : ∀ item, same item item = true) (wanted : Keyed key want) (stored : Keyed key held)
    {first rest : List (PlanStep τ κ)} (split : (between same mode want held).steps = first ++ rest) :
    Keyed key (run key held first) ∧ (between same mode want (run key held first)).steps = rest := by
  induction first generalizing held with
  | nil => exact ⟨stored, split⟩
  | cons s first ih =>
    exact ih (keyedApply wanted stored split) (stepsAfterFirst reflexive wanted split)

/- After the first `k` steps the plan is made anew from what the store then holds, listed in any order. -/
theorem planResumes (key : τ → κ) (same : τ → τ → Bool) (mode : WriteMode) (desired observed : List τ)
    (reflexive : ∀ item, same item item = true) (distinct : (observed.map key).Nodup) :
    let store := index key observed
    let steps := (reconcile key same mode desired observed).steps
    store.values.Perm observed ∧
    (∀ k now, now.Perm (run key store (steps.take k)).values →
      (reconcile key same mode desired now).steps = steps.drop k) ∧
    ∀ now, now.Perm (run key store steps).values → (reconcile key same mode desired now).isEmpty = true := by
  intro store steps
  have left (k : Nat) (now : List τ) (perm : now.Perm (run key store (steps.take k)).values) :
      (reconcile key same mode desired now).steps = steps.drop k := by
    have parts : (between same mode (index key desired) store).steps = steps.take k ++ steps.drop k :=
      (List.take_append_drop k steps).symm
    obtain ⟨keyed, rest⟩ := stepsAfterRun reflexive (indexKeyed key desired) (indexKeyed key observed) parts
    have once : ((run key store (steps.take k)).values.map key).Nodup := by
      rw [valuesKeys keyed]
      exact distinctKeys _
    rw [reconcileBetween, ← indexOfPerm once perm.symm, indexValues keyed, rest]
  refine ⟨indexPerm distinct, left, fun now perm => ?_⟩
  have all : now.Perm (run key store (steps.take steps.length)).values := by
    rwa [List.take_length]
  rw [isEmptySteps, left steps.length now all, List.drop_length]
  rfl

theorem replacementResumes :
    let steps := (reconcile Prod.fst (· == ·) .removeThenAdd [(1, 5), (2, 6)] [(1, 4), (3, 3)]).steps
    steps = [.remove 1, .remove 3, .add (1, 5), .add (2, 6)] ∧
    (reconcile Prod.fst (· == ·) .removeThenAdd [(1, 5), (2, 6)] [(3, 3)]).steps = steps.drop 1 :=
  ⟨by decide, (planResumes Prod.fst (· == ·) .removeThenAdd [(1, 5), (2, 6)] [(1, 4), (3, 3)]
    (fun item => beq_self_eq_true item) (by decide)).2.1 1 [(3, 3)] (by decide)⟩

end DesiredState.KeyedPlan
