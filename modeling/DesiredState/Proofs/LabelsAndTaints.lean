import DesiredState.Proofs.AddressedPaths
import DesiredState.Proofs.KeyedAmendments
import DesiredState.Proofs.SpecReadings

/-!
The labels and taints of a nodegroup. Where no two taints of a side share a key, a configuration call turns the labels
and taints that are seen into the declared ones. A call has labels exactly when they differ. Taints differ when they
do not all read alike, while a call has them when the first taint of some key is not the very same: a later taint of a
key is compared and not sent, and one that is only written in another way is sent and not reported. -/
namespace DesiredState.Nodegroup
open KeyedPlan SortedMap

def labelsAfter (held : StringMap) : Option LabelsChange → StringMap
  | none => held
  | some c => (held.without c.remove).writing c.addOrUpdate

def taintsAfter (held : List Taint) : Option TaintsChange → List Taint
  | none => held
  | some c => (amend Taint.key held (c.remove.map Taint.key) c.addOrUpdate).values

structure LabelsArrive (want held : StringMap) (change : Option LabelsChange) : Prop where
  reached : labelsAfter held change = want
  once : ∀ c, change = some c → ∀ key ∈ c.remove, key ∉ c.addOrUpdate.keys

structure TaintsArrive (want held : List Taint) (change : Option TaintsChange) : Prop where
  reached : (taintsAfter held change).Perm want
  once : ∀ c, change = some c → ∀ key ∈ c.remove.map Taint.key, key ∉ c.addOrUpdate.map Taint.key

structure Arrives (d o : Spec) (labels : Option LabelsChange) (taints : Option TaintsChange) : Prop where
  labels : LabelsArrive (d.labels.getD .empty) (o.labels.getD .empty) labels
  taints : TaintsArrive d.taints o.taints taints

theorem labelsChangeArrives (d o : Spec) :
    LabelsArrive (d.labels.getD .empty) (o.labels.getD .empty) (labelsChange? d o) := by
  unfold labelsChange?
  dsimp only
  split
  · rename_i idle
    exact ⟨((nothingToReconcile _ _).mp idle).symm, nofun⟩
  · rw [writtenMissing, removedForeign]
    refine ⟨writtenAfterRemoval _ _, fun c sent key removed written => ?_⟩
    cases sent
    obtain ⟨_, unwanted⟩ := (memForeign _ _).mp removed
    rw [← containsIff, contains, getMissing, unwanted] at written
    cases written

theorem taintsChangeArrives {d o : Spec} (wanted : (d.taints.map Taint.key).Nodup)
    (present : (o.taints.map Taint.key).Nodup) : TaintsArrive d.taints o.taints (taintsChange? d o) := by
  unfold taintsChange?
  dsimp only
  split
  · rename_i idle
    have alike := (nothingIff id fun _ _ => beq_iff_eq).mp idle
    simp only [getIndex] at alike
    have perm : (o.taints.map id).Perm (d.taints.map id) :=
      (sameUpToOrder (fun _ _ => congrArg Taint.key) present wanted).mpr fun key => (alike key).symm
    rw [List.map_id, List.map_id] at perm
    refine ⟨perm, fun c sent => ?_⟩
    cases sent
  · constructor
    case reached =>
      unfold taintsAfter
      dsimp only
      rw [amendWhole wanted fun _ => removedItems]
      exact indexPerm wanted
    case once =>
      intro c sent key removed written
      cases sent
      exact (removedItems.mp removed).2 written

theorem configSkipped {input : PlanInput Spec} (skipped : planConfig input = .skip) :
    labelsChange? input.desired input.observed = none ∧ taintsChange? input.desired input.observed = none := by
  unfold planConfig at skipped
  dsimp only at skipped
  split at skipped
  · rename_i nothing
    simp only [Bool.and_eq_true, Option.isNone_iff_eq_none] at nothing
    obtain ⟨⟨⟨⟨labels, taints⟩, _⟩, _⟩, _⟩ := nothing
    exact ⟨labels, taints⟩
  · cases skipped

theorem configNotRefused {input : PlanInput Spec} {reason : String} : planConfig input ≠ .terminal reason := by
  unfold planConfig
  dsimp only
  split <;> nofun

/- A planned call, or none, leaves the declared labels and the declared taints. -/
theorem configArrives (input : PlanInput Spec) (wanted : (input.desired.taints.map Taint.key).Nodup)
    (present : (input.observed.taints.map Taint.key).Nodup) :
    match planConfig input with
    | .calls calls => ∃ u, calls = [.config u] ∧ Arrives input.desired input.observed u.labels u.taints
    | .skip => Arrives input.desired input.observed none none
    | .terminal _ => False := by
  have arrives : Arrives input.desired input.observed (labelsChange? input.desired input.observed)
      (taintsChange? input.desired input.observed) :=
    ⟨labelsChangeArrives _ _, taintsChangeArrives wanted present⟩
  cases planned : planConfig input with
  | calls calls =>
    obtain rfl := configGiven planned
    exact ⟨_, rfl, arrives⟩
  | skip =>
    obtain ⟨labels, taints⟩ := configSkipped planned
    rwa [labels, taints] at arrives
  | terminal reason => exact configNotRefused planned

theorem goldTierArrives :
    let spec : Spec := { name := "workers", clusterName := "prod" }
    let want : StringMap := ⟨[("team", "core"), ("tier", "gold")], by decide⟩
    let held : StringMap := ⟨[("legacy", "yes"), ("team", "edge")], by decide⟩
    let dedicated : Taint := ⟨"dedicated", some "gpu", "NO_SCHEDULE"⟩
    let spot : Taint := ⟨"spot", some "true", "NO_SCHEDULE"⟩
    let input : PlanInput Spec :=
      ⟨{ spec with labels := some want, taints := [dedicated] },
        { spec with labels := some held, taints := [spot] }, .empty, .empty⟩
    let labels : LabelsChange := ⟨want, ["legacy"]⟩
    let taints : TaintsChange := ⟨[dedicated], [spot]⟩
    planConfig input = .calls [.config ⟨"prod", "workers", some labels, some taints, none, none, none⟩] ∧
      labelsAfter held (some labels) = want ∧ (taintsAfter [spot] (some taints)).Perm [dedicated] := by
  intro spec want held dedicated spot input labels taints
  have planned : planConfig input =
      .calls [.config ⟨"prod", "workers", some labels, some taints, none, none, none⟩] := by decide +kernel
  have arrives := configArrives input (by decide) (by decide)
  rw [planned] at arrives
  obtain ⟨u, same, arrived⟩ := arrives
  cases same
  exact ⟨planned, arrived.labels.reached, arrived.taints.reached⟩

theorem labelsDiffer (desired : Desired Spec) (observed : Spec) :
    "labels" ∈ (binding.input desired observed).delta.paths ↔
      desired.spec.labels.getD .empty ≠ observed.labels.getD .empty := by
  have traced : Field.Traced (.always "labels" .map fun s : Spec => .ofOption Codec.strings.write s.labels)
      ⟨fun s => s.labels.getD .empty⟩ := Field.tracedMap rfl fun _ _ => sameTexts _ _
  exact (Kind.nodegroup.tracedPath rfl (by decide) traced (by decide) desired observed).trans (and_iff_right rfl)

theorem taintsDiffer (desired : Desired Spec) (observed : Spec) :
    "taints" ∈ (binding.input desired observed).delta.paths ↔
      ¬ (desired.spec.taints.map Taint.reading).Perm (observed.taints.map Taint.reading) := by
  have traced : Field.Traced (.always "taints" .multiset fun s : Spec => Taint.record.codec.list.write s.taints)
      ⟨fun s => (s.taints.map Taint.reading : Multiset (String × String × String))⟩ :=
    Field.tracedBag rfl (fun _ => rfl) Taint.reads
  rw [← Multiset.coe_eq_coe]
  exact (Kind.nodegroup.tracedPath rfl (by decide) traced (by decide) desired observed).trans (and_iff_right rfl)

/- A taint that is declared and seen, without a value on one side and with an empty one on the other. -/
def Respelled (d o : Spec) : Prop := ∃ t ∈ d.taints, ∃ s ∈ o.taints, t.reading = s.reading ∧ t ≠ s

theorem changedTaints {d o : Spec} (wanted : (d.taints.map Taint.key).Nodup)
    (present : (o.taints.map Taint.key).Nodup) :
    (∃ key, first Taint.key d.taints key ≠ first Taint.key o.taints key) ↔
      ¬ (d.taints.map Taint.reading).Perm (o.taints.map Taint.reading) ∨ Respelled d o := by
  have told (t s : Taint) (same : t.reading = s.reading) : t.key = s.key := congrArg Prod.fst same
  rw [sameUpToOrder told wanted present, Classical.not_forall]
  constructor
  · rintro ⟨key, changed⟩
    by_cases alike : (first Taint.key d.taints key).map Taint.reading = (first Taint.key o.taints key).map Taint.reading
    · cases want : first Taint.key d.taints key with
      | none =>
        rw [want, Option.map_none, eq_comm, Option.map_eq_none_iff] at alike
        exact absurd (want.trans alike.symm) changed
      | some t =>
        rw [want, Option.map_some, eq_comm, Option.map_eq_some_iff] at alike
        obtain ⟨s, held, same⟩ := alike
        refine .inr ⟨t, List.mem_of_find?_eq_some want, s, List.mem_of_find?_eq_some held, same.symm, ?_⟩
        rintro rfl
        exact changed (want.trans held.symm)
    · exact .inl ⟨key, alike⟩
  · rintro (⟨key, changed⟩ | ⟨t, declared, s, seen, same, other⟩)
    · exact ⟨key, fun equal => changed (congrArg _ equal)⟩
    · refine ⟨t.key, ?_⟩
      rw [(firstSome wanted).mpr ⟨declared, rfl⟩, (firstSome present).mpr ⟨seen, (told t s same).symm⟩]
      exact fun equal => other (Option.some.inj equal)

/- What the one configuration call says of labels and taints, against what differs. -/
theorem labelsAndTaintsSent (desired : Desired Spec) (observed : Spec) {calls : List Update}
    (planned : planConfig (binding.input desired observed) = .calls calls) :
    let δ := (binding.input desired observed).delta
    ∃ u, calls = [.config u] ∧
      (u.labels ≠ none ↔ "labels" ∈ δ.paths) ∧
      (u.taints ≠ none ↔ ∃ key, first Taint.key desired.spec.taints key ≠ first Taint.key observed.taints key) ∧
      ("taints" ∈ δ.paths ↔
        ¬ (desired.spec.taints.map Taint.reading).Perm (observed.taints.map Taint.reading)) ∧
      ((desired.spec.taints.map Taint.key).Nodup → (observed.taints.map Taint.key).Nodup →
        (u.taints ≠ none ↔ "taints" ∈ δ.paths ∨ Respelled desired.spec observed)) := by
  intro δ
  obtain rfl := configGiven planned
  have sent : taintsChange? desired.spec observed ≠ none ↔
      ∃ key, first Taint.key desired.spec.taints key ≠ first Taint.key observed.taints key := by
    simp only [taintsChangeIff, getIndex]
  refine ⟨_, rfl, labelsChangeIff.trans (labelsDiffer desired observed).symm, sent,
    taintsDiffer desired observed, fun wanted present => ?_⟩
  exact sent.trans ((changedTaints wanted present).trans (or_congr_left (taintsDiffer desired observed).symm))

theorem emptyValueSentAlong :
    let spec : Spec := { name := "workers", clusterName := "prod" }
    let labels : StringMap := ⟨[("team", "core")], List.pairwise_singleton _ _⟩
    let taint : Taint := ⟨"dedicated", some "", "NO_SCHEDULE"⟩
    let desired : Desired Spec := ⟨{ spec with labels := some labels, taints := [taint] }, .empty, none⟩
    let observed : Spec := { spec with taints := [⟨"dedicated", none, "NO_SCHEDULE"⟩] }
    let δ := (binding.input desired observed).delta
    ∃ u, planConfig (binding.input desired observed) = .calls [.config u] ∧
      "labels" ∈ δ.paths ∧ u.labels ≠ none ∧ "taints" ∉ δ.paths ∧ u.taints ≠ none := by
  intro spec labels taint desired observed δ
  have planned : planConfig (binding.input desired observed) = .calls [.config
      ⟨"prod", "workers", some ⟨labels, []⟩, some ⟨[taint], []⟩, none, none, none⟩] := by decide +kernel
  have unreported : "taints" ∉ δ.paths := by decide +kernel
  obtain ⟨u, same, labelsSent, _, _, taintsSent⟩ := labelsAndTaintsSent desired observed planned
  cases same
  exact ⟨_, planned, labelsSent.mp nofun, nofun, unreported,
    (taintsSent (by decide) (by decide)).mpr (.inr ⟨taint, by decide, _, List.mem_singleton_self _, by decide⟩)⟩

theorem secondTaintDropped :
    let spec : Spec := { name := "workers", clusterName := "prod" }
    let labels : StringMap := ⟨[("team", "core")], List.pairwise_singleton _ _⟩
    let held : List Taint := [⟨"dedicated", none, "NO_SCHEDULE"⟩]
    let answers : Answers Spec := ⟨.ok none, .ok none, fun _ => none, none, .ok .empty, none, none⟩
    let desired : Desired Spec :=
      ⟨{ spec with labels := some labels, taints := held ++ [⟨"dedicated", none, "NO_EXECUTE"⟩] }, .empty, none⟩
    let observed : Observed Spec := ⟨{ spec with taints := held }, some "ACTIVE", none, some .empty⟩
    let pass := binding.remediate .default answers desired observed
    pass.verdict? = some (.applied "config") ∧
      ¬ ∀ u, .config u ∈ pass.sent →
        (u.taints ≠ none ↔ "taints" ∈ (binding.input desired observed.spec).delta.paths) := by
  intro spec labels held answers desired observed pass
  have sent : pass.sent = [.config ⟨"prod", "workers", some ⟨labels, []⟩, none, none, none, none⟩] := by
    decide +kernel
  refine ⟨by decide +kernel, fun agrees => ?_⟩
  rw [sent] at agrees
  exact (agrees _ (List.mem_singleton_self _)).mpr (by decide +kernel) rfl

end DesiredState.Nodegroup
