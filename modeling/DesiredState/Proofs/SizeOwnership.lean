import DesiredState.Proofs.PathOwnership

/-!
A desired size that somebody else sets. It never reaches a delta, so it decides nothing; where a scaling is observed its
size is the one that is sent. To a nodegroup that shows no scaling the desired size goes out as it was declared. -/
namespace DesiredState

namespace Delta

def elsewhere (top : String) (d : Difference) : Bool := !pathUnder d.path top

end Delta

theorem FieldTable.rawElsewhere {σ : Type} {t : FieldTable σ} {d d' o : σ} {top : String}
    (same : ∀ f ∈ t.fields, (f.differences d o).filter (Delta.elsewhere top) =
      (f.differences d' o).filter (Delta.elsewhere top)) :
    (t.raw d o).strip top = (t.raw d' o).strip top :=
  keepingSame (fun path => !pathUnder path top) same

namespace Rule
open Json

theorem walkElsewhere {d d' o : Json} {l l' r : List (String × Json)} (left : d.members? = some l)
    (left' : d'.members? = some l') (right : o.members? = some r) (path : String) {name : String}
    (same : ∀ k, k ≠ name → member l k = member l' k) :
    (walk path d o).filter (Delta.elsewhere s!"{path}.{name}") =
      (walk path d' o).filter (Delta.elsewhere s!"{path}.{name}") := by
  have alike (k : String) :
      (below s!"{path}.{k}" (member l k) (member r k)).filter (Delta.elsewhere s!"{path}.{name}") =
        (below s!"{path}.{k}" (member l' k) (member r k)).filter (Delta.elsewhere s!"{path}.{name}") := by
    by_cases here : k = name
    · subst here
      have nothing (v w : Json) : (below s!"{path}.{k}" v w).filter (Delta.elsewhere s!"{path}.{k}") = [] := by
        rw [List.filter_eq_nil_iff]
        intro x found
        unfold Delta.elsewhere
        rw [belowUnder (walkUnder _ _ _) found]
        exact Bool.false_ne_true
      rw [nothing, nothing]
    · rw [same k here]
  rw [walkNames left right, walkNames left' right, List.filter_flatMap, List.filter_flatMap]
  have inside {l : List (String × Json)} {k : String} (found :
      (below s!"{path}.{k}" (member l k) (member r k)).filter (Delta.elsewhere s!"{path}.{name}") ≠ []) :
      k ∈ nameUnion l r :=
    belowNamed fun empty => found (by rw [empty]; rfl)
  refine (flatMapAscending (ascendingUnion l r) (ascendingUnion l' r) fun k found => ?_).trans
    (List.flatMap_congr fun k _ => alike k)
  exact iff_of_true (inside found) (inside (alike k ▸ found))

end Rule

def Pass.outcome {σ υ : Type} (p : Pass σ υ Fault (Remediation σ)) : Except Fault (Verdict × Delta) :=
  p.result.map fun r => (r.verdict, r.delta)

namespace Binding
variable {σ υ : Type} (b : Binding σ υ)

/- Choices that the remote's answers cannot tell apart. -/
inductive Alike : Choice υ → Choice υ → Prop where
  | nothing : Alike .nothing .nothing
  | refuse (reason) : Alike (.refuse reason) (.refuse reason)
  | send (category) {us vs : List υ}
      (each : List.Forall₂ (fun u v => b.operation u = b.operation v ∧ b.benign u = b.benign v) us vs) :
      Alike (.send category us) (.send category vs)

variable {b} in
theorem Alike.same (c : Choice υ) : b.Alike c c := by
  cases c with
  | nothing => exact .nothing
  | refuse reason => exact .refuse reason
  | send category updates => exact .send category (List.forall₂_same.mpr fun _ _ => ⟨rfl, rfl⟩)

section
variable (config : Config) (answers : Answers σ) (desired : Desired σ) (observed : Observed σ)

theorem sendAlike (id : ResourceId) (n : Nat) {us vs : List υ}
    (each : List.Forall₂ (fun u v => b.operation u = b.operation v ∧ b.benign u = b.benign v) us vs) :
    (b.sendFrom answers id n us).result = (b.sendFrom answers id n vs).result := by
  induction each generalizing n with
  | nil => rfl
  | @cons u v us vs same _ ih =>
    unfold sendFrom
    rw [Pass.resultSettle, Pass.resultSettle]
    cases answers.update n with
    | none => exact ih (n + 1)
    | some f =>
      dsimp only [Pass.tell, Pass.ask]
      rw [same.1, same.2]
      split
      · exact ih (n + 1)
      · rfl

theorem applyFirstDecides (δ : Delta) :
    let p := b.applyFirst config answers desired observed δ
    match b.choice ⟨desired.spec, observed.spec, δ, desired.annotations⟩ with
    | .nothing => p.attempts = [] ∧ p.outcome = .ok (.converged, δ)
    | .refuse reason => p.attempts = [] ∧ p.outcome = .ok (.terminal reason, δ)
    | .send category updates =>
      let sending := b.sendFrom answers (b.resourceId desired.spec) 0 updates
      p.attempts = sending.attempts ∧ p.outcome =
        match sending.result with
        | .ok _ => .ok (.applied category, δ)
        | .error f => (f.verdict config).map fun v => (v, δ) := by
  dsimp only
  cases chosen : b.choice ⟨desired.spec, observed.spec, δ, desired.annotations⟩ with
  | nothing =>
    rw [b.applyFirstNothing config answers desired observed chosen]
    exact ⟨rfl, rfl⟩
  | refuse reason =>
    rw [b.applyFirstRefuse config answers desired observed chosen]
    exact ⟨rfl, rfl⟩
  | send category updates =>
    unfold applyFirst Pass.outcome
    rw [chosen]
    dsimp only
    rw [Pass.settleThen]
    cases (b.sendFrom answers (b.resourceId desired.spec) 0 updates).result with
    | ok _ => exact ⟨List.append_nil _, rfl⟩
    | error f =>
      dsimp only
      rw [Pass.returned]
      cases f.verdict config <;> exact ⟨List.append_nil _, rfl⟩

theorem untaggedDecides (f : TagFault) :
    let p := b.afterTags config answers desired observed (.error f)
    p.attempts = [] ∧ p.outcome = (f.verdict config).map fun v => (v, .empty) := by
  unfold afterTags Pass.outcome
  dsimp only
  rw [Pass.returned]
  cases f.verdict config <;> exact ⟨rfl, rfl⟩

theorem taggedDecides (synced : Option StringMap) :
    let p := b.afterTags config answers desired observed (.ok synced)
    let rest := b.applyFirst config answers desired observed (b.delta desired observed.spec)
    p.attempts = rest.attempts ∧ p.outcome = rest.outcome := by
  unfold afterTags Pass.outcome
  dsimp only
  rw [Pass.returned]
  cases (b.applyFirst config answers desired observed (b.delta desired observed.spec)).result <;> exact ⟨rfl, rfl⟩

end

section
variable (config : Config) (answers : Answers σ) {d d' : Desired σ} {observed : Observed σ}
  (id : b.resourceId d.spec = b.resourceId d'.spec)
include id

theorem applyFirstAlike {δ : Delta} {c c' : Choice υ} (alike : b.Alike c c')
    (chosen : b.choice ⟨d.spec, observed.spec, δ, d.annotations⟩ = c)
    (chosen' : b.choice ⟨d'.spec, observed.spec, δ, d'.annotations⟩ = c') :
    let p := b.applyFirst config answers d observed δ
    let p' := b.applyFirst config answers d' observed δ
    p.outcome = p'.outcome ∧ (c = c' → p.attempts = p'.attempts) := by
  have left := b.applyFirstDecides config answers d observed δ
  have right := b.applyFirstDecides config answers d' observed δ
  dsimp only at left right ⊢
  rw [chosen] at left
  rw [chosen'] at right
  cases alike with
  | nothing => exact ⟨left.2.trans right.2.symm, fun _ => left.1.trans right.1.symm⟩
  | refuse reason => exact ⟨left.2.trans right.2.symm, fun _ => left.1.trans right.1.symm⟩
  | send category each =>
    refine ⟨?_, fun equal => ?_⟩
    · rw [left.2, right.2, id, b.sendAlike answers _ 0 each]
    · cases equal
      rw [left.1, right.1, id]

theorem remediateAlike (tags : b.tags d.spec = b.tags d'.spec)
    (same : b.delta d observed.spec = b.delta d' observed.spec)
    (alike : b.Alike (b.choice (b.input d observed.spec)) (b.choice (b.input d' observed.spec))) :
    let p := b.remediate config answers d observed
    let p' := b.remediate config answers d' observed
    p.outcome = p'.outcome ∧
      (b.choice (b.input d observed.spec) = b.choice (b.input d' observed.spec) → p.attempts = p'.attempts) := by
  dsimp only
  cases here : b.inactive? config observed.status with
  | some v =>
    unfold remediate
    rw [here]
    exact ⟨rfl, fun _ => rfl⟩
  | none =>
    have synced : b.syncTags answers d observed = b.syncTags answers d' observed := by
      unfold syncTags
      rw [tags, id]
    rw [b.remediateActive config answers d observed here, b.remediateActive config answers d' observed here, synced,
      Pass.settleThen, Pass.settleThen]
    cases (b.syncTags answers d' observed).result with
    | error f =>
      obtain ⟨calls, outcome⟩ := b.untaggedDecides config answers d observed f
      obtain ⟨calls', outcome'⟩ := b.untaggedDecides config answers d' observed f
      exact ⟨outcome.trans outcome'.symm, fun _ => congrArg (_ ++ ·) (calls.trans calls'.symm)⟩
    | ok s =>
      obtain ⟨calls, outcome⟩ := b.taggedDecides config answers d observed s
      obtain ⟨calls', outcome'⟩ := b.taggedDecides config answers d' observed s
      obtain ⟨outcomes, sent⟩ := b.applyFirstAlike config answers id alike rfl (by rw [same]; rfl)
      rw [← same] at calls' outcome'
      exact ⟨outcome.trans (outcomes.trans outcome'.symm),
        fun equal => congrArg (_ ++ ·) (calls.trans ((sent equal).trans calls'.symm))⟩

end

end Binding

namespace Nodegroup

def sized (d : Desired Spec) (s : Scaling) (size : Option Int64) : Desired Spec :=
  { d with spec := { d.spec with scalingConfig := some { s with desiredSize := size } } }

def Update.scaling? : Update → Option Scaling
  | .config u => u.scalingConfig
  | .version _ => none

section
variable {d : Desired Spec} (external : d.annotations.sizeOwner = .external) (s : Scaling) (a b : Option Int64)
include external

theorem sizedDelta (o : Spec) : binding.delta (sized d s a) o = binding.delta (sized d s b) o := by
  have stripped (x : Option Int64) :
      binding.delta (sized d s x) o = (table.raw (sized d s x).spec o).strip desiredSizePath := if_pos external
  have rows : ∀ f ∈ table.fields, f.render (sized d s a).spec = f.render (sized d s b).spec ∨
      f = .always "scalingConfig" .nested fun s => .ofOption Scaling.record.codec.write s.scalingConfig := by
    simp only [table, List.forall_mem_cons]
    exact ⟨.inl rfl, .inl rfl, .inl rfl, .inl rfl, .inl rfl, .inl rfl, .inl rfl, .inl rfl, .inl rfl, .inl rfl, .inl rfl,
      .inr trivial, .inl rfl, .inl rfl, .inl rfl, .inl rfl, .inl rfl, nofun⟩
  rw [stripped, stripped]
  refine FieldTable.rawElsewhere fun f member => ?_
  rcases rows f member with same | rfl
  · unfold Field.differences
    rw [same]
  · have unset : Scaling.record.document {} = [] := rfl
    have distinct : Scaling.record.names.Nodup := by decide
    have place : desiredSizePath = "scalingConfig" ++ "." ++ "desiredSize" := rfl
    have left (x : Option Int64) : (Scaling.record.codec.write { s with desiredSize := x }).members? =
        some (Scaling.record.document { s with desiredSize := x }) := rfl
    rw [place]
    refine Rule.walkElsewhere (left a) (left b) (Record.shownMembers unset o.scalingConfig) "scalingConfig" ?_
    refine (Record.everyMember distinct (fun k v w => k ≠ "desiredSize" → v = w) (fun _ _ => rfl) _ _).mpr ?_
    exact List.forall_mem_cons.mpr ⟨fun _ => rfl, List.forall_mem_cons.mpr ⟨fun _ => rfl,
      List.forall_mem_singleton.mpr fun other => absurd rfl other⟩⟩

theorem scalingSized (o : Spec) (size : Option Int64) : scaling? (sized d s size).spec o d.annotations =
    some { s with desiredSize := o.scalingConfig.elim size Scaling.desiredSize } := by
  unfold scaling? sized
  rw [external]
  cases o.scalingConfig <;> rfl

theorem sizedAlike (o : Spec) (δ : Delta) :
    let choice size := binding.choice ⟨(sized d s size).spec, o, δ, d.annotations⟩
    binding.Alike (choice a) (choice b) ∧ (o.scalingConfig.isSome = true → choice a = choice b) := by
  let update (size : Option Int64) : Update :=
    .config ⟨d.spec.clusterName, d.spec.name, labelsChange? d.spec o, taintsChange? d.spec o,
      some { s with desiredSize := o.scalingConfig.elim size Scaling.desiredSize }, d.spec.updateConfig,
      d.spec.nodeRepairConfig⟩
  -- There is always a scaling to send, so the size does not decide whether the group skips.
  have configures (size : Option Int64) :
      planConfig ⟨(sized d s size).spec, o, δ, d.annotations⟩ = .calls [update size] := by
    unfold planConfig
    dsimp only
    rw [scalingSized external]
    exact if_neg (by simp)
  have versions : planVersion ⟨(sized d s a).spec, o, δ, d.annotations⟩ =
      planVersion ⟨(sized d s b).spec, o, δ, d.annotations⟩ := rfl
  dsimp only
  unfold Binding.choice
  dsimp only [binding]
  split
  · exact ⟨.nothing, fun _ => rfl⟩
  · cases δ.immutableChanges? immutable with
    | some reason => exact ⟨.refuse reason, fun _ => rfl⟩
    | none =>
      unfold groups Binding.firstPlan Binding.firstPlan Binding.firstPlan
      dsimp only
      rw [configures, configures, versions]
      split
      · refine ⟨.send "config" (.cons ⟨rfl, rfl⟩ .nil), fun seen => ?_⟩
        obtain ⟨current, shown⟩ := Option.isSome_iff_exists.mp seen
        simp only [update, shown, Option.elim_some]
      · exact ⟨.same _, fun _ => rfl⟩

end

theorem scalingOfPlan {input : PlanInput Spec} {calls : List Update} (plan : planConfig input = .calls calls) :
    ∀ u ∈ calls, u.scaling? = scaling? input.desired input.observed input.annotations := by
  unfold planConfig at plan
  dsimp only at plan
  split at plan
  · cases plan
  · cases plan
    exact List.forall_mem_singleton.mpr rfl

theorem sentScaling (config : Config) (answers : Answers Spec) (desired : Desired Spec) (observed : Observed Spec)
    {sent : Scaling} {u : Update} (member : u ∈ (binding.remediate config answers desired observed).sent)
    (scales : u.scaling? = some sent) : scaling? desired.spec observed.spec desired.annotations = some sent := by
  rcases binding.sentOfOneGroup config answers desired observed with nothing | ⟨g, calls, decides, plan, issued⟩
  · rw [nothing] at member
    cases member
  · have inside := issued.subset member
    rcases List.mem_pair.mp decides.listed with rfl | rfl
    · exact (scalingOfPlan plan u inside).symm.trans scales
    · change planVersion _ = _ at plan
      unfold planVersion at plan
      split at plan
      · cases plan
      · split at plan
        · cases plan
        · cases plan
          cases List.mem_singleton.mp inside
          cases scales

/- With an external owner the declared size decides neither the outcome of a pass nor, where a scaling is observed, any
call. Where none is observed, the declared size is what a configuration call carries. -/
theorem ownedSizeDecidesNothing (config : Config) (answers : Answers Spec) (d : Desired Spec) (s : Scaling)
    (observed : Observed Spec) (external : d.annotations.sizeOwner = .external) (a b : Option Int64) :
    let pass size := binding.remediate config answers (sized d s size) observed
    (pass a).outcome = (pass b).outcome ∧
      (∀ current, observed.spec.scalingConfig = some current →
        (pass a).attempts = (pass b).attempts ∧
          ∀ u ∈ (pass a).sent, ∀ sent, u.scaling? = some sent → sent.desiredSize = current.desiredSize) ∧
      (observed.spec.scalingConfig = none →
        ∀ u ∈ (pass a).sent, ∀ sent, u.scaling? = some sent → sent.desiredSize = a) := by
  dsimp only
  have delta := sizedDelta external s a b observed.spec
  have alike := sizedAlike external s a b observed.spec (binding.delta (sized d s a) observed.spec)
  have sentSize {u : Update} (member : u ∈ (binding.remediate config answers (sized d s a) observed).sent)
      {sent : Scaling} (scales : u.scaling? = some sent) :
      sent.desiredSize = observed.spec.scalingConfig.elim a Scaling.desiredSize := by
    have planned := sentScaling config answers (sized d s a) observed member scales
    cases (scalingSized external s observed.spec a).symm.trans planned
    rfl
  have choices : binding.Alike (binding.choice (binding.input (sized d s a) observed.spec))
      (binding.choice (binding.input (sized d s b) observed.spec)) := by
    unfold Binding.input
    rw [← delta]
    exact alike.1
  obtain ⟨outcome, attempts⟩ := binding.remediateAlike config answers (by rfl) (by rfl) delta choices
  refine ⟨outcome, fun current shown => ⟨attempts ?_, fun u member sent scales => ?_⟩,
    fun unseen u member sent scales => ?_⟩
  · unfold Binding.input
    rw [← delta]
    exact alike.2 (by rw [shown]; rfl)
  · rw [sentSize member scales, shown]
    rfl
  · rw [sentSize member scales, unseen]
    rfl

def autoscaled (size : Option Int64) : Desired Spec :=
  let labels : StringMap := .ofList [("team", "core")]
  let annotations : Annotations := .insert .empty Annotations.sizeOwnerKey Annotations.externalAutoscaler
  sized ⟨{ name := "workers", clusterName := "prod", labels := some labels }, annotations, none⟩
    { minSize := some 1, maxSize := some 10 } size

theorem observedSizeSent :
    let answers : Answers Spec := ⟨.ok none, .ok none, fun _ => none, none, .ok .empty, none, none⟩
    let scaling : Scaling := { minSize := some 1, maxSize := some 8, desiredSize := some 4 }
    let observed : Observed Spec :=
      ⟨{ name := "workers", clusterName := "prod", scalingConfig := some scaling }, some "ACTIVE", none, some .empty⟩
    let pass size := binding.remediate .default answers (autoscaled size) observed
    (pass (some 7)).attempts = (pass none).attempts ∧
      (pass (some 7)).sent.filterMap Update.scaling? =
        [{ minSize := some 1, maxSize := some 10, desiredSize := some 4 }] := by
  intro answers scaling observed pass
  have alike := ownedSizeDecidesNothing .default answers (autoscaled none) { minSize := some 1, maxSize := some 10 }
    observed (by decide) (some 7) none
  exact ⟨(alike.2.1 scaling rfl).1, by decide +kernel⟩

theorem unseenScalingSendsSize :
    let answers : Answers Spec := ⟨.ok none, .ok none, fun _ => none, none, .ok .empty, none, none⟩
    let observed : Observed Spec := ⟨{ name := "workers", clusterName := "prod" }, some "ACTIVE", none, some .empty⟩
    let pass size := binding.remediate .default answers (autoscaled size) observed
    (autoscaled (some 7)).annotations.sizeOwner = .external ∧ (pass (some 7)).attempts ≠ (pass (some 3)).attempts ∧
      ∃ sent ∈ (pass (some 7)).sent.filterMap Update.scaling?, sent.desiredSize ≠ none := by
  intro answers observed pass
  have sent : (pass (some 7)).sent.filterMap Update.scaling? =
      [{ minSize := some 1, maxSize := some 10, desiredSize := some 7 }] := by decide +kernel
  refine ⟨by decide, by decide +kernel, _, sent ▸ List.mem_cons_self, ?_⟩
  decide

end Nodegroup
end DesiredState
