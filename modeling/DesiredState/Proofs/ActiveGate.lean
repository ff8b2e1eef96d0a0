import DesiredState.Kind
import DesiredState.Proofs.SingleCategory

/-!
A resource that is not active is left alone. What an asynchronous update leaves behind is such a resource, so the next
pass waits for it. -/
namespace DesiredState

theorem StatusRules.memTerminal (r : StatusRules) (config : Config) (p : Phase) :
    p ∈ (r.configured config).terminal ↔
      if p = .degraded then config.degradedIsTerminal r.kind = true else p ∈ r.terminal := by
  unfold configured withDegradedTerminal
  by_cases degraded : p = .degraded
  · cases config.degradedIsTerminal r.kind <;> simp [degraded]
  · cases config.degradedIsTerminal r.kind <;> simp [degraded]

namespace Binding
variable {σ υ : Type}

inductive Held (b : Binding σ υ) (config : Config) : Option Phase → Verdict → Prop where
  | deleting (reason) : Held b config (some .deleting) (.wait reason config.waitBackoff)
  | final {p} (stays : p ≠ .deleting) (listed : p ∈ (b.rules config).terminal) (reason) :
      Held b config (some p) (.terminal reason)
  | waiting {phase} (stays : phase ≠ some .deleting) (unlisted : ∀ p, phase = some p → p ∉ (b.rules config).terminal)
      (reason) : Held b config phase (.wait reason config.waitBackoff)

theorem Held.unapplied {b : Binding σ υ} {config : Config} {phase : Option Phase} {v : Verdict}
    (held : b.Held config phase v) : v.isApplied = false := by
  cases held <;> rfl

theorem unappliedFailure {config : Config} {desired : Desired σ} {f : CallFailure} {status : Option Phase}
    {r : Remediation σ} (ok : (f.verdict config).map (fun v => unseen desired v status) = .ok r) :
    r.verdict.isApplied = false := by
  cases failed : f.verdict config with
  | ok v =>
    rw [failed] at ok
    cases ok
    exact (failureUnfinished failed).1
  | error e => rw [failed] at ok; cases ok

section
variable (b : Binding σ υ) (config : Config)

theorem heldInactive {status : Option String} (idle : (b.rules config).classify status ≠ some .active) :
    ∃ v, b.inactive? config status = some v ∧ b.Held config ((b.rules config).classify status) v := by
  unfold inactive?
  dsimp only
  generalize (b.rules config).classify status = phase at idle
  split
  · rename_i deleting
    obtain rfl : phase = some .deleting := by simpa [StatusRules.isDeleting] using deleting
    exact ⟨_, rfl, .deleting _⟩
  · rename_i stays
    have stays : phase ≠ some .deleting := by simpa [StatusRules.isDeleting] using stays
    rw [if_neg (by simpa [StatusRules.isActive] using idle)]
    split
    · rename_i final
      obtain ⟨p, rfl, listed⟩ : ∃ p, phase = some p ∧ p ∈ (b.rules config).terminal := by
        simpa [StatusRules.isTerminal, Option.any_eq_true] using final
      exact ⟨_, rfl, .final (fun same => stays (congrArg some same)) listed _⟩
    · rename_i unlisted
      refine ⟨_, rfl, .waiting stays (fun p here listed => unlisted ?_) _⟩
      simpa [StatusRules.isTerminal, here] using listed

theorem remediateInactive (answers : Answers σ) (desired : Desired σ) {observed : Observed σ} {v : Verdict}
    (here : b.inactive? config observed.status = some v) :
    b.remediate config answers desired observed = pure (b.conclude desired observed v .empty) := by
  unfold remediate
  rw [here]

theorem waitsFor (answers : Answers σ) (desired : Desired σ) {observed : Observed σ} {p : Phase}
    (here : (b.rules config).classify observed.status = some p) (idle : p ≠ .active) (stays : p ≠ .deleting)
    (unlisted : p ∉ (b.rules config).terminal) :
    let pass := b.remediate config answers desired observed
    pass.attempts = [] ∧ pass.metrics = [] ∧
      ∃ r reason, pass.result = .ok r ∧ r.verdict = .wait reason config.waitBackoff := by
  dsimp only
  have inactive : (b.rules config).classify observed.status ≠ some .active := by simpa [here] using idle
  obtain ⟨v, chosen, held⟩ := b.heldInactive config inactive
  rw [b.remediateInactive config answers desired chosen]
  rw [here] at held
  cases held with
  | deleting reason => exact absurd rfl stays
  | final _ listed reason => exact absurd listed unlisted
  | waiting _ _ reason => exact ⟨rfl, rfl, _, reason, rfl, rfl⟩

section
variable (answers : Answers σ) (desired : Desired σ) {r : Remediation σ}

theorem createdStatus (ok : (b.create config answers desired).result = .ok r) (applied : r.verdict.isApplied = true) :
    r.resource.status = some Phase.creating.text := by
  unfold create at ok
  split at ok
  · cases ok
    cases applied
  · rw [Pass.resultSettle] at ok
    split at ok
    · cases ok
      rfl
    · rename_i f _
      rw [Pass.resultReturn] at ok
      exact absurd ((unappliedFailure ok).symm.trans applied) Bool.false_ne_true

theorem appliedStatus (asynchronous : b.asyncUpdates = true) (applied : r.verdict.isApplied = true)
    {observed : Observed σ} (ok : (b.remediate config answers desired observed).result = .ok r) :
    r.resource.status = some Phase.updating.text := by
  rw [b.reportsRemediate config answers desired observed r ok, asynchronous, applied]
  rfl

theorem reconciledStatus (asynchronous : b.asyncUpdates = true) (applied : r.verdict.isApplied = true)
    (ok : (b.reconcile config answers desired).result = .ok r) :
    r.resource.status = some Phase.updating.text ∨ r.resource.status = some Phase.creating.text := by
  cases described : answers.describe with
  | error f =>
    rw [(b.reconcileStopped config answers desired described).2] at ok
    exact absurd ((unappliedFailure ok).symm.trans applied) Bool.false_ne_true
  | ok found =>
    cases found with
    | some seen =>
      rw [(b.reconcileFound config answers desired described).2] at ok
      exact .inl (b.appliedStatus config answers desired asynchronous applied ok)
    | none =>
      rw [(b.reconcileMissing config answers desired described).2] at ok
      exact .inr (b.createdStatus config answers desired ok applied)

end

end

end Binding

namespace Kind

theorem neverFinal (k : Kind) (config : Config) {p : Phase} (busy : p = .updating ∨ p = .creating) :
    p ∉ (k.binding.rules config).terminal := by
  unfold Binding.rules
  rw [StatusRules.memTerminal, if_neg (by rcases busy with rfl | rfl <;> decide)]
  rcases busy with rfl | rfl <;> cases k <;> decide

/- Whatever is observed of a resource that is not active is kept, and nothing is sent. An applied update or creation
leaves such a resource behind, whatever the next pass is asked for. -/
theorem nothingUnlessActive (k : Kind) (config : Config) :
    let b := k.binding
    let phase := (b.rules config).classify
    (∀ answers desired observed, phase observed.status ≠ some .active →
      let pass := b.remediate config answers desired observed
      pass.attempts = [] ∧ pass.metrics = [] ∧ ∃ r, pass.result = .ok r ∧ r.delta = .empty ∧
        r.resource.status = observed.status ∧ r.resource.tags = observed.tags ∧
        b.Held config (phase observed.status) r.verdict) ∧
    (b.asyncUpdates = true → ∀ answers desired r category, r.verdict = .applied category →
      ((∃ observed, (b.remediate config answers desired observed).result = .ok r) ∨
        (b.reconcile config answers desired).result = .ok r) →
      ∀ answers' desired',
        let next := b.remediate config answers' desired' r.resource
        next.attempts = [] ∧ next.metrics = [] ∧
          ∃ r' reason, next.result = .ok r' ∧ r'.verdict = .wait reason config.waitBackoff) := by
  intro b phase
  refine ⟨fun answers desired observed idle => ?_, fun asynchronous answers desired r category verdict ends => ?_⟩
  · obtain ⟨v, chosen, held⟩ := b.heldInactive config idle
    dsimp only
    rw [b.remediateInactive config answers desired chosen]
    refine ⟨rfl, rfl, _, rfl, rfl, ?_, rfl, held⟩
    change (if (b.asyncUpdates && v.isApplied) = true then some Phase.updating.text else observed.status) = _
    rw [held.unapplied, Bool.and_false]
    rfl
  · intro answers' desired'
    have applied : r.verdict.isApplied = true := by rw [verdict]; rfl
    have left : r.resource.status = some Phase.updating.text ∨ r.resource.status = some Phase.creating.text := by
      rcases ends with ⟨observed, ok⟩ | ok
      · exact .inl (b.appliedStatus config answers desired asynchronous applied ok)
      · exact b.reconciledStatus config answers desired asynchronous applied ok
    rcases left with status | status
    · have here : phase r.resource.status = some .updating := by rw [status]; rfl
      exact b.waitsFor config answers' desired' here nofun nofun (k.neverFinal config (.inl rfl))
    · have here : phase r.resource.status = some .creating := by rw [status]; rfl
      exact b.waitsFor config answers' desired' here nofun nofun (k.neverFinal config (.inr rfl))

theorem updatedAddonWaitedFor :
    let spec (version : String) : Addon.Spec :=
      { name := "coredns", clusterName := "main", addonVersion := some version }
    let answers : Answers Addon.Spec := ⟨.ok none, .ok none, fun _ => none, none, .ok .empty, none, none⟩
    let desired : Desired Addon.Spec := ⟨spec "v2", .empty, none⟩
    let observed : Observed Addon.Spec := ⟨spec "v1", some "ACTIVE", some "arn", some .empty⟩
    ∃ r, (Addon.binding.remediate .default answers desired observed).result = .ok r ∧ r.verdict = .applied "addon" ∧
      (Addon.binding.remediate .default answers desired r.resource).attempts = [] := by
  intro spec answers desired observed
  have applied : ((Addon.binding.remediate .default answers desired observed).result.toOption.map Remediation.verdict) =
      some (.applied "addon") := by decide +kernel
  cases ok : (Addon.binding.remediate .default answers desired observed).result with
  | error e => rw [ok] at applied; cases applied
  | ok r =>
    rw [ok] at applied
    have verdict : r.verdict = .applied "addon" := Option.some.inj applied
    exact ⟨r, rfl, verdict, ((nothingUnlessActive .addon .default).2 rfl answers desired r "addon" verdict
      (.inl ⟨observed, ok⟩) answers desired).1⟩

end Kind
end DesiredState
