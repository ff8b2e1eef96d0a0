import DesiredState.Proofs.Courses

/-!
What a pass records, and how it ends. There is one metric a call, and the first call that fails for good is the last
one: its failure alone decides the outcome. -/
namespace DesiredState

theorem verdictOfConflict {f : CallFailure} (config : Config) (inFlight : f.cause.code = Directive.conflictCode) :
    ∃ reason, f.verdict config = .ok (.wait reason config.conflictBackoff) := by
  have directive : Directive.ofFault config f.cause = ⟨.conflict, some config.conflictBackoff⟩ := by
    unfold Directive.ofFault
    rw [if_pos (beq_iff_eq.mpr inFlight)]
  unfold CallFailure.verdict
  rw [directive]
  exact ⟨_, rfl⟩

/- Listed as a final code too, an operation in flight is still waited for. -/
example :
    CallFailure.verdict ⟨"UpdateAddon", "ResourceInUseException", "busy"⟩
      { Config.default with extraTerminalCodes := ["ResourceInUseException"] } =
    .ok (.wait "UpdateAddon conflicts with an operation in progress: busy" Config.default.conflictBackoff) := rfl

section
variable {config : Config} {f : CallFailure} (other : f.cause.code ≠ Directive.conflictCode)
include other

theorem verdictOfTerminal (final : f.cause.code ∈ Directive.terminalCodes ++ config.extraTerminalCodes) :
    ∃ reason, f.verdict config = .ok (.terminal reason) := by
  have directive : Directive.ofFault config f.cause = ⟨.terminal, none⟩ := by
    unfold Directive.ofFault
    rw [if_neg (by simpa using other), if_pos (by simpa using final)]
  unfold CallFailure.verdict
  rw [directive]
  exact ⟨_, rfl⟩

theorem verdictOfUnknown (unlisted : f.cause.code ∉ Directive.terminalCodes ++ config.extraTerminalCodes) :
    f.verdict config = .error (.remote f.operation f.cause) := by
  have directive : Directive.ofFault config f.cause = ⟨.unknown, none⟩ := by
    unfold Directive.ofFault
    rw [if_neg (by simpa using other), if_neg (by simpa using unlisted)]
  unfold CallFailure.verdict
  rw [directive]

end

namespace Binding
variable {σ υ : Type}

def Mirrored {ε α : Type} (b : Binding σ υ) (answers : Answers σ) (p : Pass σ υ ε α) : Prop :=
  Recorder.memory.kept? p.metrics = some (p.attempts.map b.metric) ∧ p.attempts = answers.log 0 p.calls

structure FailStop {α : Type} (b : Binding σ υ) (config : Config) (answers : Answers σ) (desired : Desired σ)
    (outcome : α → Verdict) (p : Pass σ υ Fault α) : Prop where
  scripted : p.attempts = answers.log 0 p.calls
  last : ∀ before call f after, p.attempts = before ++ ⟨call, some f⟩ :: after → b.excuses call f = false →
    after = [] ∧ p.result.map outcome = CallFailure.verdict ⟨b.operationOf call, f⟩ config
  untroubled : (∀ a ∈ p.attempts, a.failure.all (b.excuses a.call) = true) → ∀ e, p.result = .error e →
    e = b.noArn desired ∧ ∀ a ∈ p.attempts, a.call.isUpdate = false

theorem Runs.mirrored {ε α : Type} {b : Binding σ υ} {answers : Answers σ}
    {ends : Nat → Option CallFailure → Except ε α → Prop} {p : Pass σ υ ε α} (runs : Runs b answers 0 ends p) :
    b.Mirrored answers p := by
  obtain ⟨m, stop, course, _⟩ := runs
  exact ⟨congrArg some course.mirrored, course.scripted⟩

theorem Runs.failStop {α : Type} {b : Binding σ υ} {config : Config} {answers : Answers σ} {desired : Desired σ}
    {outcome : α → Verdict} {p : Pass σ υ Fault α} (runs : Runs b answers 0 (b.Settles config desired outcome) p) :
    b.FailStop config answers desired outcome p := by
  obtain ⟨m, stop, course, settles⟩ := runs
  refine ⟨course.scripted, fun before call f after here counts => ?_, fun fine e failed => ?_⟩
  · obtain ⟨final, rfl⟩ := course.last here counts
    exact ⟨final, settles⟩
  · obtain rfl := course.untroubled fine
    obtain ⟨same, rfl⟩ := settles e failed
    have uncounted : p.attempts.countP (fun a => a.call.isUpdate) = 0 := by
      have counted := course.counted
      omega
    exact ⟨same, fun a member => by simpa using List.countP_eq_zero.mp uncounted a member⟩

section
variable (b : Binding σ υ) (config : Config) (answers : Answers σ) (desired : Desired σ) (observed : Observed σ)

theorem metricsMirrorCalls :
    b.Mirrored answers (b.remediate config answers desired observed) ∧
      b.Mirrored answers (b.reconcile config answers desired) ∧
      b.Mirrored answers (b.finalize config answers desired) :=
  ⟨(b.remediateRuns config answers desired observed).mirrored, (b.reconcileRuns config answers desired).mirrored,
    (b.finalizeRuns config answers desired).mirrored⟩

/- However a pass is started, it stops at the first failure that is not excused, with the verdict on that failure:
a wait when an operation is in flight, a final refusal for a listed code, and an error for any other. -/
theorem firstFailureDecides :
    b.FailStop config answers desired Remediation.verdict (b.remediate config answers desired observed) ∧
      b.FailStop config answers desired Remediation.verdict (b.reconcile config answers desired) ∧
      b.FailStop config answers desired id (b.finalize config answers desired) ∧
      ∀ f : CallFailure,
        (f.cause.code = "ResourceInUseException" →
          ∃ reason, f.verdict config = .ok (.wait reason config.conflictBackoff)) ∧
        (f.cause.code ≠ "ResourceInUseException" →
          (f.cause.code ∈ Directive.terminalCodes ++ config.extraTerminalCodes →
            ∃ reason, f.verdict config = .ok (.terminal reason)) ∧
          (f.cause.code ∉ Directive.terminalCodes ++ config.extraTerminalCodes →
            f.verdict config = .error (.remote f.operation f.cause))) := by
  refine ⟨(b.remediateRuns config answers desired observed).failStop, (b.reconcileRuns config answers desired).failStop,
    (b.finalizeRuns config answers desired).failStop, fun f => ⟨verdictOfConflict config, fun other => ?_⟩⟩
  exact ⟨verdictOfTerminal other, verdictOfUnknown other⟩

end

end Binding
end DesiredState
