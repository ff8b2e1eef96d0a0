import DesiredState.Kinds.Addon
import DesiredState.Proofs.Environments
import DesiredState.Proofs.Updates

/-!
When the next pass is due. A waiting verdict carries its delay with it, the others leave it to the tunables; the
delays carried are followed through every way in which a pass can end. -/
namespace DesiredState

namespace Config

def pauses (c : Config) : List Delay := [c.waitBackoff, c.asyncUpdateRequeue, c.conflictBackoff, c.resyncPeriod]

theorem ofEnvValid {env : String → Option String} {c : Config} (loaded : ofEnv env = .ok c) : c.validate = .ok () :=
  (ofEnvOk.mp loaded).2.1

theorem pausesPositive {c : Config} (valid : c.validate = .ok ()) : ∀ d ∈ c.pauses, 1 ≤ d.seconds := by
  intro pause member
  have each : c.pauses = settings.map fun s => .ofSeconds (s.get c).toNat := rfl
  rw [each] at member
  obtain ⟨s, listed, rfl⟩ := List.mem_map.mp member
  have positive : (s.get c).toNat ≠ 0 := fun zero => validateIff.mp valid s listed (UInt64.toNat_inj.mp zero)
  exact Nat.one_le_iff_ne_zero.mpr positive

end Config

namespace Pass
variable {σ υ ε ε' α β : Type}

def Yields (p : Pass σ υ ε α) (fits : α → Prop) : Prop := ∀ a, p.result = .ok a → fits a

theorem yieldsPure {fits : α → Prop} {a : α} (here : fits a) : (pure a : Pass σ υ ε α).Yields fits := by
  rintro _ ⟨⟩
  exact here

theorem yieldsBind {p : Pass σ υ ε α} {f : α → Pass σ υ ε β} {found : α → Prop} {fits : β → Prop}
    (first : p.Yields found) (next : ∀ a, found a → (f a).Yields fits) : (p >>= f).Yields fits := by
  intro b ended
  cases result : p.result with
  | error e => rw [bindError result] at ended; cases ended
  | ok a => rw [bindOk result] at ended; exact next a (first a result) b ended

theorem yieldsSettle {p : Pass σ υ ε α} {f : Except ε α → Pass σ υ ε' β} {fits : β → Prop}
    (next : ∀ r, (f r).Yields fits) : (p.settle >>= f).Yields fits :=
  next p.result

end Pass

def Verdict.Waits (config : Config) (v : Verdict) : Prop :=
  ∀ reason after, v = .wait reason after → after = config.waitBackoff ∨ after = config.conflictBackoff

theorem Verdict.waitsBackoff {config : Config} (reason : String) : Waits config (.wait reason config.waitBackoff) := by
  rintro _ _ ⟨⟩
  exact .inl rfl

theorem Verdict.waitsNever {config : Config} {v : Verdict} (done : ∀ reason after, v ≠ .wait reason after) :
    Waits config v :=
  fun reason after same => absurd same (done reason after)

theorem Verdict.actionPauses {config : Config} {v : Verdict} (waits : v.Waits config) (after : Delay)
    (asked : v.action config = .requeue after) : after ∈ config.pauses := by
  cases v with
  | wait reason _ =>
    cases asked
    rcases waits reason after rfl with rfl | rfl <;> simp [Config.pauses]
  | terminal reason => cases asked
  | applied category => cases asked; simp [Config.pauses]
  | converged => cases asked; simp [Config.pauses]

theorem CallFailure.waits {σ υ : Type} (config : Config) (f : CallFailure) :
    (Pass.ofExcept (f.verdict config) : Pass σ υ Fault Verdict).Yields (Verdict.Waits config) := by
  rintro v (ended : f.verdict config = .ok v) reason after rfl
  unfold CallFailure.verdict Directive.ofFault at ended
  split at ended
  · rename_i backoff conflict
    split at conflict
    · cases conflict
      cases ended
      exact .inr rfl
    · split at conflict <;> cases conflict
  · cases ended
  · cases ended

theorem TagFault.waits {σ υ : Type} (config : Config) (f : TagFault) :
    (Pass.ofExcept (f.verdict config) : Pass σ υ Fault Verdict).Yields (Verdict.Waits config) := by
  cases f with
  | call f => exact f.waits config
  | noArn fault => exact nofun

namespace Binding
variable {σ υ : Type} (b : Binding σ υ) (config : Config)

theorem waitsInactive {status : Option String} {v : Verdict} (here : b.inactive? config status = some v) :
    v.Waits config := by
  unfold inactive? at here
  dsimp only at here
  repeat' split at here
  all_goals cases here
  · exact Verdict.waitsBackoff _
  · exact Verdict.waitsNever nofun
  · exact Verdict.waitsBackoff _

def WaitsAfter (config : Config) (r : Remediation σ) : Prop := r.verdict.Waits config

section
variable (answers : Answers σ) (desired : Desired σ) (observed : Observed σ)

theorem waitsApplyFirst (δ : Delta) :
    (b.applyFirst config answers desired observed δ).Yields (WaitsAfter config) := by
  unfold applyFirst
  split
  · exact Pass.yieldsPure (Verdict.waitsNever nofun)
  · exact Pass.yieldsPure (Verdict.waitsNever nofun)
  · refine Pass.yieldsSettle fun r => ?_
    cases r with
    | ok _ => exact Pass.yieldsPure (Verdict.waitsNever nofun)
    | error f => exact Pass.yieldsBind (f.waits config) fun v waits => Pass.yieldsPure waits

theorem waitsRemediate : (b.remediate config answers desired observed).Yields (WaitsAfter config) := by
  unfold remediate
  split
  · rename_i v here
    exact Pass.yieldsPure (b.waitsInactive config here)
  · refine Pass.yieldsSettle fun r => ?_
    cases r with
    | ok synced =>
      exact Pass.yieldsBind (b.waitsApplyFirst config answers desired observed _) fun r waits => Pass.yieldsPure waits
    | error f => exact Pass.yieldsBind (f.waits config) fun v waits => Pass.yieldsPure waits

theorem waitsCreate : (b.create config answers desired).Yields (WaitsAfter config) := by
  unfold create
  split
  · exact Pass.yieldsPure (Verdict.waitsBackoff _)
  · refine Pass.yieldsSettle fun r => ?_
    cases r with
    | ok arn => exact Pass.yieldsPure (Verdict.waitsNever nofun)
    | error f => exact Pass.yieldsBind (f.waits config) fun v waits => Pass.yieldsPure waits

theorem waitsDescribe {α : Type} {fits : α → Prop} {k : Described σ → Pass σ υ Fault α}
    (found : ∀ seen, (k (.found seen)).Yields fits) (missing : (k .missing).Yields fits)
    (stopped : ∀ v, v.Waits config → (k (.stopped v)).Yields fits) :
    (b.describe config answers desired >>= k).Yields fits := by
  rw [describeThen]
  refine Pass.yieldsSettle fun r => ?_
  match r with
  | .ok (some seen) => exact found seen
  | .ok none => exact missing
  | .error f => exact Pass.yieldsBind (f.waits config) stopped

theorem waitsReconcile : (b.reconcile config answers desired).Yields (WaitsAfter config) :=
  b.waitsDescribe config answers desired (fun seen => b.waitsRemediate config answers desired seen)
    (b.waitsCreate config answers desired) fun _ waits => Pass.yieldsPure waits

theorem waitsDelete : (b.delete config answers desired observed).Yields (Verdict.Waits config) := by
  unfold delete
  dsimp only
  split
  · exact Pass.yieldsPure (Verdict.waitsBackoff _)
  · refine Pass.yieldsSettle fun r => ?_
    cases r with
    | ok _ => exact Pass.yieldsPure (Verdict.waitsBackoff _)
    | error f => exact f.waits config

theorem waitsFinalize : (b.finalize config answers desired).Yields (Verdict.Waits config) :=
  b.waitsDescribe config answers desired (fun seen => b.waitsDelete config answers desired seen)
    (Pass.yieldsPure (Verdict.waitsNever nofun)) fun _ waits => Pass.yieldsPure waits

end

inductive Returns (answers : Answers σ) (desired : Desired σ) : Verdict → Prop where
  | remediated {observed r} (ok : (b.remediate config answers desired observed).result = .ok r) : Returns _ _ r.verdict
  | reconciled {r} (ok : (b.reconcile config answers desired).result = .ok r) : Returns _ _ r.verdict
  | finalized {v} (ok : (b.finalize config answers desired).result = .ok v) : Returns _ _ v

/- An environment that loads never has the next pass follow at once. Only a final failure has none. -/
theorem neverAtOnce {env : String → Option String} (loaded : Config.ofEnv env = .ok config) {answers : Answers σ}
    {desired : Desired σ} {v : Verdict} (returned : b.Returns config answers desired v) :
    (v.action config = .awaitChange ↔ ∃ reason, v = .terminal reason) ∧
      ∀ after, v.action config = .requeue after → after ∈ config.pauses ∧ 1 ≤ after.seconds := by
  have waits : v.Waits config := by
    cases returned with
    | remediated ok => exact b.waitsRemediate config answers desired _ _ ok
    | reconciled ok => exact b.waitsReconcile config answers desired _ ok
    | finalized ok => exact b.waitsFinalize config answers desired _ ok
  refine ⟨?_, fun after asked => ?_⟩
  · cases v <;> simp [Verdict.action]
  · have listed := Verdict.actionPauses waits after asked
    exact ⟨listed, Config.pausesPositive (Config.ofEnvValid loaded) after listed⟩

theorem pauseRead :
    let env (key : String) : Option String := if key = Config.waitBackoffKey then some " +7 " else none
    let config : Config := { Config.default with waitBackoffSecs := 7 }
    let spec : Addon.Spec := { name := "coredns", clusterName := "main" }
    let answers : Answers Addon.Spec :=
      ⟨.ok (some ⟨spec, some "ACTIVE", none, none⟩), .ok none, fun _ => none, none, .ok .empty, none, none⟩
    let v : Verdict := .wait "Addon deletion requested" (.ofSeconds 7)
    Config.ofEnv env = .ok config ∧ Addon.binding.Returns config answers ⟨spec, .empty, none⟩ v ∧
      v.action config = .requeue (.ofSeconds 7) ∧ Delay.ofSeconds 7 ∈ config.pauses ∧
        1 ≤ (Delay.ofSeconds 7).seconds := by
  intro env config spec answers v
  have loaded : Config.ofEnv env = .ok config := by rfl
  have returned : Addon.binding.Returns config answers ⟨spec, .empty, none⟩ v := .finalized rfl
  exact ⟨loaded, returned, rfl, (Addon.binding.neverAtOnce config loaded returned).2 _ rfl⟩

end Binding
end DesiredState
