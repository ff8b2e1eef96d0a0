import DesiredState.Kinds.Addon
import DesiredState.Proofs.Runs
import DesiredState.Proofs.SingleCategory

/-!
A resource is created once. A host hands each pass the identity that the pass before it left; with an identity
recorded nothing is created, however long the remote does not show the resource. -/
namespace DesiredState

def Call.changes {σ υ : Type} (c : Call σ υ) : Bool := c.touchesTags || c.isUpdate

def Pass.creates {σ υ ε α : Type} (p : Pass σ υ ε α) : Bool := p.attempts.any fun a => a.call.isCreate

theorem Pass.createsNothing {σ υ ε α : Type} {p : Pass σ υ ε α} (only : p.Only Call.changes) : p.creates = false := by
  unfold creates
  rw [List.any_eq_false]
  intro a member made
  have changes := only a member
  cases call : a.call <;> simp [call, Call.isCreate, Call.changes, Call.touchesTags, Call.isUpdate] at made changes

namespace Binding
variable {σ υ : Type} (b : Binding σ υ) (config : Config)

section
variable (answers : Answers σ) (desired : Desired σ)

theorem onlySend (id : ResourceId) (n : Nat) (us : List υ) : (b.sendFrom answers id n us).Only Call.isUpdate := by
  induction us generalizing n with
  | nil => exact Pass.onlySilent rfl
  | cons u rest ih =>
    unfold sendFrom
    refine Pass.onlyBind (Pass.onlySettle (Pass.onlyAsk rfl _ _ _)) fun sent => ?_
    split
    · exact ih (n + 1)
    · split
      · exact ih (n + 1)
      · exact Pass.onlySilent rfl

theorem onlyApplyFirst (observed : Observed σ) (δ : Delta) :
    (b.applyFirst config answers desired observed δ).Only Call.isUpdate := by
  unfold applyFirst
  split
  · exact Pass.onlySilent rfl
  · exact Pass.onlySilent rfl
  · refine Pass.onlyBind (Pass.onlySettle (b.onlySend answers _ 0 _)) fun sent => ?_
    split
    · exact Pass.onlySilent rfl
    · exact Pass.onlyReturn _ (Pass.onlySilent rfl)

theorem onlyRemediate (observed : Observed σ) :
    (b.remediate config answers desired observed).Only Call.changes := by
  have tags (c : Call σ υ) (here : c.touchesTags = true) : c.changes = true := by simp [Call.changes, here]
  have updates (c : Call σ υ) (here : c.isUpdate = true) : c.changes = true := by simp [Call.changes, here]
  unfold remediate
  split
  · exact Pass.onlySilent rfl
  · refine Pass.onlyBind (Pass.onlySettle (Pass.onlyWeaker tags (b.onlySyncTags answers desired observed)))
      fun synced => ?_
    split
    · exact Pass.onlyReturn _ (Pass.onlySilent rfl)
    · exact Pass.onlyReturn _ (Pass.onlyWeaker updates (b.onlyApplyFirst config answers desired observed _))

theorem createsKnown {arn : String} (known : desired.knownArn = some arn) :
    (b.create config answers desired).attempts = [] ∧
      ∀ r, (b.create config answers desired).result = .ok r → r.resource.arn = some arn := by
  unfold create
  rw [if_pos (by rw [known]; rfl)]
  refine ⟨rfl, fun r ok => ?_⟩
  cases ok
  exact known

theorem createsUnknown (unknown : desired.knownArn = none) :
    (b.create config answers desired).creates = true ∧
      ∀ arn, answers.create = .ok arn →
        ∃ r, (b.create config answers desired).result = .ok r ∧ r.resource.arn = arn := by
  unfold create
  rw [if_neg (by rw [unknown]; exact Bool.false_ne_true)]
  cases answered : answers.create with
  | ok arn =>
    refine ⟨rfl, fun a same => ?_⟩
    cases same
    refine ⟨_, rfl, ?_⟩
    change arn.or desired.knownArn = arn
    rw [unknown, Option.or_none]
  | error f =>
    refine ⟨?_, fun a same => by cases same⟩
    unfold Pass.creates Pass.ask
    cases CallFailure.verdict ⟨b.operations.create, f⟩ config <;> rfl

end

section
variable (desired : Desired σ)

def passKnowing (known : Option String) (answers : Answers σ) : Pass σ υ Fault (Remediation σ) :=
  b.reconcile config answers { desired with knownArn := known }

/- What the host holds after a pass: the identity in its outcome. A failed pass leaves what was held. -/
def recorded (known : Option String) (answers : Answers σ) : Option String :=
  match (b.passKnowing config desired known answers).result with
  | .ok r => r.resource.arn
  | .error _ => known

theorem recordedOk {known : Option String} {answers : Answers σ} {r : Remediation σ}
    (ok : (b.passKnowing config desired known answers).result = .ok r) :
    b.recorded config desired known answers = r.resource.arn := by
  unfold recorded
  rw [ok]

theorem createsIff (known : Option String) (answers : Answers σ) :
    (b.passKnowing config desired known answers).creates = true ↔ known = none ∧ answers.describe = .ok none := by
  unfold passKnowing Pass.creates
  cases described : answers.describe with
  | error f =>
    rw [(b.reconcileStopped config answers _ described).1]
    simp [Call.isCreate]
  | ok found =>
    cases found with
    | some seen =>
      have nothing := Pass.createsNothing (b.onlyRemediate config answers { desired with knownArn := known } seen)
      rw [(b.reconcileFound config answers _ described).1, List.any_cons]
      unfold Pass.creates at nothing
      rw [nothing]
      simp [Call.isCreate]
    | none =>
      rw [(b.reconcileMissing config answers _ described).1, List.any_cons]
      cases known with
      | some arn =>
        rw [(b.createsKnown config answers { desired with knownArn := some arn } rfl).1]
        simp [Call.isCreate]
      | none =>
        have created := (b.createsUnknown config answers { desired with knownArn := none } rfl).1
        unfold Pass.creates at created
        rw [created]
        simp

theorem recordedKept {known : Option String} (held : known.isSome = true) (answers : Answers σ) :
    (b.recorded config desired known answers).isSome = true := by
  cases finished : (b.passKnowing config desired known answers).result with
  | error e =>
    unfold recorded
    rw [finished]
    exact held
  | ok r =>
    rw [b.recordedOk config desired finished]
    unfold passKnowing at finished
    cases described : answers.describe with
    | error f =>
      rw [(b.reconcileStopped config answers _ described).2] at finished
      cases verdict : CallFailure.verdict ⟨b.operations.describe, f⟩ config with
      | ok v => rw [verdict] at finished; cases finished; exact held
      | error e => rw [verdict] at finished; cases finished
    | ok found =>
      cases found with
      | some seen =>
        rw [(b.reconcileFound config answers _ described).2] at finished
        obtain ⟨v, δ, tags, rfl⟩ := b.concludesRemediate config answers _ seen r finished
        change (seen.arn.or known).isSome = true
        rw [Option.isSome_or, held, Bool.or_true]
      | none =>
        obtain ⟨arn, rfl⟩ := Option.isSome_iff_exists.mp held
        rw [(b.reconcileMissing config answers _ described).2] at finished
        rw [(b.createsKnown config answers { desired with knownArn := some arn } rfl).2 r finished]
        rfl

theorem recordedCreated {known : Option String} {answers : Answers σ}
    (creates : (b.passKnowing config desired known answers).creates = true) {arn : Option String}
    (answered : answers.create = .ok arn) : b.recorded config desired known answers = arn := by
  obtain ⟨rfl, missing⟩ := (b.createsIff config desired known answers).mp creates
  obtain ⟨r, ok, same⟩ := (b.createsUnknown config answers { desired with knownArn := none } rfl).2 arn answered
  rw [b.recordedOk config desired ((b.reconcileMissing config answers _ missing).2.trans ok), same]

theorem recordedForGood {known : Option String} (held : known.isSome = true) (rounds : List (Answers σ)) :
    (rounds.foldl (b.recorded config desired) known).isSome = true ∧
      Throughout (b.recorded config desired)
        (fun known answers => (b.passKnowing config desired known answers).creates = false) known rounds := by
  induction rounds generalizing known with
  | nil => exact ⟨held, throughoutNil⟩
  | cons answers rounds ih =>
    obtain ⟨last, silent⟩ := ih (b.recordedKept config desired held answers)
    refine ⟨last, throughoutCons.mpr ⟨?_, silent⟩⟩
    rw [← Bool.not_eq_true, b.createsIff]
    rintro ⟨rfl, _⟩
    cases held

/- From any start, over any answers: an identity once recorded stays recorded, and after a creation that returned
one no pass creates anything. -/
theorem createdOnce (start : Option String) (earlier : List (Answers σ)) :
    let held := earlier.foldl (b.recorded config desired) start
    (∀ later : List (Answers σ),
      held.isSome = true → (later.foldl (b.recorded config desired) held).isSome = true) ∧
    ∀ (answers : Answers σ) (arn : String) (later : List (Answers σ)),
      (b.passKnowing config desired held answers).creates = true → answers.create = .ok (some arn) →
        b.recorded config desired held answers = some arn ∧
        Throughout (b.recorded config desired)
          (fun known next => (b.passKnowing config desired known next).creates = false) (some arn) later := by
  intro held
  refine ⟨fun later set => (b.recordedForGood config desired set later).1, ?_⟩
  intro answers arn later creates answered
  exact ⟨b.recordedCreated config desired creates answered, (b.recordedForGood config desired rfl later).2⟩

end

theorem laggingAddonCreatedOnce :
    let answers : Answers Addon.Spec :=
      ⟨.ok none, .ok (some "arn"), fun _ => none, none, .ok .empty, none, none⟩
    let desired : Desired Addon.Spec := ⟨{ name := "coredns", clusterName := "main" }, .empty, none⟩
    (Addon.binding.passKnowing .default desired none answers).creates = true ∧
      (Addon.binding.passKnowing .default desired (some "arn") answers).creates = false := by
  intro answers desired
  have first : (Addon.binding.passKnowing .default desired none answers).creates = true :=
    (Addon.binding.createsIff .default desired none answers).mpr ⟨rfl, rfl⟩
  have after := ((Addon.binding.createdOnce .default desired none []).2 answers "arn" [answers] first rfl).2
  exact ⟨first, (throughoutCons.mp after).1⟩

end Binding
end DesiredState
