import DesiredState.Proofs.Updates

/-!
At most one category of updates in a pass. The groups of a kind are asked in order; the first one that
the delta touches and that does not skip decides the verdict, and nothing of any other group is sent. -/
namespace DesiredState

namespace Binding
variable {σ υ : Type}

inductive Decides (input : PlanInput σ) : List (UpdateGroup σ υ) → UpdateGroup σ υ → Prop where
  | here {g rest} (touched : g.matches input.delta = true) (acts : g.plan input ≠ .skip) :
      Decides input (g :: rest) g
  | later {g rest h} (idle : g.matches input.delta = true → g.plan input = .skip)
      (next : Decides input rest h) : Decides input (g :: rest) h

def Idle (input : PlanInput σ) (groups : List (UpdateGroup σ υ)) : Prop :=
  ∀ g ∈ groups, g.matches input.delta = true → g.plan input = .skip

theorem idleOrDecided (input : PlanInput σ) (groups : List (UpdateGroup σ υ)) :
    Idle input groups ∨ ∃ g, Decides input groups g := by
  induction groups with
  | nil => exact .inl (by simp [Idle])
  | cons g rest ih =>
    by_cases idle : g.matches input.delta = true → g.plan input = .skip
    · rcases ih with all | ⟨h, decides⟩
      · exact .inl (List.forall_mem_cons.mpr ⟨idle, all⟩)
      · exact .inr ⟨h, .later idle decides⟩
    · obtain ⟨touched, acts⟩ := Classical.not_imp.mp idle
      exact .inr ⟨g, .here touched acts⟩

theorem firstPlanIdle {input : PlanInput σ} {groups : List (UpdateGroup σ υ)} (idle : Idle input groups) :
    firstPlan groups input = .nothing := by
  induction groups with
  | nil => rfl
  | cons g rest ih =>
    obtain ⟨here, later⟩ := List.forall_mem_cons.mp idle
    unfold firstPlan
    split
    · rename_i touched
      rw [here touched]
      exact ih later
    · exact ih later

theorem firstPlanDecided {input : PlanInput σ} {groups : List (UpdateGroup σ υ)} {g : UpdateGroup σ υ}
    (decides : Decides input groups g) :
    firstPlan groups input =
      match g.plan input with
      | .skip => .nothing
      | .terminal reason => .refuse reason
      | .calls updates => .send g.category updates := by
  induction decides with
  | here touched acts =>
    unfold firstPlan
    rw [if_pos touched]
    split <;> simp_all
  | later idle next ih =>
    unfold firstPlan
    split
    · rename_i touched
      rw [idle touched]
      exact ih
    · exact ih

end Binding

def Pass.verdict? {σ υ ε : Type} (p : Pass σ υ ε (Remediation σ)) : Option Verdict :=
  p.result.toOption.map Remediation.verdict

theorem failureUnfinished {f : CallFailure} {config : Config} {v : Verdict} (ok : f.verdict config = .ok v) :
    v.isApplied = false ∧ v ≠ .converged := by
  unfold CallFailure.verdict at ok
  split at ok
  · cases ok; exact ⟨rfl, nofun⟩
  · cases ok; exact ⟨rfl, nofun⟩
  · cases ok

namespace Binding
variable {σ υ : Type}

def input (b : Binding σ υ) (desired : Desired σ) (observed : σ) : PlanInput σ :=
  ⟨desired.spec, observed, b.delta desired observed, desired.annotations⟩

section
variable (b : Binding σ υ) (config : Config) (answers : Answers σ) (desired : Desired σ) (observed : Observed σ)

theorem applyFirstNothing {δ : Delta}
    (chosen : b.choice ⟨desired.spec, observed.spec, δ, desired.annotations⟩ = .nothing) :
    b.applyFirst config answers desired observed δ = pure (b.conclude desired observed .converged δ) := by
  unfold applyFirst
  rw [chosen]

theorem applyFirstRefuse {δ : Delta} {reason : String}
    (chosen : b.choice ⟨desired.spec, observed.spec, δ, desired.annotations⟩ = .refuse reason) :
    b.applyFirst config answers desired observed δ = pure (b.conclude desired observed (.terminal reason) δ) := by
  unfold applyFirst
  rw [chosen]

section
variable {δ : Delta} {category : String} {calls : List υ}
  (chosen : b.choice ⟨desired.spec, observed.spec, δ, desired.annotations⟩ = .send category calls)
include chosen

theorem updatesOfSend : (b.applyFirst config answers desired observed δ).updates =
    (b.sendFrom answers (b.resourceId desired.spec) 0 calls).updates := by
  unfold applyFirst
  rw [chosen]
  dsimp only
  rw [Pass.updatesSettle]
  cases (b.sendFrom answers (b.resourceId desired.spec) 0 calls).result with
  | ok _ => exact List.append_nil _
  | error f =>
    dsimp only
    rw [Pass.updatesReturn]
    exact List.append_nil _

theorem verdictOfSend : (b.applyFirst config answers desired observed δ).verdict? =
    match (b.sendFrom answers (b.resourceId desired.spec) 0 calls).result with
    | .ok _ => some (.applied category)
    | .error f => (f.verdict config).toOption := by
  unfold applyFirst Pass.verdict?
  rw [chosen]
  dsimp only
  rw [Pass.resultSettle]
  cases (b.sendFrom answers (b.resourceId desired.spec) 0 calls).result with
  | ok _ => rfl
  | error f =>
    dsimp only
    rw [Pass.resultReturn]
    cases h : f.verdict config <;> simp [Pass.ofExcept, Except.map, Except.toOption, conclude]

theorem applyFirstSend :
    let p := b.applyFirst config answers desired observed δ
    (∃ result, b.Sending (answers.answered 0 calls) p.updates result) ∧
      ∀ c, p.verdict? = some (.applied c) ↔
        c = category ∧ p.updates = answers.answered 0 calls ∧ ∀ e ∈ p.updates, b.accepts e = true := by
  have sending := b.sendFromSending answers (b.resourceId desired.spec) 0 calls
  dsimp only
  rw [b.updatesOfSend config answers desired observed chosen, b.verdictOfSend config answers desired observed chosen]
  refine ⟨⟨_, sending⟩, fun c => ?_⟩
  rw [← sending.okIff]
  cases (b.sendFrom answers (b.resourceId desired.spec) 0 calls).result with
  | ok _ => simp [eq_comm]
  | error f =>
    -- No failure is an applied verdict, so both sides are false.
    cases h : f.verdict config with
    | ok v =>
      have different := (failureUnfinished h).1
      cases v <;> simp_all [Except.toOption, Verdict.isApplied]
    | error e => simp [h, Except.toOption]

end

def afterTags : Except TagFault (Option StringMap) → Pass σ υ Fault (Remediation σ)
  | .error f => do return b.conclude desired observed (← .ofExcept (f.verdict config)) .empty
  | .ok synced => do
    let r ← b.applyFirst config answers desired observed (b.delta desired observed.spec)
    return { r with resource := { r.resource with tags := synced.or r.resource.tags } }

theorem remediateActive (here : b.inactive? config observed.status = none) :
    b.remediate config answers desired observed =
      (b.syncTags answers desired observed).settle >>= b.afterTags config answers desired observed := by
  unfold remediate
  rw [here]
  rfl

theorem remediateSynced (here : b.inactive? config observed.status = none) {synced : Option StringMap}
    (tagged : (b.syncTags answers desired observed).result = .ok synced) :
    let pass := b.remediate config answers desired observed
    let rest := b.applyFirst config answers desired observed (b.delta desired observed.spec)
    pass.updates = rest.updates ∧ pass.verdict? = rest.verdict? := by
  dsimp only
  rw [b.remediateActive config answers desired observed here]
  constructor
  · rw [Pass.updatesSettle, tagged, noUpdatesSyncTags]
    exact Pass.updatesReturn _ _
  · unfold Pass.verdict?
    rw [Pass.resultSettle, tagged, afterTags, Pass.resultReturn]
    cases (b.applyFirst config answers desired observed (b.delta desired observed.spec)).result <;> rfl

theorem remediateUnsynced (here : b.inactive? config observed.status = none) {f : TagFault}
    (untagged : (b.syncTags answers desired observed).result = .error f) :
    (b.remediate config answers desired observed).updates = [] := by
  rw [b.remediateActive config answers desired observed here, Pass.updatesSettle, untagged, noUpdatesSyncTags]
  exact Pass.updatesReturn _ _

/- Whatever happens, the outcome is packed in one way; only its tags may be replaced afterwards. -/
def Concludes (p : Pass σ υ Fault (Remediation σ)) : Prop :=
  ∀ r, p.result = .ok r → ∃ v δ tags,
    r = ⟨v, δ, { desired.merge observed (b.asyncUpdates && v.isApplied) with tags := tags }⟩

theorem concludesPure (v : Verdict) (δ : Delta) :
    b.Concludes desired observed (pure (b.conclude desired observed v δ)) := by
  intro r ok
  cases ok
  exact ⟨v, δ, _, rfl⟩

theorem concludesFailure (failed : Except Fault Verdict) (δ : Delta) :
    b.Concludes desired observed (do return b.conclude desired observed (← .ofExcept failed) δ) := by
  cases failed with
  | ok v => exact b.concludesPure desired observed v δ
  | error e => intro r ok; cases ok

theorem concludesApplyFirst (δ : Delta) :
    b.Concludes desired observed (b.applyFirst config answers desired observed δ) := by
  unfold applyFirst
  split
  · exact b.concludesPure desired observed _ δ
  · exact b.concludesPure desired observed _ δ
  · intro r ok
    rw [Pass.resultSettle] at ok
    split at ok
    · exact b.concludesPure desired observed _ δ r ok
    · exact b.concludesFailure desired observed _ δ r ok

theorem concludesRemediate : b.Concludes desired observed (b.remediate config answers desired observed) := by
  unfold remediate
  split
  · exact b.concludesPure desired observed _ .empty
  · intro r ok
    rw [Pass.resultSettle] at ok
    split at ok
    · exact b.concludesFailure desired observed _ .empty r ok
    · rw [Pass.resultReturn] at ok
      cases h : (b.applyFirst config answers desired observed (b.delta desired observed.spec)).result with
      | ok inner =>
        rw [h] at ok
        cases ok
        obtain ⟨v, δ, tags, rfl⟩ := b.concludesApplyFirst config answers desired observed _ inner h
        exact ⟨v, δ, _, rfl⟩
      | error e => rw [h] at ok; cases ok

theorem reportsRemediate (r : Remediation σ) (ok : (b.remediate config answers desired observed).result = .ok r) :
    r.resource.status =
      if b.asyncUpdates && r.verdict.isApplied then some Phase.updating.text else observed.status := by
  obtain ⟨v, δ, tags, rfl⟩ := b.concludesRemediate config answers desired observed r ok
  rfl

theorem activeHere (active : StatusRules.isActive ((b.rules config).classify observed.status) = true) :
    b.inactive? config observed.status = none ∧ observed.status ≠ some Phase.updating.text := by
  have phase : (b.rules config).classify observed.status = some .active := by
    simpa [StatusRules.isActive] using active
  constructor
  · unfold inactive?
    rw [phase]
    rfl
  · intro updating
    have parsed : Phase.parse Phase.updating.text = .updating := by decide
    have shown : Phase.updating.text.isEmpty = false := by decide
    rw [updating] at phase
    simp [StatusRules.classify, shown, parsed] at phase

theorem Decides.acts {input : PlanInput σ} {groups : List (UpdateGroup σ υ)} {g : UpdateGroup σ υ}
    (decides : Decides input groups g) : g.plan input ≠ .skip := by
  induction decides with
  | here _ acts => exact acts
  | later _ _ ih => exact ih

theorem Decides.touched {input : PlanInput σ} {groups : List (UpdateGroup σ υ)} {g : UpdateGroup σ υ}
    (decides : Decides input groups g) : g.matches input.delta = true := by
  induction decides with
  | here touched _ => exact touched
  | later _ _ ih => exact ih

theorem Decides.listed {input : PlanInput σ} {groups : List (UpdateGroup σ υ)} {g : UpdateGroup σ υ}
    (decides : Decides input groups g) : g ∈ groups := by
  induction decides with
  | here _ _ => exact List.mem_cons_self
  | later _ _ ih => exact List.mem_cons_of_mem _ ih

theorem choiceOfGroups {b : Binding σ υ} {input : PlanInput σ} (differs : input.delta.isEmpty = false)
    (admitted : b.rejects input = none) : b.choice input = firstPlan b.groups input := by
  unfold choice
  rw [differs, admitted]
  rfl

theorem sendAdmits {b : Binding σ υ} {input : PlanInput σ} {category : String} {calls : List υ}
    (chosen : b.choice input = .send category calls) : input.delta.isEmpty = false ∧ b.rejects input = none := by
  unfold choice at chosen
  split at chosen
  · cases chosen
  · rename_i differs
    split at chosen
    · cases chosen
    · rename_i admitted
      exact ⟨Bool.eq_false_iff.mpr differs, admitted⟩

theorem choiceSend {b : Binding σ υ} {input : PlanInput σ} {category : String} {calls : List υ}
    (chosen : b.choice input = .send category calls) :
    ∃ g, Decides input b.groups g ∧ g.category = category ∧ g.plan input = .calls calls := by
  obtain ⟨differs, admitted⟩ := sendAdmits chosen
  rw [choiceOfGroups differs admitted] at chosen
  rcases idleOrDecided input b.groups with idle | ⟨g, decides⟩
  · rw [firstPlanIdle idle] at chosen
    cases chosen
  · rw [firstPlanDecided decides] at chosen
    split at chosen
    · cases chosen
    · cases chosen
    · rename_i plan
      cases chosen
      exact ⟨g, decides, rfl, plan⟩

theorem choiceNothing {b : Binding σ υ} {input : PlanInput σ} (differs : input.delta.isEmpty = false)
    (chosen : b.choice input = .nothing) : b.rejects input = none ∧ Idle input b.groups := by
  cases refused : b.rejects input with
  | some reason =>
    unfold choice at chosen
    rw [differs, refused] at chosen
    cases chosen
  | none =>
    rw [choiceOfGroups differs refused] at chosen
    rcases idleOrDecided input b.groups with idle | ⟨g, decides⟩
    · exact ⟨rfl, idle⟩
    · rw [firstPlanDecided decides] at chosen
      have acts := decides.acts
      cases plan : g.plan input with
      | skip => exact absurd plan acts
      | terminal reason => rw [plan] at chosen; cases chosen
      | calls updates => rw [plan] at chosen; cases chosen

theorem choiceAdmitted {b : Binding σ υ} {input : PlanInput σ} (admitted : b.rejects input = none) :
    b.choice input = firstPlan b.groups input := by
  cases differs : input.delta.isEmpty with
  | false => exact choiceOfGroups differs admitted
  | true =>
    have none' : input.delta.differences = [] := List.isEmpty_iff.mp differs
    have idle : Idle input b.groups := by
      intro g _ touched
      simp [UpdateGroup.matches, Delta.differsAt, none'] at touched
    rw [firstPlanIdle idle]
    exact if_pos differs

theorem passOfChoice (here : b.inactive? config observed.status = none) {synced : Option StringMap}
    (tagged : (b.syncTags answers desired observed).result = .ok synced) :
    let pass := b.remediate config answers desired observed
    match b.choice (b.input desired observed.spec) with
    | .nothing => pass.verdict? = some .converged ∧ pass.updates = []
    | .refuse reason => pass.verdict? = some (.terminal reason) ∧ pass.updates = []
    | .send category calls =>
      (∃ result, b.Sending (answers.answered 0 calls) pass.updates result) ∧
        ∀ c, pass.verdict? = some (.applied c) ↔
          c = category ∧ pass.updates = answers.answered 0 calls ∧ ∀ e ∈ pass.updates, b.accepts e = true := by
  dsimp only
  obtain ⟨updates, verdict⟩ := b.remediateSynced config answers desired observed here tagged
  rw [updates, verdict]
  cases chosen : b.choice (b.input desired observed.spec) with
  | nothing =>
    rw [b.applyFirstNothing config answers desired observed chosen]
    exact ⟨rfl, rfl⟩
  | refuse reason =>
    rw [b.applyFirstRefuse config answers desired observed chosen]
    exact ⟨rfl, rfl⟩
  | send category calls => exact b.applyFirstSend config answers desired observed chosen

theorem convergedIff (here : b.inactive? config observed.status = none) {synced : Option StringMap}
    (tagged : (b.syncTags answers desired observed).result = .ok synced) :
    (b.remediate config answers desired observed).verdict? = some .converged ↔
      b.choice (b.input desired observed.spec) = .nothing := by
  rw [(b.remediateSynced config answers desired observed here tagged).2]
  cases chosen : b.choice (b.input desired observed.spec) with
  | nothing =>
    rw [b.applyFirstNothing config answers desired observed chosen]
    exact iff_of_true rfl rfl
  | refuse reason =>
    rw [b.applyFirstRefuse config answers desired observed chosen]
    exact iff_of_false nofun nofun
  | send category calls =>
    rw [b.verdictOfSend config answers desired observed chosen]
    refine iff_of_false ?_ nofun
    split
    · nofun
    · rename_i f _
      cases failed : f.verdict config with
      | ok v => simpa [Except.toOption] using (failureUnfinished failed).2
      | error e => nofun

theorem syncSettledTags (settled : observed.tags = some ((b.tags desired.spec).getD .empty)) :
    b.syncTags answers desired observed = pure none := by
  unfold syncTags
  exact if_pos settled

theorem remediateSettled (here : b.inactive? config observed.status = none)
    (settled : observed.tags = some ((b.tags desired.spec).getD .empty)) :
    b.remediate config answers desired observed =
      b.applyFirst config answers desired observed (b.delta desired observed.spec) := by
  have kept : (b.afterTags config answers desired observed (.ok none)) =
      b.applyFirst config answers desired observed (b.delta desired observed.spec) := by
    unfold afterTags
    dsimp only
    rw [Pass.returned]
    generalize b.applyFirst config answers desired observed (b.delta desired observed.spec) = p
    obtain ⟨attempts, metrics, result⟩ := p
    cases result <;> rfl
  rw [b.remediateActive config answers desired observed here, syncSettledTags b answers desired observed settled]
  exact kept

theorem applyFirstAnswered {δ : Delta} {category : String} {u : υ}
    (chosen : b.choice ⟨desired.spec, observed.spec, δ, desired.annotations⟩ = .send category [u])
    (answered : answers.update 0 = none) :
    b.applyFirst config answers desired observed δ =
      ⟨[⟨.update (b.resourceId desired.spec) u, none⟩], [.ofCall .update (b.operation u) none],
        .ok (b.conclude desired observed (.applied category) δ)⟩ := by
  have sent : b.sendFrom answers (b.resourceId desired.spec) 0 [u] =
      ⟨[⟨.update (b.resourceId desired.spec) u, none⟩], [.ofCall .update (b.operation u) none], .ok ()⟩ := by
    unfold sendFrom
    rw [answered]
    rfl
  unfold applyFirst
  rw [chosen]
  dsimp only
  rw [sent]
  rfl

theorem silentPass (here : b.inactive? config observed.status = none)
    (settled : observed.tags = some ((b.tags desired.spec).getD .empty))
    (chosen : b.choice (b.input desired observed.spec) = .nothing) :
    (b.remediate config answers desired observed).attempts = [] := by
  rw [b.remediateSettled config answers desired observed here settled,
    b.applyFirstNothing config answers desired observed chosen]
  rfl

theorem sentOfOneGroup :
    let pass := b.remediate config answers desired observed
    let input := b.input desired observed.spec
    pass.sent = [] ∨ ∃ g calls, Decides input b.groups g ∧ g.plan input = .calls calls ∧ pass.sent <+: calls := by
  dsimp only
  unfold Pass.sent
  cases here : b.inactive? config observed.status with
  | some v =>
    left
    unfold remediate
    rw [here]
    rfl
  | none =>
    cases tagged : (b.syncTags answers desired observed).result with
    | error f => exact .inl (by rw [b.remediateUnsynced config answers desired observed here tagged]; rfl)
    | ok synced =>
      have outcome := b.passOfChoice config answers desired observed here tagged
      cases chosen : b.choice (b.input desired observed.spec) with
      | nothing => rw [chosen] at outcome; exact .inl (by rw [outcome.2]; rfl)
      | refuse reason => rw [chosen] at outcome; exact .inl (by rw [outcome.2]; rfl)
      | send category calls =>
        rw [chosen] at outcome
        obtain ⟨g, decides, _, plan⟩ := choiceSend chosen
        obtain ⟨_, sending⟩ := outcome.1
        have issued := sending.isPrefix.map Prod.fst
        rw [Answers.answeredUpdates] at issued
        exact .inr ⟨g, calls, decides, plan, issued⟩

theorem reconciledSent (found : answers.describe = .ok (some observed)) :
    (b.reconcile config answers desired).sent = (b.remediate config answers desired observed).sent := by
  unfold Pass.sent Pass.updates
  rw [(b.reconcileFound config answers desired found).1]
  rfl

def Issues (u : υ) : Prop :=
  u ∈ (b.remediate config answers desired observed).sent ∨
    (answers.describe = .ok (some observed) ∧ u ∈ (b.reconcile config answers desired).sent)

theorem issuedOnce {Planned : PlanInput σ → υ → Prop}
    (once : ∀ g ∈ b.groups, ∀ input calls, g.plan input = .calls calls → ∃ u, calls = [u] ∧ Planned input u) {u : υ}
    (issued : b.Issues config answers desired observed u) : Planned (b.input desired observed.spec) u := by
  have sent : u ∈ (b.remediate config answers desired observed).sent := by
    rcases issued with sent | ⟨found, sent⟩
    · exact sent
    · exact b.reconciledSent config answers desired observed found ▸ sent
  rcases b.sentOfOneGroup config answers desired observed with nothing | ⟨g, calls, decides, plan, front⟩
  · rw [nothing] at sent
    cases sent
  · obtain ⟨u', rfl, planned⟩ := once g decides.listed _ calls plan
    exact List.mem_singleton.mp (front.subset sent) ▸ planned

theorem appliedIff (here : b.inactive? config observed.status = none) {synced : Option StringMap}
    (tagged : (b.syncTags answers desired observed).result = .ok synced)
    (differs : (b.input desired observed.spec).delta.isEmpty = false)
    (admitted : b.rejects (b.input desired observed.spec) = none) (category : String) :
    let pass := b.remediate config answers desired observed
    let input := b.input desired observed.spec
    pass.verdict? = some (.applied category) ↔
      ∃ g calls, Decides input b.groups g ∧ g.category = category ∧ g.plan input = .calls calls ∧
        pass.updates = answers.answered 0 calls ∧ ∀ e ∈ pass.updates, b.accepts e = true := by
  intro pass input
  have outcome := b.passOfChoice config answers desired observed here tagged
  rw [choiceOfGroups differs admitted] at outcome
  constructor
  · intro applied
    rcases idleOrDecided input b.groups with idle | ⟨g, decides⟩
    · rw [firstPlanIdle idle] at outcome
      cases outcome.1.symm.trans applied
    · rw [firstPlanDecided decides] at outcome
      cases plan : g.plan input with
      | skip => rw [plan] at outcome; cases outcome.1.symm.trans applied
      | terminal reason => rw [plan] at outcome; cases outcome.1.symm.trans applied
      | calls calls =>
        rw [plan] at outcome
        obtain ⟨same, all⟩ := (outcome.2 category).mp applied
        exact ⟨g, calls, decides, same.symm, plan, all⟩
  · rintro ⟨g, calls, decides, same, plan, all⟩
    rw [firstPlanDecided decides, plan] at outcome
    exact (outcome.2 category).mpr ⟨same.symm, all⟩

theorem unappliedInactive {v : Verdict} {status : Option String} (held : b.inactive? config status = some v) :
    v.isApplied = false := by
  unfold inactive? at held
  dsimp only at held
  repeat' split at held
  all_goals cases held
  all_goals rfl

theorem appliedSends {category : String}
    (applied : (b.remediate config answers desired observed).verdict? = some (.applied category)) :
    ∃ calls, b.choice (b.input desired observed.spec) = .send category calls ∧
      (b.remediate config answers desired observed).updates = answers.answered 0 calls ∧
      ∀ e ∈ (b.remediate config answers desired observed).updates, b.accepts e = true := by
  cases here : b.inactive? config observed.status with
  | some v =>
    have shown : v = .applied category := by
      unfold remediate Pass.verdict? at applied
      rw [here] at applied
      exact Option.some.inj applied
    have unapplied := b.unappliedInactive config here
    rw [shown] at unapplied
    cases unapplied
  | none =>
    cases tagged : (b.syncTags answers desired observed).result with
    | error f =>
      have unfinished : ∀ v, f.verdict config = .ok v → v.isApplied = false := by
        intro v failed
        cases f with
        | call f => exact (failureUnfinished failed).1
        | noArn fault => cases failed
      rw [b.remediateActive config answers desired observed here] at applied
      unfold Pass.verdict? at applied
      rw [Pass.resultSettle, tagged, afterTags, Pass.resultReturn] at applied
      change ((f.verdict config).map _).toOption.map Remediation.verdict = _ at applied
      cases failed : f.verdict config with
      | error e => rw [failed] at applied; cases applied
      | ok v =>
        rw [failed] at applied
        obtain rfl : v = .applied category := Option.some.inj applied
        cases unfinished _ failed
    | ok synced =>
      have outcome := b.passOfChoice config answers desired observed here tagged
      cases chosen : b.choice (b.input desired observed.spec) with
      | nothing => rw [chosen] at outcome; cases outcome.1.symm.trans applied
      | refuse reason => rw [chosen] at outcome; cases outcome.1.symm.trans applied
      | send category' calls =>
        rw [chosen] at outcome
        obtain ⟨rfl, sent⟩ := (outcome.2 category).mp applied
        exact ⟨calls, rfl, sent⟩

end

/- Every update of a pass belongs to the one group that decides it, and the verdict is what became of that
group. A delta that is empty, refused, or left to skipping groups sends nothing. -/
theorem oneCategoryPerPass (b : Binding σ υ) (config : Config) (answers : Answers σ) (desired : Desired σ)
    (observed : Observed σ) :
    let pass := b.remediate config answers desired observed
    let input := b.input desired observed.spec
    let active := StatusRules.isActive ((b.rules config).classify observed.status) = true
    (pass.sent = [] ∨
      ∃ g calls, Decides input b.groups g ∧ g.plan input = .calls calls ∧ pass.sent <+: calls) ∧
    (active → ∀ synced, (b.syncTags answers desired observed).result = .ok synced →
      (input.delta.isEmpty = true → pass.verdict? = some .converged ∧ pass.sent = []) ∧
      (input.delta.isEmpty = false →
        (∀ reason, b.rejects input = some reason →
          pass.verdict? = some (.terminal reason) ∧ pass.sent = []) ∧
        (b.rejects input = none →
          (Idle input b.groups → pass.verdict? = some .converged ∧ pass.sent = []) ∧
          (∀ g reason, Decides input b.groups g → g.plan input = .terminal reason →
            pass.verdict? = some (.terminal reason) ∧ pass.sent = []) ∧
          ∀ category, pass.verdict? = some (.applied category) ↔
            ∃ g calls, Decides input b.groups g ∧ g.category = category ∧ g.plan input = .calls calls ∧
              pass.updates = answers.answered 0 calls ∧ ∀ e ∈ pass.updates, b.accepts e = true))) ∧
    ∀ r, pass.result = .ok r →
      (r.resource.status =
        if b.asyncUpdates && r.verdict.isApplied then some "UPDATING" else observed.status) ∧
      (active → (r.resource.status = some "UPDATING" ↔
        b.asyncUpdates = true ∧ r.verdict.isApplied = true)) := by
  intro pass input active
  refine ⟨b.sentOfOneGroup config answers desired observed, ?_, ?_⟩
  · intro isActive synced tagged
    obtain ⟨here, _⟩ := b.activeHere config observed isActive
    have outcome := b.passOfChoice config answers desired observed here tagged
    have quiet {v : Verdict} (settled : pass.verdict? = some v ∧ pass.updates = []) :
        pass.verdict? = some v ∧ pass.sent = [] := ⟨settled.1, by unfold Pass.sent; rw [settled.2]; rfl⟩
    refine ⟨fun agreed => ?_, fun differs => ⟨fun reason refused => ?_, fun admitted => ?_⟩⟩
    · have chosen : b.choice input = .nothing := if_pos agreed
      rw [chosen] at outcome
      exact quiet outcome
    · have chosen : b.choice input = .refuse reason := by
        unfold choice
        rw [differs, refused]
        rfl
      rw [chosen] at outcome
      exact quiet outcome
    · rw [choiceOfGroups differs admitted] at outcome
      refine ⟨fun idle => ?_, fun g reason decides plan => ?_, fun category => ?_⟩
      · rw [firstPlanIdle idle] at outcome
        exact quiet outcome
      · rw [firstPlanDecided decides, plan] at outcome
        exact quiet outcome
      · exact b.appliedIff config answers desired observed here tagged differs admitted category
  · intro r ok
    have status := b.reportsRemediate config answers desired observed r ok
    refine ⟨status, fun isActive => ?_⟩
    obtain ⟨_, notUpdating⟩ := b.activeHere config observed isActive
    rw [status]
    split
    · rename_i moving
      simpa [Phase.text] using moving
    · rename_i settled
      have still : ¬(b.asyncUpdates = true ∧ r.verdict.isApplied = true) := by simpa using settled
      exact iff_of_false notUpdating still

end Binding
end DesiredState
