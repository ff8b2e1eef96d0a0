import DesiredState.Proofs.SizeOwnership
import DesiredState.Proofs.VersionSteps

/-!
Updates stay with their resource. A delta is admitted only if no identifying field differs, and every payload takes
these fields from the desired spec, so no update reaches a resource other than the one that was seen. -/
namespace DesiredState

structure Identifier (σ : Type) where
  path : String
  read : σ → String

def Identifier.row {σ : Type} (i : Identifier σ) : Field σ := .always i.path .whole fun s => .text (i.read s)

def identity {σ : Type} (identifiers : List (Identifier σ)) (s : σ) : List (String × String) :=
  identifiers.map fun i => (i.path, i.read s)

theorem FieldTable.identified {σ : Type} {t : FieldTable σ} {i : Identifier σ} (row : i.row ∈ t.fields) {d o : σ}
    {annotations : Annotations} (kept : t.keeps annotations i.path)
    (silent : (t.compute d o annotations).differsAt i.path = false) : i.read d = i.read o := by
  refine (Json.agreeText _ _).mp (Classical.not_not.mp fun apart => Bool.eq_false_iff.mp silent ?_)
  have differs : i.row.differs d o = true := (Field.differsWhole _ _ _).mpr ⟨fun both => (nomatch both.1), apart⟩
  have found : i.path ∈ (t.raw d o).paths :=
    memPathsRaw.mpr ⟨_, row, (Field.pathOfWhole (by exact nofun)).mpr ⟨rfl, differs⟩⟩
  exact Delta.differsAtIff.mpr ⟨_, memPathsComputed.mpr ⟨found, kept⟩, underSelf _⟩

namespace UpdateGroup
variable {σ υ : Type} {own : σ → List (String × String)} {target : υ → List (String × String)}

def Aims (own : σ → List (String × String)) (target : υ → List (String × String)) (g : UpdateGroup σ υ) : Prop :=
  ∀ input calls, g.plan input = .calls calls → ∀ u ∈ calls, target u = own input.desired

theorem Aims.once {category : String} {paths : List String} {plan : PlanInput σ → GroupPlan υ}
    (once : ∀ input calls, plan input = .calls calls → ∃ u, calls = [u] ∧ target u = own input.desired) :
    Aims own target ⟨category, paths, plan⟩ := by
  intro input calls planned
  obtain ⟨u, rfl, aimed⟩ := once input calls planned
  exact List.forall_mem_singleton.mpr aimed

theorem Aims.always {category : String} {paths : List String} {plan : PlanInput σ → GroupPlan υ}
    (always : ∀ input, ∃ u, plan input = .calls [u] ∧ target u = own input.desired) :
    Aims own target ⟨category, paths, plan⟩ := by
  refine once fun input calls planned => ?_
  obtain ⟨u, made, aimed⟩ := always input
  rw [made] at planned
  exact ⟨u, (GroupPlan.calls.inj planned).symm, aimed⟩

end UpdateGroup

namespace Binding
variable {σ υ : Type}

/- What each kind has to show: its identifying fields are compared, never change and make up the resource's name, and
each payload has them from the desired spec. -/
structure Targets (b : Binding σ υ) (identifiers : List (Identifier σ)) (target : υ → List (String × String)) :
    Prop where
  compared : identifiers.map Identifier.row <+: b.table.fields
  kept : ∀ i ∈ identifiers, ∀ annotations, b.table.keeps annotations i.path
  fixed : ∀ input, b.rejects input = none → ∀ i ∈ identifiers, input.delta.differsAt i.path = false
  resource : ∀ s s', identity identifiers s = identity identifiers s' → b.resourceId s = b.resourceId s'
  payload : ∀ g ∈ b.groups, ∀ input calls, g.plan input = .calls calls → ∀ u ∈ calls,
    target u = identity identifiers input.desired

theorem Targets.ofTable {b : Binding σ υ} {identifiers : List (Identifier σ)} {target : υ → List (String × String)}
    {immutable : List String} (compared : identifiers.map Identifier.row <+: b.table.fields)
    (unowned : ∀ h ∈ b.table.handovers, ∀ i ∈ identifiers, pathUnder i.path h.path = false)
    (rejects : ∀ input, b.rejects input = input.delta.immutableChanges? immutable)
    (listed : identifiers.map Identifier.path ⊆ immutable)
    (name : List String → ResourceId) (named : ∀ s, b.resourceId s = name (identifiers.map fun i => i.read s))
    (aims : ∀ g ∈ b.groups, g.Aims (identity identifiers) target) : b.Targets identifiers target where
  compared := compared
  kept i inside _ h owned _ := unowned h owned i inside
  fixed input admitted i inside := by
    rw [rejects] at admitted
    exact Delta.admittedIff.mp admitted i.path (listed (List.mem_map_of_mem inside))
  resource s s' same := by
    have reads : (identifiers.map fun i => i.read s) = identifiers.map fun i => i.read s' := by
      simpa [identity] using congrArg (List.map Prod.snd) same
    rw [named, named, reads]
  payload := aims

section
variable (b : Binding σ υ) (config : Config) (answers : Answers σ) (desired : Desired σ) (observed : Observed σ)

theorem sentAttempts (home : ResourceId) (n : Nat) (us : List υ) :
    ∀ a ∈ (b.sendFrom answers home n us).attempts, ∃ u ∈ us, a.call = .update home u := by
  induction us generalizing n with
  | nil => exact nofun
  | cons u rest ih =>
    have later (a : Attempt σ υ) (made : a ∈ (b.sendFrom answers home (n + 1) rest).attempts) :
        ∃ v ∈ u :: rest, a.call = .update home v := by
      obtain ⟨v, inside, call⟩ := ih (n + 1) a made
      exact ⟨v, List.mem_cons_of_mem _ inside, call⟩
    intro a made
    unfold sendFrom at made
    rw [Pass.settleThen] at made
    rcases List.mem_append.mp made with first | next
    · refine ⟨u, List.mem_cons_self, ?_⟩
      unfold Pass.tell Pass.ask at first
      split at first
      · rw [List.mem_singleton.mp first]
      · rw [List.mem_singleton.mp first]
    · split at next
      · exact later a next
      · split at next
        · exact later a next
        · cases next

theorem updateChosen {a : Attempt σ υ} (made : a ∈ (b.remediate config answers desired observed).attempts)
    {id : ResourceId} {u : υ} (update : a.call = .update id u) :
    id = b.resourceId desired.spec ∧
      ∃ category calls, b.choice (b.input desired observed.spec) = .send category calls ∧ u ∈ calls := by
  cases here : b.inactive? config observed.status with
  | some v =>
    unfold remediate at made
    rw [here] at made
    cases made
  | none =>
    rw [b.remediateActive config answers desired observed here, Pass.settleThen] at made
    rcases List.mem_append.mp made with tagged | rest
    · have tags := b.onlySyncTags answers desired observed a tagged
      rw [update] at tags
      cases tags
    · cases synced : (b.syncTags answers desired observed).result with
      | error f =>
        rw [synced, (b.untaggedDecides config answers desired observed f).1] at rest
        cases rest
      | ok s =>
        have decided := b.applyFirstDecides config answers desired observed (b.delta desired observed.spec)
        rw [synced, (b.taggedDecides config answers desired observed s).1] at rest
        cases chosen : b.choice ⟨desired.spec, observed.spec, b.delta desired observed.spec, desired.annotations⟩ with
        | nothing =>
          rw [chosen] at decided
          rw [decided.1] at rest
          cases rest
        | refuse reason =>
          rw [chosen] at decided
          rw [decided.1] at rest
          cases rest
        | send category calls =>
          rw [chosen] at decided
          rw [decided.1] at rest
          obtain ⟨v, inside, call⟩ := b.sentAttempts answers _ 0 calls a rest
          cases update.symm.trans call
          exact ⟨rfl, category, calls, chosen, inside⟩

variable {b} {identifiers : List (Identifier σ)} {target : υ → List (String × String)}
  (targets : b.Targets identifiers target)
include targets

theorem Targets.same (admitted : b.rejects (b.input desired observed.spec) = none) :
    identity identifiers desired.spec = identity identifiers observed.spec := by
  refine List.map_congr_left fun i inside => Prod.ext rfl ?_
  exact FieldTable.identified (targets.compared.subset (List.mem_map_of_mem inside))
    (targets.kept i inside desired.annotations)
    (targets.fixed _ admitted i inside)

theorem Targets.reached : ∀ a ∈ (b.remediate config answers desired observed).attempts, ∀ id u,
    a.call = .update id u → identity identifiers desired.spec = identity identifiers observed.spec ∧
      id = b.resourceId desired.spec ∧ id = b.resourceId observed.spec ∧
      target u = identity identifiers desired.spec := by
  intro a made id u update
  obtain ⟨home, category, calls, chosen, inside⟩ := b.updateChosen config answers desired observed made update
  obtain ⟨g, decides, _, plan⟩ := choiceSend chosen
  have admitted : b.rejects (b.input desired observed.spec) = none := by
    cases refused : b.rejects (b.input desired observed.spec) with
    | none => rfl
    | some reason =>
      unfold choice at chosen
      rw [refused] at chosen
      split at chosen <;> cases chosen
  have same := targets.same desired observed admitted
  exact ⟨same, home, home.trans (targets.resource _ _ same), targets.payload g decides.listed _ _ plan u inside⟩

end

end Binding

namespace Cluster

def identifiers : List (Identifier Spec) := [⟨"name", Spec.name⟩]

def Update.target : Update → List (String × String)
  | .config u => [("name", u.name)]
  | .associateEncryption clusterName _ => [("name", clusterName)]
  | .version name _ => [("name", name)]

theorem groupsAim : ∀ g ∈ groups, g.Aims (identity identifiers) Update.target := by
  intro g listed
  refine .once fun input calls planned => ?_
  obtain ⟨u, rfl, made⟩ := groupsPlanned g listed input calls planned
  refine ⟨u, rfl, ?_⟩
  cases made with
  | config named => exact congrArg (fun name => [("name", name)]) named
  | encryption => rfl
  | version => rfl

theorem targets : binding.Targets identifiers Update.target :=
  .ofTable ⟨_, rfl⟩ (by decide) (fun _ => rfl) (by decide)
    (fun names => { name := names[0]! }) (fun _ => rfl) groupsAim

end Cluster

namespace Nodegroup

def identifiers : List (Identifier Spec) := [⟨"name", Spec.name⟩, ⟨"clusterName", Spec.clusterName⟩]

def Update.target : Update → List (String × String)
  | .config u => [("name", u.nodegroupName), ("clusterName", u.clusterName)]
  | .version u => [("name", u.nodegroupName), ("clusterName", u.clusterName)]

theorem versionGiven {input : PlanInput Spec} {u : VersionUpdate} (planned : versionUpdate input = .ok u) :
    ∃ version release, u =
      { clusterName := input.desired.clusterName
        nodegroupName := input.desired.name
        version := version
        releaseVersion := release
        launchTemplate := if input.delta.differsAt "launchTemplate" then input.desired.launchTemplate else none
        force := input.annotations.forcesUpdate } := by
  unfold versionUpdate at planned
  obtain ⟨_, _, planned⟩ := boundOk.mp planned
  dsimp only at planned
  split at planned
  · obtain ⟨_, _, planned⟩ := boundOk.mp planned
    cases planned
    exact ⟨_, _, rfl⟩
  · cases planned
    exact ⟨_, _, rfl⟩

theorem groupsAim : ∀ g ∈ groups, g.Aims (identity identifiers) Update.target := by
  intro g listed
  refine .once fun input calls planned => ?_
  obtain ⟨u, rfl, made⟩ := groupsPlanned g listed input calls planned
  refine ⟨u, rfl, ?_⟩
  cases made with
  | config plans =>
    cases configGiven plans
    rfl
  | version made =>
    obtain ⟨_, _, rfl⟩ := versionGiven made
    rfl

theorem targets : binding.Targets identifiers Update.target :=
  .ofTable ⟨_, rfl⟩ (by decide) (fun _ => rfl) (by decide)
    (fun names => .child names[1]! names[0]!) (fun _ => rfl) groupsAim

end Nodegroup

namespace Addon

def identifiers : List (Identifier Spec) := [⟨"name", Spec.name⟩, ⟨"clusterName", Spec.clusterName⟩]

def Update.target (u : Update) : List (String × String) := [("name", u.addonName), ("clusterName", u.clusterName)]

theorem groupsAim : ∀ g ∈ groups, g.Aims (identity identifiers) Update.target :=
  List.forall_mem_singleton.mpr (.always fun _ => ⟨_, rfl, rfl⟩)

theorem targets : binding.Targets identifiers Update.target :=
  .ofTable ⟨_, rfl⟩ (by decide) (fun _ => rfl) (by decide)
    (fun names => .child names[1]! names[0]!) (fun _ => rfl) groupsAim

end Addon

namespace AccessEntry

def identifiers : List (Identifier Spec) := [⟨"clusterName", Spec.clusterName⟩, ⟨"principalArn", Spec.principalArn⟩]

def Update.target : Update → List (String × String)
  | .entry clusterName principalArn _ _ => [("clusterName", clusterName), ("principalArn", principalArn)]
  | .associate clusterName principalArn _ => [("clusterName", clusterName), ("principalArn", principalArn)]
  | .disassociate clusterName principalArn _ => [("clusterName", clusterName), ("principalArn", principalArn)]

theorem policyCallAims (d : Spec) (step : PlanStep AccessPolicy String) :
    (policyCall d step).target = identity identifiers d := by
  cases step <;> rfl

theorem policiesAim (input : PlanInput Spec) (calls : List Update)
    (planned : planAccessPolicies input = .calls calls) :
    ∀ u ∈ calls, u.target = identity identifiers input.desired := by
  unfold planAccessPolicies at planned
  dsimp only at planned
  split at planned <;> cases planned
  exact List.forall_mem_map.mpr fun step _ => policyCallAims input.desired step

theorem groupsAim : ∀ g ∈ groups, g.Aims (identity identifiers) Update.target := by
  simp only [groups, List.forall_mem_cons]
  exact ⟨.always fun _ => ⟨_, rfl, rfl⟩, policiesAim, List.forall_mem_nil _⟩

theorem targets : binding.Targets identifiers Update.target :=
  .ofTable ⟨_, rfl⟩ (by decide) (fun _ => rfl) (by decide)
    (fun names => .child names[0]! names[1]!) (fun _ => rfl) groupsAim

end AccessEntry

namespace Capability

def identifiers : List (Identifier Spec) := [⟨"name", Spec.name⟩, ⟨"clusterName", Spec.clusterName⟩]

def Update.target (u : Update) : List (String × String) := [("name", u.name), ("clusterName", u.clusterName)]

theorem groupsAim : ∀ g ∈ groups, g.Aims (identity identifiers) Update.target :=
  List.forall_mem_singleton.mpr (.always fun _ => ⟨_, rfl, rfl⟩)

theorem targets : binding.Targets identifiers Update.target :=
  .ofTable ⟨_, rfl⟩ (by decide) (fun _ => rfl) (by decide)
    (fun names => .child names[1]! names[0]!) (fun _ => rfl) groupsAim

end Capability

namespace PodIdentityAssociation

def identifiers : List (Identifier Spec) :=
  [⟨"clusterName", Spec.clusterName⟩, ⟨"namespace", Spec.nameSpace⟩, ⟨"serviceAccount", Spec.serviceAccount⟩]

def Update.target (u : Update) : List (String × String) :=
  [("clusterName", u.clusterName), ("namespace", u.nameSpace), ("serviceAccount", u.serviceAccount)]

theorem groupsAim : ∀ g ∈ groups, g.Aims (identity identifiers) Update.target :=
  List.forall_mem_singleton.mpr (.always fun _ => ⟨_, rfl, rfl⟩)

theorem targets : binding.Targets identifiers Update.target :=
  .ofTable ⟨_, rfl⟩ (by decide) (fun _ => rfl) (by decide)
    (fun names => .child names[0]! s!"{names[1]!}/{names[2]!}") (fun _ => rfl) groupsAim

end PodIdentityAssociation

namespace FargateProfile

def identifiers : List (Identifier Spec) := [⟨"name", Spec.name⟩, ⟨"clusterName", Spec.clusterName⟩]

end FargateProfile

namespace IdentityProviderConfig

def identifiers : List (Identifier Spec) := [⟨"clusterName", Spec.clusterName⟩]

end IdentityProviderConfig

namespace Kind

def identifiers : (k : Kind) → List (Identifier k.Spec)
  | .cluster => Cluster.identifiers
  | .nodegroup => Nodegroup.identifiers
  | .addon => Addon.identifiers
  | .accessEntry => AccessEntry.identifiers
  | .fargateProfile => FargateProfile.identifiers
  | .capability => Capability.identifiers
  | .podIdentityAssociation => PodIdentityAssociation.identifiers
  | .identityProviderConfig => IdentityProviderConfig.identifiers

def target : (k : Kind) → k.Update → List (String × String)
  | .cluster => Cluster.Update.target
  | .nodegroup => Nodegroup.Update.target
  | .addon => Addon.Update.target
  | .accessEntry => AccessEntry.Update.target
  | .fargateProfile => nofun
  | .capability => Capability.Update.target
  | .podIdentityAssociation => PodIdentityAssociation.Update.target
  | .identityProviderConfig => nofun

/- An update goes only to the resource that was seen: both specs name it by the same fields, the call carries the id
that either gives, and the payload has these fields too. -/
theorem updatesStayWithResource (k : Kind) (config : Config) (answers : Answers k.Spec) (desired : Desired k.Spec)
    (observed : Observed k.Spec) :
    ∀ a ∈ (k.binding.remediate config answers desired observed).attempts, ∀ id u, a.call = .update id u →
      identity k.identifiers desired.spec = identity k.identifiers observed.spec ∧
        id = k.binding.resourceId desired.spec ∧ id = k.binding.resourceId observed.spec ∧
        k.target u = identity k.identifiers desired.spec := by
  cases k with
  | cluster => exact Cluster.targets.reached config answers desired observed
  | nodegroup => exact Nodegroup.targets.reached config answers desired observed
  | addon => exact Addon.targets.reached config answers desired observed
  | accessEntry => exact AccessEntry.targets.reached config answers desired observed
  | capability => exact Capability.targets.reached config answers desired observed
  | podIdentityAssociation => exact PodIdentityAssociation.targets.reached config answers desired observed
  | fargateProfile => exact fun _ _ _ u => nomatch u
  | identityProviderConfig => exact fun _ _ _ u => nomatch u

theorem associationKeepsItsAccount :
    let spec : PodIdentityAssociation.Spec := { clusterName := "main", nameSpace := "shop", serviceAccount := "cart" }
    let answers : Answers PodIdentityAssociation.Spec :=
      ⟨.ok none, .ok none, fun _ => none, none, .ok .empty, none, none⟩
    let desired : Desired PodIdentityAssociation.Spec := ⟨{ spec with roleArn := some "new" }, .empty, none⟩
    let observed : Observed PodIdentityAssociation.Spec :=
      ⟨{ spec with roleArn := some "old" }, none, none, some .empty⟩
    let u : PodIdentityAssociation.Update := ⟨"main", "shop", "cart", some "new", none, none⟩
    let a : Attempt PodIdentityAssociation.Spec PodIdentityAssociation.Update :=
      ⟨.update ⟨"shop/cart", some "main"⟩ u, none⟩
    a ∈ (PodIdentityAssociation.binding.remediate .default answers desired observed).attempts ∧
      u.target = identity PodIdentityAssociation.identifiers desired.spec := by
  intro spec answers desired observed u a
  have made : a ∈ (PodIdentityAssociation.binding.remediate .default answers desired observed).attempts := by
    decide +kernel
  have stays := updatesStayWithResource .podIdentityAssociation .default answers desired observed a made _ u rfl
  exact ⟨made, stays.2.2.2⟩

end Kind
end DesiredState
