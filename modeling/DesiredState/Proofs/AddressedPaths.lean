import DesiredState.Proofs.CarriedValues
import DesiredState.Proofs.MapChanges
import DesiredState.Proofs.Readings

/-!
What a call asks of the remote. Of the paths of its group that differ, a call addresses those whose member it has. A
member that is copied from the declaration is missing when nothing is declared there, a keyed change when the first
item of every key is the same on both sides, and a version when the one that is seen reads the same; nothing else is
left out. -/
namespace DesiredState

namespace Cluster

/- What the declaration has to have for a call to say something about a path. Where nothing is listed, the call has
the member anyway, with its default if need be. -/
def Asks (d : Spec) : String → Prop
  | "resourcesVpcConfig.endpointPrivateAccess" => (d.resourcesVpcConfig.getD {}).endpointPrivateAccess ≠ none
  | "resourcesVpcConfig.endpointPublicAccess" => (d.resourcesVpcConfig.getD {}).endpointPublicAccess ≠ none
  | "computeConfig" => d.computeConfig ≠ none
  | "storageConfig" => d.storageConfig ≠ none
  | _ => True

end Cluster

namespace Nodegroup

def AtGoal (d o : Spec) : Prop :=
  ∃ v, (MinorVersion.given d.version).map MinorVersion.parse = some (.ok v) ∧
    (MinorVersion.given o.version).map MinorVersion.parse = some (.ok v)

def Asks (d o : Spec) : String → Prop
  | "taints" => ∃ key, (KeyedPlan.index Taint.key d.taints).get? key ≠ (KeyedPlan.index Taint.key o.taints).get? key
  | "scalingConfig" => d.scalingConfig ≠ none
  | "updateConfig" => d.updateConfig ≠ none
  | "nodeRepairConfig" => d.nodeRepairConfig ≠ none
  | "version" => ¬ AtGoal d o
  | "launchTemplate" => d.launchTemplate ≠ none
  | _ => True

end Nodegroup

namespace Capability

def heldIdentities (mappings : Option (List RoleMapping)) (role : String) : Option (List Identity) :=
  ((KeyedPlan.index RoleMapping.role (mappings.getD [])).get? role).map RoleMapping.sortedIdentities

def Asks (d o : Spec) : String → Prop
  | "roleArn" => d.roleArn ≠ none
  | "configuration.argoCd.rbacRoleMappings" =>
    ∃ role, heldIdentities d.roleMappings role ≠ heldIdentities o.roleMappings role
  | _ => True

end Capability

namespace Kind

/- The paths whose members settle a path: a release is also reached by naming the version. -/
def standIns : Kind → String → List String
  | .nodegroup, "releaseVersion" => ["releaseVersion", "version"]
  | _, top => [top]

def Addresses (k : Kind) (u : k.Update) (top : String) : Prop :=
  ∃ p ∈ k.standIns top, (k.binding.renderUpdate u).descend (k.payloadPlace (pathNames p)) ≠ .null

def Asks : (k : Kind) → k.Spec → k.Spec → String → Prop
  | .cluster, d, _, top => Cluster.Asks d top
  | .nodegroup, d, o, top => Nodegroup.Asks d o top
  | .capability, d, o, top => Capability.Asks d o top
  | _, _, _, _ => True

/- Where the plan makes calls and the path differs, one call is made, which addresses the path if it is asked for. -/
def Accounts (k : Kind) (plan : PlanInput k.Spec → GroupPlan k.Update) (top : String) : Prop :=
  ∀ (desired : Desired k.Spec) (observed : k.Spec) (calls : List k.Update),
    plan (k.binding.input desired observed) = .calls calls →
      (k.binding.input desired observed).delta.differsAt top = true →
        ∃ u, calls = [u] ∧ (k.Addresses u top ↔ k.Asks desired.spec observed top)

theorem accountsFor {k : Kind} {plan : PlanInput k.Spec → GroupPlan k.Update} {top : String} {names : List String}
    (plain : k.standIns top = [top]) (place : k.payloadPlace (pathNames top) = names)
    (once : ∀ (desired : Desired k.Spec) (observed : k.Spec) (calls : List k.Update),
      plan (k.binding.input desired observed) = .calls calls →
        (k.binding.input desired observed).delta.differsAt top = true →
      ∃ u, calls = [u] ∧ ((k.binding.renderUpdate u).descend names ≠ .null ↔ k.Asks desired.spec observed top)) :
    k.Accounts plan top := by
  intro desired observed calls planned differs
  obtain ⟨u, rfl, sent⟩ := once desired observed calls planned differs
  refine ⟨u, rfl, ?_⟩
  unfold Addresses
  rw [plain]
  simpa [place] using sent

end Kind

section
variable {k : Kind} {f : Field k.Spec} {path : String} {desired : Desired k.Spec} {observed : k.Spec}
  (differs : (k.binding.input desired observed).delta.differsAt path = true)
  (row : k.binding.table.fields.find? (fun f => f.path == path) = some f)
include differs row

theorem Kind.rowDiffers : f.differences desired.spec observed ≠ [] := by
  have named := List.find?_some row
  obtain rfl : f.path = path := beq_iff_eq.mp named
  obtain ⟨p, found, under⟩ := Delta.differsAtIff.mp differs
  obtain ⟨x, inside, rfl⟩ := List.mem_map.mp found
  have listed := List.mem_of_find?_eq_some row
  exact List.ne_nil_of_mem (k.rowsApart.rowAbove listed (FieldTable.keptByHandovers inside) under)

theorem Kind.rowDeclared (explicit : f.explicitOnly = true) : (f.render desired.spec).isZero = false := by
  refine Bool.eq_false_iff.mpr fun unset => k.rowDiffers differs row ?_
  unfold Field.differences
  dsimp only
  rw [explicit, unset]
  rfl

end

namespace Cluster

theorem concernAccounts {plan : PlanInput Spec → GroupPlan Update} {name : String}
    (plain : Kind.cluster.standIns name = [name]) (place : pathNames name = [name])
    (made : ∀ input calls, plan input = .calls calls → ∃ (u : ConfigUpdate) (v : Option Json), calls = [.config u] ∧
      u.settings.find? (fun s => s.1 == name) = some (name, v) ∧ (v.getD .null ≠ .null ↔ Asks input.desired name)) :
    Kind.cluster.Accounts plan name := by
  refine Kind.accountsFor plain place fun desired observed calls planned _ => ?_
  obtain ⟨u, v, rfl, slot, sent⟩ := made _ _ planned
  refine ⟨_, rfl, ?_⟩
  change (Update.config u).render.descend [name] ≠ .null ↔ _
  rw [configValue u slot]
  exact sent

theorem concernSent {plan : PlanInput Spec → GroupPlan Update} {name : String}
    (plain : Kind.cluster.standIns name = [name]) (place : pathNames name = [name])
    (asked : ∀ d, Asks d name)
    (made : ∀ input calls, plan input = .calls calls → ∃ (u : ConfigUpdate) (v : Json), calls = [.config u] ∧
      u.settings.find? (fun s => s.1 == name) = some (name, some v) ∧ v ≠ .null) :
    Kind.cluster.Accounts plan name := by
  refine concernAccounts plain place fun input calls planned => ?_
  obtain ⟨u, v, call, slot, shown⟩ := made input calls planned
  exact ⟨u, some v, call, slot, iff_of_true shown (asked input.desired)⟩

theorem concernDeclared {plan : PlanInput Spec → GroupPlan Update} {name : String} {τ : Type} {rec : Record τ τ}
    {get : Spec → Option τ} (plain : Kind.cluster.standIns name = [name]) (place : pathNames name = [name])
    (asked : ∀ d, Asks d name ↔ get d ≠ none)
    (made : ∀ input calls, plan input = .calls calls → ∃ u : ConfigUpdate, calls = [.config u] ∧
      u.settings.find? (fun s => s.1 == name) = some (name, (get input.desired).map rec.codec.write)) :
    Kind.cluster.Accounts plan name := by
  refine concernAccounts plain place fun input calls planned => ?_
  obtain ⟨u, call, slot⟩ := made input calls planned
  refine ⟨u, _, call, slot, ?_⟩
  rw [asked]
  cases get input.desired with
  | none => exact iff_of_false (fun set => set rfl) fun set => set rfl
  | some v => exact iff_of_true nofun nofun

theorem loggingAccounts : Kind.cluster.Accounts planLogging "logging" :=
  concernSent rfl rfl (fun _ => trivial) fun _ _ planned => ⟨_, _, (GroupPlan.calls.inj planned).symm, rfl, nofun⟩

theorem accessAccounts : Kind.cluster.Accounts planAccessConfig "accessConfig" :=
  concernSent rfl rfl (fun _ => trivial) fun _ _ planned => ⟨_, _, (GroupPlan.calls.inj planned).symm, rfl, nofun⟩

theorem upgradeAccounts : Kind.cluster.Accounts planUpgradePolicy "upgradePolicy" :=
  concernSent rfl rfl (fun _ => trivial) fun input calls planned => by
    unfold planUpgradePolicy at planned
    split at planned
    · exact ⟨_, _, (GroupPlan.calls.inj planned).symm, rfl, nofun⟩
    · cases planned

theorem computeAccounts : Kind.cluster.Accounts planComputeStorageNetwork "computeConfig" :=
  concernDeclared rfl rfl (fun _ => Iff.rfl) fun _ _ planned => ⟨_, (GroupPlan.calls.inj planned).symm, rfl⟩

theorem storageAccounts : Kind.cluster.Accounts planComputeStorageNetwork "storageConfig" :=
  concernDeclared rfl rfl (fun _ => Iff.rfl) fun _ _ planned => ⟨_, (GroupPlan.calls.inj planned).symm, rfl⟩

theorem addressesAccount : Kind.cluster.Accounts planComputeStorageNetwork "kubernetesNetworkConfig" := by
  refine Kind.accountsFor rfl rfl fun desired observed calls planned differs => ?_
  obtain ⟨v, given⟩ := Json.setOption (Kind.cluster.rowDeclared differs rfl rfl)
  refine ⟨_, (GroupPlan.calls.inj planned).symm, iff_of_true ?_ trivial⟩
  change (Update.config _).render.descend ["kubernetesNetworkConfig"] ≠ .null
  rw [configValue _ rfl]
  change ((desired.spec.kubernetesNetworkConfig).map KubernetesNetworkConfig.record.codec.write).getD .null ≠ Json.null
  rw [given]
  nofun

theorem zonalAccounts : Kind.cluster.Accounts planZonalShift "zonalShiftConfig" :=
  concernSent rfl rfl (fun _ => trivial) fun _ _ planned => ⟨_, _, (GroupPlan.calls.inj planned).symm, rfl, nofun⟩

theorem remoteAccounts : Kind.cluster.Accounts planRemoteNetwork "remoteNetworkConfig" :=
  concernSent rfl rfl (fun _ => trivial) fun _ _ planned => ⟨_, _, (GroupPlan.calls.inj planned).symm, rfl, nofun⟩

theorem settingAccounts {plan : PlanInput Spec → GroupPlan Update} {top : String} {value : Spec → Json} (name : String)
    (change : VpcConfig → VpcUpdate)
    (plain : Kind.cluster.standIns top = [top]) (place : pathNames top = ["resourcesVpcConfig", name])
    (made : ∀ input, plan input = configure input.desired fun u =>
      { u with resourcesVpcConfig := some (change (input.desired.resourcesVpcConfig.getD {})) })
    (slot : ∀ d : Spec, (change (d.resourcesVpcConfig.getD {})).render.descend [name] = value d)
    (sent : ∀ d : Spec, value d ≠ .null ↔ Asks d top) :
    Kind.cluster.Accounts plan top := by
  have shown (d : Spec) : (change (d.resourcesVpcConfig.getD {})).render.descend [name] ≠ .null ↔ Asks d top := by
    rw [slot]
    exact sent d
  refine Kind.accountsFor plain place fun desired observed calls planned _ => ?_
  refine ⟨_, (GroupPlan.calls.inj ((made _).symm.trans planned)).symm, ?_⟩
  rw [← List.singleton_append, Json.descendAppend]
  change ((Update.config _).render.descend ["resourcesVpcConfig"]).descend [name] ≠ .null ↔ _
  rw [configValue _ rfl]
  exact shown desired.spec

theorem privateAccounts : Kind.cluster.Accounts planEndpointAccess "resourcesVpcConfig.endpointPrivateAccess" :=
  settingAccounts "endpointPrivateAccess" endpointChange rfl rfl (fun _ => rfl)
    (fun _ => Json.slotOption (by simp) rfl) fun _ => Json.optionSet .bool Json.boolShown _

theorem publicAccounts : Kind.cluster.Accounts planEndpointAccess "resourcesVpcConfig.endpointPublicAccess" :=
  settingAccounts "endpointPublicAccess" endpointChange rfl rfl (fun _ => rfl)
    (fun _ => Json.slotOption (by simp) rfl) fun _ => Json.optionSet .bool Json.boolShown _

theorem cidrsAccount : Kind.cluster.Accounts planEndpointAccess "resourcesVpcConfig.publicAccessCidrs" :=
  settingAccounts "publicAccessCidrs" endpointChange rfl rfl (fun _ => rfl)
    (fun _ => Json.slotSome (by simp) rfl) fun _ => iff_of_true (Json.listShown _) trivial

theorem subnetsAccount : Kind.cluster.Accounts planVpcNetworking "resourcesVpcConfig.subnetIds" :=
  settingAccounts "subnetIds" networkingChange rfl rfl (fun _ => rfl)
    (fun _ => Json.slotSome (by simp) rfl) fun _ => iff_of_true (Json.listShown _) trivial

theorem securityAccounts : Kind.cluster.Accounts planVpcNetworking "resourcesVpcConfig.securityGroupIds" :=
  settingAccounts "securityGroupIds" networkingChange rfl rfl (fun _ => rfl)
    (fun _ => Json.slotSome (by simp) rfl) fun _ => iff_of_true (Json.listShown _) trivial

theorem encryptionAccounts : Kind.cluster.Accounts planEncryption "encryptionConfig" := by
  refine Kind.accountsFor rfl rfl fun desired observed calls planned _ => ?_
  unfold planEncryption at planned
  split at planned <;> cases planned
  exact ⟨_, rfl, iff_of_true nofun trivial⟩

theorem versionAccounts : Kind.cluster.Accounts planVersion "version" := by
  refine Kind.accountsFor rfl rfl fun desired observed calls planned _ => ?_
  have sends {target : String} (call : GroupPlan.calls [.version desired.spec.name target] = .calls calls) :
      ∃ u : Update, calls = [u] ∧ (u.render.descend ["version"] ≠ .null ↔ Asks desired.spec "version") :=
    ⟨_, (GroupPlan.calls.inj call).symm, iff_of_true nofun trivial⟩
  unfold planVersion at planned
  split at planned
  · cases planned
  · exact sends planned
  · split at planned
    · cases planned
    · split at planned
      · cases planned
      · exact sends planned
      · exact sends planned
      · cases planned
      · cases planned

end Cluster

namespace Nodegroup
open MinorVersion

section
variable {top : String} {τ : Type} (write : τ → Json)

theorem configAccounts (get : ConfigUpdate → Option τ) (plain : Kind.nodegroup.standIns top = [top])
    (place : pathNames top = [top]) (shown : ∀ v, write v ≠ .null)
    (slot : ∀ u : ConfigUpdate, (Update.config u).render.descend [top] = .ofOption write (get u))
    (sent : ∀ (desired : Desired Spec) (observed : Spec) (u : ConfigUpdate),
      planConfig (binding.input desired observed) = .calls [.config u] →
        (binding.input desired observed).delta.differsAt top = true →
          (get u ≠ none ↔ Asks desired.spec observed top)) :
    Kind.nodegroup.Accounts planConfig top := by
  refine Kind.accountsFor plain place fun desired observed calls planned differs => ?_
  have given := configGiven planned
  rw [given] at planned
  refine ⟨_, given, ?_⟩
  change (Update.config _).render.descend [top] ≠ .null ↔ _
  rw [slot, Json.optionSet write shown]
  exact sent desired observed _ planned differs

end

theorem labelsChangeIff {d o : Spec} : labelsChange? d o ≠ none ↔ d.labels.getD .empty ≠ o.labels.getD .empty := by
  unfold labelsChange?
  dsimp only
  rw [Ne, Ne, ← SortedMap.nothingToReconcile, ite_eq_left_iff]
  simp

theorem taintsChangeIff {d o : Spec} : taintsChange? d o ≠ none ↔
    ∃ key, (KeyedPlan.index Taint.key d.taints).get? key ≠ (KeyedPlan.index Taint.key o.taints).get? key := by
  refine (KeyedPlan.changeIff id (fun _ _ => beq_iff_eq) _).trans ?_
  simp only [Option.map_id_fun, id]

theorem labelsAccount : Kind.nodegroup.Accounts planConfig "labels" := by
  refine configAccounts LabelsChange.render ConfigUpdate.labels rfl rfl (fun _ => Json.objectShown _)
    (fun _ => Json.slotOption (by simp) rfl) fun desired observed u planned differs => ?_
  cases configGiven planned
  refine iff_of_true (labelsChangeIff.mpr fun same => ?_) trivial
  exact Kind.nodegroup.rowDiffers differs rfl (Rule.leafNothing.mpr ((SortedMap.sameTexts _ _).mpr same))

theorem taintsAccount : Kind.nodegroup.Accounts planConfig "taints" := by
  refine configAccounts TaintsChange.render ConfigUpdate.taints rfl rfl (fun _ => Json.objectShown _)
    (fun _ => Json.slotOption (by simp) rfl) fun desired observed u planned _ => ?_
  cases configGiven planned
  exact taintsChangeIff

theorem scalingAccounts : Kind.nodegroup.Accounts planConfig "scalingConfig" := by
  refine configAccounts Scaling.record.codec.write ConfigUpdate.scalingConfig rfl rfl (fun _ => Json.objectShown _)
    (fun _ => Json.slotOption (by simp) rfl) fun desired observed u planned _ => ?_
  cases configGiven planned
  exact not_congr Option.map_eq_none_iff

theorem limitsAccount : Kind.nodegroup.Accounts planConfig "updateConfig" := by
  refine configAccounts UpdateLimits.record.codec.write ConfigUpdate.updateConfig rfl rfl (fun _ => Json.objectShown _)
    (fun _ => Json.slotOption (by simp) rfl) fun desired observed u planned _ => ?_
  cases configGiven planned
  exact Iff.rfl

theorem repairAccounts : Kind.nodegroup.Accounts planConfig "nodeRepairConfig" := by
  refine configAccounts NodeRepair.record.codec.write ConfigUpdate.nodeRepairConfig rfl rfl (fun _ => Json.objectShown _)
    (fun _ => Json.slotOption (by simp) rfl) fun desired observed u planned _ => ?_
  cases configGiven planned
  exact Iff.rfl

theorem targetSent {input : PlanInput Spec} {u : VersionUpdate} (made : versionUpdate input = .ok u)
    (changed : (input.delta.differsAt "version" || input.delta.differsAt "releaseVersion") = true)
    (declared : given input.desired.version ≠ none ∨ given input.desired.releaseVersion ≠ none) :
    ∃ version target, (given input.desired.version).map parse = version.map .ok ∧ (∀ v, version = some v → target = v) ∧
      Approach input.desired input.observed.version version target (u.version, u.releaseVersion) := by
  obtain ⟨version, release, read, sends⟩ := updateSends made
  obtain ⟨versioned, released⟩ := goalsRead read
  have target : version.or release ≠ none := by
    rw [← Option.isSome_iff_ne_none, Option.isSome_or, Bool.or_eq_true,
      ← Option.isSome_map (f := Except.ok (ε := BadVersion)),
      ← Option.isSome_map (x := release) (f := Except.ok (ε := BadVersion)), ← versioned, ← released]
    simpa [Option.isSome_iff_ne_none] using declared
  generalize (u.version, u.releaseVersion) = sent at sends
  cases sends with
  | resting still =>
    rcases still with same | nowhere
    · cases changed.symm.trans same
    · exact absurd nowhere target
  | moving chosen approach =>
    refine ⟨version, _, versioned, fun v same => ?_, approach⟩
    rw [same] at chosen
    exact (Option.some.inj chosen).symm

theorem givenDeclared {raw : Option String} (set : (Json.ofOption .text raw).isZero = false) :
    ∃ text, raw = some text ∧ given raw = some text := by
  obtain ⟨text, rfl⟩ := Json.setOption set
  refine ⟨text, rfl, ?_⟩
  change text.isEmpty = false at set
  unfold given
  rw [Option.filter_some, set]
  rfl

theorem versionSlot (u : VersionUpdate) :
    (Update.version u).render.descend ["version"] = .ofOption .text u.version := Json.slotOption (by simp) rfl

theorem releaseSlot (u : VersionUpdate) :
    (Update.version u).render.descend ["releaseVersion"] = .ofOption .text u.releaseVersion :=
  Json.slotOption (by simp) rfl

theorem templateSlot (u : VersionUpdate) : (Update.version u).render.descend ["launchTemplate"] =
    .ofOption LaunchTemplate.record.codec.write u.launchTemplate := Json.slotOption (by simp) rfl

theorem versionAccounts : Kind.nodegroup.Accounts planVersion "version" := by
  refine Kind.accountsFor rfl rfl fun desired observed calls planned differs => ?_
  obtain ⟨u, rfl, made⟩ := versionPlanned planned
  refine ⟨_, rfl, ?_⟩
  change (Update.version u).render.descend ["version"] ≠ .null ↔ ¬ AtGoal desired.spec observed
  rw [versionSlot, Json.optionSet .text Json.textShown]
  obtain ⟨text, _, asked⟩ := givenDeclared (Kind.nodegroup.rowDeclared differs rfl rfl)
  obtain ⟨version, target, read, goal, sent⟩ :=
    targetSent made (by rw [differs]; rfl) (.inl (by change given desired.spec.version ≠ none; rw [asked]; nofun))
  change (given desired.spec.version).map parse = version.map .ok at read
  obtain ⟨v, rfl⟩ : ∃ v, version = some v := by
    cases version with
    | none => rw [asked] at read; cases read
    | some v => exact ⟨v, rfl⟩
  obtain rfl : target = v := goal v rfl
  have away {current next : MinorVersion} (seen : (given observed.version).map parse = some (.ok current))
      (advances : Advances current target next) : ¬ AtGoal desired.spec observed := by
    rintro ⟨w, asked', known⟩
    have first : target = w := Except.ok.inj (Option.some.inj (read.symm.trans asked'))
    have second : current = w := Except.ok.inj (Option.some.inj (seen.symm.trans known))
    exact advances.apart (second.trans first.symm)
  generalize named : (u.version, u.releaseVersion) = pair at sent
  cases sent with
  | unseen unseen =>
    obtain ⟨named, _⟩ := Prod.mk.inj named
    refine iff_of_true (by rw [named]; nofun) ?_
    rintro ⟨_, _, known⟩
    change given observed.version = none at unseen
    rw [unseen] at known
    cases known
  | reached seen =>
    obtain ⟨unnamed, _⟩ := Prod.mk.inj named
    exact iff_of_false (fun some' => some' unnamed) fun away => away ⟨target, read, seen⟩
  | final seen advances =>
    obtain ⟨named, _⟩ := Prod.mk.inj named
    exact iff_of_true (by rw [named]; nofun) (away seen advances)
  | intermediate seen advances =>
    obtain ⟨named, _⟩ := Prod.mk.inj named
    exact iff_of_true (by rw [named]; nofun) (away seen advances)

theorem releaseAccounts : Kind.nodegroup.Accounts planVersion "releaseVersion" := by
  intro desired observed calls planned differs
  obtain ⟨u, rfl, made⟩ := versionPlanned planned
  refine ⟨_, rfl, iff_of_true ?_ trivial⟩
  obtain ⟨text, declared, asked⟩ := givenDeclared (Kind.nodegroup.rowDeclared differs rfl rfl)
  obtain ⟨version, target, _, _, sent⟩ := targetSent made (by rw [differs, Bool.or_true])
    (.inr (by change given desired.spec.releaseVersion ≠ none; rw [asked]; nofun))
  have either : u.version ≠ none ∨ u.releaseVersion ≠ none := by
    have release : u.releaseVersion = desired.spec.releaseVersion → u.releaseVersion ≠ none := by
      intro same
      rw [same, declared]
      nofun
    generalize named : (u.version, u.releaseVersion) = pair at sent
    cases sent with
    | unseen => exact .inr (release (Prod.mk.inj named).2)
    | reached => exact .inr (release (Prod.mk.inj named).2)
    | final => exact .inr (release (Prod.mk.inj named).2)
    | intermediate => exact .inl (by rw [(Prod.mk.inj named).1]; nofun)
  rcases either with named | named
  · refine ⟨"version", by decide, ?_⟩
    change (Update.version u).render.descend ["version"] ≠ .null
    rwa [versionSlot, Json.optionSet .text Json.textShown]
  · refine ⟨"releaseVersion", by decide, ?_⟩
    change (Update.version u).render.descend ["releaseVersion"] ≠ .null
    rwa [releaseSlot, Json.optionSet .text Json.textShown]

theorem templateAccounts : Kind.nodegroup.Accounts planVersion "launchTemplate" := by
  refine Kind.accountsFor rfl rfl fun desired observed calls planned differs => ?_
  obtain ⟨u, rfl, made⟩ := versionPlanned planned
  obtain ⟨_, _, rfl⟩ := versionGiven made
  refine ⟨_, rfl, ?_⟩
  change (Update.version _).render.descend ["launchTemplate"] ≠ .null ↔ desired.spec.launchTemplate ≠ none
  rw [templateSlot, Json.optionSet LaunchTemplate.record.codec.write (fun _ => Json.objectShown _), differs]
  exact Iff.rfl

end Nodegroup

namespace Capability

theorem capabilityAccounts {top member : String} {τ : Type} (write : τ → Json) (get : Update → Option τ)
    (plain : Kind.capability.standIns top = [top]) (place : payloadPlace (pathNames top) = [member])
    (shown : ∀ v, write v ≠ .null) (slot : ∀ u : Update, u.render.descend [member] = .ofOption write (get u))
    (sent : ∀ (desired : Desired Spec) (observed : Spec) (u : Update),
      planCapability (binding.input desired observed) = .calls [u] →
        (binding.input desired observed).delta.differsAt top = true →
          (get u ≠ none ↔ Asks desired.spec observed top)) :
    Kind.capability.Accounts planCapability top := by
  refine Kind.accountsFor plain place fun desired observed calls planned differs => ?_
  obtain rfl := (GroupPlan.calls.inj planned).symm
  refine ⟨_, rfl, ?_⟩
  change (Update.render _).descend [member] ≠ .null ↔ _
  rw [slot, Json.optionSet write shown]
  exact sent desired observed _ planned differs

theorem roleAccounts : Kind.capability.Accounts planCapability "roleArn" := by
  refine capabilityAccounts .text Update.roleArn rfl rfl Json.textShown (fun _ => Json.slotOption (by simp) rfl)
    fun desired observed u planned _ => ?_
  cases planned
  exact Iff.rfl

theorem propagationAccounts : Kind.capability.Accounts planCapability "deletePropagationPolicy" := by
  refine capabilityAccounts .text Update.deletePropagationPolicy rfl rfl Json.textShown
    (fun _ => Json.slotOption (by simp) rfl) fun desired observed u planned differs => ?_
  cases planned
  obtain ⟨policy, given⟩ := Json.setOption (Kind.capability.rowDeclared differs rfl rfl)
  refine iff_of_true ?_ trivial
  change desired.spec.deletePropagationPolicy ≠ none
  rw [given]
  nofun

theorem accessAccounts : Kind.capability.Accounts planCapability networkAccessPath := by
  refine capabilityAccounts NetworkAccess.record.codec.write Update.networkAccess rfl rfl (fun _ => Json.objectShown _)
    (fun _ => Json.slotOption (by simp) rfl) fun desired observed u planned differs => ?_
  cases planned
  obtain ⟨access, given⟩ := Json.setOption (Kind.capability.rowDeclared differs rfl rfl)
  refine iff_of_true ?_ trivial
  change (if _ then desired.spec.argoCd.bind ArgoCd.networkAccess else none) ≠ none
  rw [if_pos differs, given]
  nofun

theorem mappingsSent {input : PlanInput Spec} {u : Update} (planned : planCapability input = .calls [u])
    (differs : input.delta.differsAt roleMappingsPath = true) {mappings : List RoleMapping}
    (given : input.desired.roleMappings = some mappings) :
    u.rbacRoleMappings = mappingsChange? mappings (input.observed.roleMappings.getD []) := by
  cases planned
  dsimp only
  rw [if_pos differs, given]

theorem mappingsAccount : Kind.capability.Accounts planCapability roleMappingsPath := by
  refine capabilityAccounts MappingsChange.render Update.rbacRoleMappings rfl rfl (fun _ => Json.objectShown _)
    (fun _ => Json.slotOption (by simp) rfl) fun desired observed u planned differs => ?_
  obtain ⟨mappings, given⟩ := Json.setOption (Kind.capability.rowDeclared differs rfl rfl)
  change u.rbacRoleMappings ≠ none ↔
    ∃ role, heldIdentities desired.spec.roleMappings role ≠ heldIdentities observed.roleMappings role
  rw [mappingsSent planned differs given, given]
  exact KeyedPlan.changeIff RoleMapping.sortedIdentities (fun _ _ => beq_iff_eq) _

end Capability

namespace Cluster

def Update.NameAlone : Update → Prop
  | .config u => ∀ s ∈ u.settings, s.2 = none
  | _ => False

def Undeclared (category : String) (d : Spec) : Prop :=
  category = "compute-storage-network" ∧ d.computeConfig = none ∧ d.storageConfig = none ∧
    d.kubernetesNetworkConfig = none

def BareExactly (g : UpdateGroup Spec Update) : Prop :=
  ∀ input calls, g.plan input = .calls calls → ∀ u ∈ calls, (u.NameAlone ↔ Undeclared g.category input.desired)

theorem bareAlone {category : String} {paths : List String} {plan : PlanInput Spec → GroupPlan Update}
    (alone : ∀ input calls, plan input = .calls calls →
      ∃ u, calls = [u] ∧ (u.NameAlone ↔ Undeclared category input.desired)) : BareExactly ⟨category, paths, plan⟩ := by
  intro input calls planned u member
  obtain ⟨u', rfl, exact⟩ := alone input calls planned
  cases List.mem_singleton.mp member
  exact exact

theorem groupsBare : ∀ g ∈ groups, BareExactly g := by
  have configured (category : String) (paths : List String) (make : PlanInput Spec → ConfigUpdate)
      (exact : ∀ input, (Update.config (make input)).NameAlone ↔ Undeclared category input.desired) :
      BareExactly ⟨category, paths, fun input => .calls [.config (make input)]⟩ :=
    bareAlone fun input _ planned => ⟨_, (GroupPlan.calls.inj planned).symm, exact input⟩
  simp only [groups, List.forall_mem_cons]
  refine ⟨configured _ _ _ ?_, configured _ _ _ ?_, configured _ _ _ ?_, configured _ _ _ ?_,
    bareAlone fun input calls planned => ?_, bareAlone fun input calls planned => ?_,
    bareAlone fun input calls planned => ?_, configured _ _ _ ?_, configured _ _ _ ?_, configured _ _ _ ?_,
    List.forall_mem_nil _⟩
  case refine_5 =>
    obtain ⟨policy, rfl⟩ := upgradeGiven planned
    exact ⟨_, rfl, by simp [Update.NameAlone, ConfigUpdate.settings, Undeclared]⟩
  case refine_6 =>
    obtain ⟨encryption, rfl⟩ := encryptionGiven planned
    exact ⟨_, rfl, by simp [Update.NameAlone, Undeclared]⟩
  case refine_7 =>
    obtain ⟨target, rfl⟩ := versionGiven planned
    exact ⟨_, rfl, by simp [Update.NameAlone, Undeclared]⟩
  all_goals simp [Update.NameAlone, ConfigUpdate.settings, Undeclared]

end Cluster

namespace Kind

theorem accounts {k : Kind} (three : k = .cluster ∨ k = .nodegroup ∨ k = .capability) :
    ∀ g ∈ k.binding.groups, ∀ top ∈ g.paths, k.Accounts g.plan top := by
  rcases three with rfl | rfl | rfl
  · change ∀ g ∈ Cluster.groups, _
    simp only [Cluster.groups, List.forall_mem_cons, List.not_mem_nil, false_implies, implies_true, and_true]
    exact ⟨Cluster.loggingAccounts, ⟨Cluster.privateAccounts, Cluster.publicAccounts, Cluster.cidrsAccount⟩,
      ⟨Cluster.subnetsAccount, Cluster.securityAccounts⟩, Cluster.accessAccounts, Cluster.upgradeAccounts,
      Cluster.encryptionAccounts, Cluster.versionAccounts,
      ⟨Cluster.computeAccounts, Cluster.storageAccounts, Cluster.addressesAccount⟩, Cluster.zonalAccounts,
      Cluster.remoteAccounts⟩
  · change ∀ g ∈ Nodegroup.groups, _
    simp only [Nodegroup.groups, List.forall_mem_cons, List.not_mem_nil, false_implies, implies_true, and_true]
    exact ⟨⟨Nodegroup.labelsAccount, Nodegroup.taintsAccount, Nodegroup.scalingAccounts, Nodegroup.limitsAccount,
      Nodegroup.repairAccounts⟩, Nodegroup.versionAccounts, Nodegroup.releaseAccounts, Nodegroup.templateAccounts⟩
  · change ∀ g ∈ Capability.groups, _
    simp only [Capability.groups, List.forall_mem_cons, List.not_mem_nil, false_implies, implies_true, and_true]
    exact ⟨Capability.roleAccounts, Capability.propagationAccounts, Capability.accessAccounts,
      Capability.mappingsAccount⟩

def NameAlone : (k : Kind) → k.Update → Prop
  | .cluster, u => Cluster.Update.NameAlone u
  | _, _ => False

def Undeclared : (k : Kind) → String → k.Spec → Prop
  | .cluster, category, d => Cluster.Undeclared category d
  | _, _, _ => False

theorem bareExactly (k : Kind) (input : PlanInput k.Spec) :
    ∀ g ∈ k.binding.groups, ∀ calls, g.plan input = .calls calls →
      ∀ u ∈ calls, (k.NameAlone u ↔ k.Undeclared g.category input.desired) := by
  intro g listed calls planned u called
  cases k with
  | cluster => exact Cluster.groupsBare g listed input calls planned u called
  | _ => exact Iff.rfl

/- The one call of an applied pass addresses exactly the differing paths of its group that are asked for. Whatever is
planned, and applied or not, a configuration call of a cluster has more than the name unless its whole concern is
undeclared. -/
theorem differencesAddressed {k : Kind} (three : k = .cluster ∨ k = .nodegroup ∨ k = .capability) (config : Config)
    (answers : Answers k.Spec) (desired : Desired k.Spec) (observed : Observed k.Spec) :
    let pass := k.binding.remediate config answers desired observed
    let input := k.binding.input desired observed.spec
    (∀ category, pass.verdict? = some (.applied category) →
      ∃ g u, Binding.Decides input k.binding.groups g ∧ g.category = category ∧ pass.sent = [u] ∧
        ∀ top ∈ g.paths, input.delta.differsAt top = true →
          (k.Addresses u top ↔ k.Asks desired.spec observed.spec top)) ∧
      ∀ g ∈ k.binding.groups, ∀ calls, g.plan input = .calls calls →
        ∀ u ∈ calls, (k.NameAlone u ↔ k.Undeclared g.category desired.spec) := by
  intro pass input
  refine ⟨fun category applied => ?_, k.bareExactly input⟩
  obtain ⟨calls, chosen, updates, _⟩ := k.binding.appliedSends config answers desired observed applied
  obtain ⟨g, decides, named, planned⟩ := Binding.choiceSend chosen
  have sent : pass.sent = calls :=
    (congrArg (List.map Prod.fst) updates).trans (Answers.answeredUpdates answers 0 calls)
  have accounts := accounts three g decides.listed
  obtain ⟨first, listed, differs⟩ := List.any_eq_true.mp decides.touched
  obtain ⟨u, rfl, _⟩ := accounts first listed desired observed.spec calls planned differs
  refine ⟨g, u, decides, named, sent, fun top asked differs => ?_⟩
  obtain ⟨u', same, exact⟩ := accounts top asked desired observed.spec [u] planned differs
  cases same
  exact exact

theorem declaredLimitAddressed :
    let spec : Nodegroup.Spec := { name := "workers", clusterName := "main" }
    let answers : Answers Nodegroup.Spec := ⟨.ok none, .ok none, fun _ => none, none, .ok .empty, none, none⟩
    let desired : Desired Nodegroup.Spec := ⟨{ spec with scalingConfig := some { maxSize := some 3 } }, .empty, none⟩
    let observed : Observed Nodegroup.Spec :=
      ⟨{ spec with updateConfig := some { maxUnavailable := some 1 } }, some "ACTIVE", none, some .empty⟩
    let pass := Nodegroup.binding.remediate .default answers desired observed
    pass.verdict? = some (.applied "config") ∧
      ∃ u, pass.sent = [u] ∧ Kind.nodegroup.Addresses u "scalingConfig" ∧
        ¬ Kind.nodegroup.Addresses u "updateConfig" := by
  intro spec answers desired observed pass
  have applied : pass.verdict? = some (.applied "config") := by decide +kernel
  obtain ⟨g, u, decides, named, sent, exact⟩ :=
    (differencesAddressed (.inr (.inl rfl)) .default answers desired observed).1 "config" applied
  rcases List.mem_pair.mp decides.listed with rfl | rfl
  · refine ⟨applied, u, sent, ?_, ?_⟩
    · exact (exact "scalingConfig" (by decide) (by decide +kernel)).mpr nofun
    · exact fun addressed => (exact "updateConfig" (by decide) (by decide +kernel)).mp addressed rfl
  · exact absurd named (by decide)

theorem undeclaredSettingUnaddressed :
    let answers : Answers Cluster.Spec := ⟨.ok none, .ok none, fun _ => none, none, .ok .empty, none, none⟩
    let desired : Desired Cluster.Spec := ⟨{ name := "prod" }, .empty, none⟩
    let observed : Observed Cluster.Spec :=
      ⟨{ name := "prod", computeConfig := some { enabled := some true } }, some "ACTIVE", none, some .empty⟩
    let pass := Cluster.binding.remediate .default answers desired observed
    let δ := (Cluster.binding.input desired observed.spec).delta
    pass.verdict? = some (.applied "compute-storage-network") ∧
      ¬ (∃ u ∈ pass.sent, ∃ g ∈ Cluster.groups, g.category = "compute-storage-network" ∧
          ∃ top ∈ g.paths, δ.differsAt top = true ∧ Kind.cluster.Addresses u top) ∧
      pass.sent = [.config { name := "prod" }] := by
  intro answers desired observed pass δ
  have sent : pass.sent = [.config { name := "prod" }] := by decide +kernel
  have nothing : ∀ g ∈ Cluster.groups, g.category = "compute-storage-network" → ∀ top ∈ g.paths,
      (Cluster.Update.config { name := "prod" }).render.descend (pathNames top) = .null := by decide +kernel
  refine ⟨by decide +kernel, ?_, sent⟩
  rintro ⟨u, called, g, listed, named, top, asked, _, p, itself, shown⟩
  rw [sent] at called
  cases List.mem_singleton.mp called
  cases List.mem_singleton.mp itself
  exact shown (nothing g listed named top asked)

end Kind
end DesiredState
