import DesiredState.Proofs.SpecReadings
import Mathlib.Data.Multiset.MapFold
import Mathlib.Tactic.MkIffOfInductiveProp

/-!
No drift is hidden. Two specs agree when every field reads alike: an unset member is the zero of its type, an unset
struct one with nothing set, a list a bag, and a map loses its empty texts unless it holds the labels of a
nodegroup. A field that counts only when asked for is passed over while it is unset or zero; tags never count. -/
namespace DesiredState
open Json

namespace Cluster

@[mk_iff]
structure Agrees {β : Type} (inner : List String → β) (d o : Spec) : Prop where
  name : d.name = o.name
  roleArn : d.roleArn.getD "" = o.roleArn.getD ""
  version : d.version.getD "" = "" ∨ d.version.getD "" = o.version.getD ""
  logging : (d.logging.getD {}).reading inner = (o.logging.getD {}).reading inner
  resourcesVpcConfig : (d.resourcesVpcConfig.getD {}).reading = (o.resourcesVpcConfig.getD {}).reading
  accessConfig : (d.accessConfig.getD {}).reading = (o.accessConfig.getD {}).reading
  upgradePolicy :
    d.upgradePolicy.getD {} = {} ∨ (d.upgradePolicy.getD {}).reading = (o.upgradePolicy.getD {}).reading
  encryptionConfig : (d.encryptionConfig.map (EncryptionConfig.reading inner) : Multiset (β × String)) =
    o.encryptionConfig.map (EncryptionConfig.reading inner)
  computeConfig : (d.computeConfig.getD {}).reading = (o.computeConfig.getD {}).reading
  storageConfig : (d.storageConfig.getD {}).reading = (o.storageConfig.getD {}).reading
  kubernetesNetworkConfig : d.kubernetesNetworkConfig.getD {} = {} ∨
    (d.kubernetesNetworkConfig.getD {}).reading = (o.kubernetesNetworkConfig.getD {}).reading
  zonalShiftConfig : (d.zonalShiftConfig.getD {}).reading = (o.zonalShiftConfig.getD {}).reading
  remoteNetworkConfig :
    (d.remoteNetworkConfig.getD {}).reading inner = (o.remoteNetworkConfig.getD {}).reading inner

theorem silentIffAgrees (d o : Spec) : (table.raw d o).isEmpty = true ↔ Agrees id d o := by
  rw [FieldTable.silentIff rows, agrees_iff]
  simp [table, readings, Field.ignores, Field.always, Field.whenSet, zeroOptionalText,
    zeroOptionalRecord UpgradePolicy.unset, zeroOptionalRecord KubernetesNetworkConfig.unset]

section
variable {β : Type} (inner : List String → β)

theorem innerLogging (l : Logging) : l.reading inner = (l.reading id).map (Prod.map inner id) := by
  unfold Logging.reading
  rw [Multiset.map_coe, List.map_map]
  rfl

theorem innerEncryption (es : List EncryptionConfig) :
    (es.map (EncryptionConfig.reading inner) : Multiset (β × String)) =
      (es.map (EncryptionConfig.reading id) : Multiset (List String × String)).map (Prod.map inner id) := by
  rw [Multiset.map_coe, List.map_map]
  rfl

theorem innerNetworks (c : RemoteNetworkConfig) :
    c.reading inner = ((c.reading id).1.map inner, (c.reading id).2.map inner) := by
  unfold RemoteNetworkConfig.reading
  rw [Multiset.map_coe, Multiset.map_coe, List.map_map, List.map_map]
  rfl

theorem Agrees.however {d o : Spec} (agrees : Agrees id d o) : Agrees inner d o where
  __ := agrees
  logging := by rw [innerLogging, agrees.logging, ← innerLogging]
  encryptionConfig := by rw [innerEncryption, agrees.encryptionConfig, ← innerEncryption]
  remoteNetworkConfig := by rw [innerNetworks, agrees.remoteNetworkConfig, ← innerNetworks]

end

end Cluster

namespace Nodegroup

@[mk_iff]
structure Agrees (d o : Spec) : Prop where
  name : d.name = o.name
  clusterName : d.clusterName = o.clusterName
  nodeRole : d.nodeRole.getD "" = o.nodeRole.getD ""
  subnets : (d.subnets : Multiset String) = o.subnets
  amiType : d.amiType.getD "" = "" ∨ d.amiType.getD "" = o.amiType.getD ""
  capacityType : d.capacityType.getD "" = "" ∨ d.capacityType.getD "" = o.capacityType.getD ""
  diskSize : d.diskSize.getD 0 = 0 ∨ d.diskSize.getD 0 = o.diskSize.getD 0
  instanceTypes : d.instanceTypes = [] ∨ (d.instanceTypes : Multiset String) = o.instanceTypes
  remoteAccess : (d.remoteAccess.getD {}).reading = (o.remoteAccess.getD {}).reading
  labels : d.labels.getD .empty = o.labels.getD .empty
  taints : (d.taints.map Taint.reading : Multiset (String × String × String)) = o.taints.map Taint.reading
  scalingConfig : (d.scalingConfig.getD {}).reading = (o.scalingConfig.getD {}).reading
  updateConfig : (d.updateConfig.getD {}).reading = (o.updateConfig.getD {}).reading
  nodeRepairConfig : (d.nodeRepairConfig.getD {}).reading = (o.nodeRepairConfig.getD {}).reading
  version : d.version.getD "" = "" ∨ d.version.getD "" = o.version.getD ""
  releaseVersion : d.releaseVersion.getD "" = "" ∨ d.releaseVersion.getD "" = o.releaseVersion.getD ""
  launchTemplate : (d.launchTemplate.getD {}).reading = (o.launchTemplate.getD {}).reading

theorem silentIffAgrees (d o : Spec) : (table.raw d o).isEmpty = true ↔ Agrees d o := by
  rw [FieldTable.silentIff rows, agrees_iff]
  simp [table, readings, Field.ignores, Field.always, Field.whenSet, zeroOptionalText, zeroOptionalInt64, zeroList]

end Nodegroup

namespace Addon

@[mk_iff]
structure Agrees (d o : Spec) : Prop where
  name : d.name = o.name
  clusterName : d.clusterName = o.clusterName
  addonVersion : d.addonVersion.getD "" = o.addonVersion.getD ""
  configurationValues : d.configurationValues.getD "" = o.configurationValues.getD ""
  serviceAccountRoleArn : d.serviceAccountRoleArn.getD "" = o.serviceAccountRoleArn.getD ""
  podIdentityAssociations : (d.podIdentityAssociations.map PodRole.reading : Multiset (String × String)) =
    o.podIdentityAssociations.map PodRole.reading

theorem silentIffAgrees (d o : Spec) : (table.raw d o).isEmpty = true ↔ Agrees d o := by
  rw [FieldTable.silentIff rows, agrees_iff]
  simp [table, readings, Field.ignores, Field.always]

end Addon

namespace AccessEntry

@[mk_iff]
structure Agrees (d o : Spec) : Prop where
  clusterName : d.clusterName = o.clusterName
  principalArn : d.principalArn = o.principalArn
  type : d.type.getD "" = "" ∨ d.type.getD "" = o.type.getD ""
  kubernetesGroups : (d.kubernetesGroups : Multiset String) = o.kubernetesGroups
  username : d.username.getD "" = "" ∨ d.username.getD "" = o.username.getD ""
  accessPolicies : (d.accessPolicies.map AccessPolicy.reading : Multiset (String × String × Multiset String)) =
    o.accessPolicies.map AccessPolicy.reading

theorem silentIffAgrees (d o : Spec) : (table.raw d o).isEmpty = true ↔ Agrees d o := by
  rw [FieldTable.silentIff rows, agrees_iff]
  simp [table, readings, Field.ignores, Field.always, Field.whenSet, zeroOptionalText]

end AccessEntry

namespace FargateProfile

@[mk_iff]
structure Agrees (d o : Spec) : Prop where
  name : d.name = o.name
  clusterName : d.clusterName = o.clusterName
  podExecutionRoleArn : d.podExecutionRoleArn.getD "" = o.podExecutionRoleArn.getD ""
  subnets : (d.subnets : Multiset String) = o.subnets
  selectors : (d.selectors.map Selector.reading : Multiset (String × StringMap)) = o.selectors.map Selector.reading

theorem silentIffAgrees (d o : Spec) : (table.raw d o).isEmpty = true ↔ Agrees d o := by
  rw [FieldTable.silentIff rows, agrees_iff]
  simp [table, readings, Field.ignores, Field.always]

end FargateProfile

namespace Capability

@[mk_iff]
structure Agrees (d o : Spec) : Prop where
  name : d.name = o.name
  clusterName : d.clusterName = o.clusterName
  type : d.type.getD "" = "" ∨ d.type.getD "" = o.type.getD ""
  roleArn : d.roleArn.getD "" = o.roleArn.getD ""
  deletePropagationPolicy : d.deletePropagationPolicy.getD "" = "" ∨
    d.deletePropagationPolicy.getD "" = o.deletePropagationPolicy.getD ""
  nameSpace : (d.argoCd.bind ArgoCd.nameSpace).getD "" = "" ∨
    (d.argoCd.bind ArgoCd.nameSpace).getD "" = (o.argoCd.bind ArgoCd.nameSpace).getD ""
  awsIdc : (d.argoCd.bind ArgoCd.awsIdc).getD {} = {} ∨
    ((d.argoCd.bind ArgoCd.awsIdc).getD {}).reading = ((o.argoCd.bind ArgoCd.awsIdc).getD {}).reading
  networkAccess : (d.argoCd.bind ArgoCd.networkAccess).getD {} = {} ∨
    ((d.argoCd.bind ArgoCd.networkAccess).getD {}).reading = ((o.argoCd.bind ArgoCd.networkAccess).getD {}).reading
  roleMappings : d.roleMappings.getD [] = [] ∨
    ((d.roleMappings.getD []).map RoleMapping.reading : Multiset (String × Multiset Identity)) =
      (o.roleMappings.getD []).map RoleMapping.reading

theorem silentIffAgrees (d o : Spec) : (table.raw d o).isEmpty = true ↔ Agrees d o := by
  rw [FieldTable.silentIff rows, agrees_iff]
  simp [table, readings, Field.ignores, Field.always, Field.whenSet, zeroOptionalText,
    zeroOptionalRecord IdentityCenter.unset, zeroOptionalRecord NetworkAccess.unset, zeroMappings]

end Capability

namespace PodIdentityAssociation

@[mk_iff]
structure Agrees (d o : Spec) : Prop where
  clusterName : d.clusterName = o.clusterName
  nameSpace : d.nameSpace = o.nameSpace
  serviceAccount : d.serviceAccount = o.serviceAccount
  roleArn : d.roleArn.getD "" = o.roleArn.getD ""
  targetRoleArn : d.targetRoleArn.getD "" = o.targetRoleArn.getD ""
  disableSessionTags : d.disableSessionTags.getD false = o.disableSessionTags.getD false

theorem silentIffAgrees (d o : Spec) : (table.raw d o).isEmpty = true ↔ Agrees d o := by
  rw [FieldTable.silentIff rows, agrees_iff]
  simp [table, readings, Field.ignores, Field.always]

end PodIdentityAssociation

namespace IdentityProviderConfig

@[mk_iff]
structure Agrees (d o : Spec) : Prop where
  clusterName : d.clusterName = o.clusterName
  oidc : d.oidc.reading = o.oidc.reading

theorem silentIffAgrees (d o : Spec) : (table.raw d o).isEmpty = true ↔ Agrees d o := by
  rw [FieldTable.silentIff rows, agrees_iff]
  simp [table, readings, Field.ignores, Field.always]

end IdentityProviderConfig

namespace Kind

/- `inner` says what counts of a list that sits inside an item of a list. -/
def Agrees {β : Type} (inner : List String → β) : (k : Kind) → k.Spec → k.Spec → Prop
  | .cluster => Cluster.Agrees inner
  | .nodegroup => Nodegroup.Agrees
  | .addon => Addon.Agrees
  | .accessEntry => AccessEntry.Agrees
  | .fargateProfile => FargateProfile.Agrees
  | .capability => Capability.Agrees
  | .podIdentityAssociation => PodIdentityAssociation.Agrees
  | .identityProviderConfig => IdentityProviderConfig.Agrees

theorem silentIffAgrees (k : Kind) (d o : k.Spec) : (k.binding.table.raw d o).isEmpty = true ↔ k.Agrees id d o :=
  match k with
  | .cluster => Cluster.silentIffAgrees d o
  | .nodegroup => Nodegroup.silentIffAgrees d o
  | .addon => Addon.silentIffAgrees d o
  | .accessEntry => AccessEntry.silentIffAgrees d o
  | .fargateProfile => FargateProfile.silentIffAgrees d o
  | .capability => Capability.silentIffAgrees d o
  | .podIdentityAssociation => PodIdentityAssociation.silentIffAgrees d o
  | .identityProviderConfig => IdentityProviderConfig.silentIffAgrees d o

theorem Agrees.however {β : Type} (inner : List String → β) (k : Kind) {d o : k.Spec} (agrees : k.Agrees id d o) :
    k.Agrees inner d o := by
  cases k with
  | cluster => exact Cluster.Agrees.however inner agrees
  | _ => exact agrees

/- An empty delta means that the specs agree. Specs that agree with no list moved inside an item of a list have an
empty delta; policies and mappings are read with their own lists sorted, so these may move as well. -/
theorem noHiddenDrift (k : Kind) (d o : k.Spec) :
    ((k.binding.table.raw d o).isEmpty = true → k.Agrees Multiset.ofList d o) ∧
      (k.Agrees id d o → (k.binding.table.raw d o).isEmpty = true) :=
  ⟨fun silent => Agrees.however Multiset.ofList k ((k.silentIffAgrees d o).mp silent), (k.silentIffAgrees d o).mpr⟩

theorem zeroDiskSilent :
    let d : Nodegroup.Spec := { name := "workers", clusterName := "main", subnets := ["a", "b"], diskSize := some 0 }
    let o : Nodegroup.Spec :=
      { name := "workers", clusterName := "main", subnets := ["b", "a"], labels := some .empty, version := some "1.31" }
    (Nodegroup.table.raw d o).isEmpty = true := by
  intro d o
  have agrees : Nodegroup.Agrees d o := (Nodegroup.agrees_iff d o).mpr (by decide)
  exact (noHiddenDrift .nodegroup d o).2 agrees

end Kind
end DesiredState
