import DesiredState.Kind
import DesiredState.Proofs.AccessEntryPlans
import DesiredState.Proofs.Walks

/-!
What the rows of each kind compare. -/
namespace DesiredState
open Json Record

namespace Cluster

section
variable {β : Type} (inner : List String → β)

def LogSetup.reading (s : LogSetup) : β × Bool := (inner s.types, s.enabled.getD false)

def Logging.reading (l : Logging) : Multiset (β × Bool) := l.clusterLogging.map (LogSetup.reading inner)

def EncryptionConfig.reading (e : EncryptionConfig) : β × String :=
  (inner e.resources, (e.provider.getD {}).keyArn.getD "")

def RemoteNetwork.reading (n : RemoteNetwork) : β := inner n.cidrs

def RemoteNetworkConfig.reading (c : RemoteNetworkConfig) : Multiset β × Multiset β :=
  (c.remoteNodeNetworks.map (RemoteNetwork.reading inner), c.remotePodNetworks.map (RemoteNetwork.reading inner))

end

def VpcConfig.reading (c : VpcConfig) : Multiset String × Multiset String × Bool × Bool × Multiset String :=
  (c.subnetIds, c.securityGroupIds, c.endpointPublicAccess.getD false, c.endpointPrivateAccess.getD false,
    c.publicAccessCidrs)

def AccessConfig.reading (c : AccessConfig) : String := c.authenticationMode.getD ""

def UpgradePolicy.reading (p : UpgradePolicy) : String := p.supportType.getD ""

def ComputeConfig.reading (c : ComputeConfig) : Bool × Multiset String × String :=
  (c.enabled.getD false, c.nodePools, c.nodeRoleArn.getD "")

def Toggle.reading (t : Toggle) : Bool := t.enabled.getD false

def StorageConfig.reading (c : StorageConfig) : Bool := (c.blockStorage.getD {}).reading

def KubernetesNetworkConfig.reading (c : KubernetesNetworkConfig) : Bool × String × String :=
  ((c.elasticLoadBalancing.getD {}).reading, c.ipFamily.getD "", c.serviceIpv4Cidr.getD "")

theorem LogSetup.reads : Json.Reads LogSetup.record.codec.write (LogSetup.reading id) :=
  readsRecord (by decide) <| readsMore (readsListedTexts _ _) <| readsOne (readsOptionalBoolMember _ _)

theorem Logging.traces : Record.Traces Logging.record.members (Logging.reading id) :=
  tracesOne (tracesListed LogSetup.reads _ _)

theorem VpcConfig.traces : Record.Traces VpcConfig.record.members VpcConfig.reading :=
  tracesMore (tracesListedTexts _ _) <| tracesMore (tracesListedTexts _ _) <| tracesMore (tracesOptionalBool _ _) <|
    tracesMore (tracesOptionalBool _ _) <| tracesOne (tracesListedTexts _ _)

theorem AccessConfig.traces : Record.Traces AccessConfig.record.members AccessConfig.reading :=
  tracesOne (tracesOptionalText _ _)

theorem UpgradePolicy.traces : Record.Traces UpgradePolicy.record.members UpgradePolicy.reading :=
  tracesOne (tracesOptionalText _ _)

theorem EncryptionConfig.reads : Json.Reads EncryptionConfig.record.codec.write (EncryptionConfig.reading id) := by
  have provider : Record.Reads Provider.record.members fun p => p.keyArn.getD "" :=
    readsOne (readsOptionalTextMember _ _)
  have unset : Provider.record.document {} = [] := rfl
  exact readsRecord (by decide) <| readsMore (readsListedTexts _ _) <|
    readsOne (readsOptionalMember (readsOptionalRecord unset (by decide) provider) _ _)

theorem ComputeConfig.traces : Record.Traces ComputeConfig.record.members ComputeConfig.reading :=
  tracesMore (tracesOptionalBool _ _) <| tracesMore (tracesListedTexts _ _) <| tracesOne (tracesOptionalText _ _)

theorem Toggle.traces : Record.Traces Toggle.record.members Toggle.reading := tracesOne (tracesOptionalBool _ _)

theorem StorageConfig.traces : Record.Traces StorageConfig.record.members StorageConfig.reading :=
  tracesOne (tracesOptionalMember (tracesBelowRecord (by decide) Toggle.traces rfl) _ _)

theorem KubernetesNetworkConfig.traces :
    Record.Traces KubernetesNetworkConfig.record.members KubernetesNetworkConfig.reading :=
  tracesMore (tracesOptionalMember (tracesBelowRecord (by decide) Toggle.traces rfl) _ _) <|
    tracesMore (tracesOptionalText _ _) <| tracesOne (tracesOptionalText _ _)

theorem RemoteNetwork.reads : Json.Reads RemoteNetwork.record.codec.write (RemoteNetwork.reading id) :=
  readsRecord (by decide) <| readsOne (readsListedTexts _ _)

theorem RemoteNetworkConfig.traces :
    Record.Traces RemoteNetworkConfig.record.members (RemoteNetworkConfig.reading id) :=
  tracesMore (tracesListed RemoteNetwork.reads _ _) <| tracesOne (tracesListed RemoteNetwork.reads _ _)

theorem UpgradePolicy.unset (p : UpgradePolicy) : UpgradePolicy.record.document p = [] ↔ p = {} := by
  rcases p with ⟨_ | _⟩ <;> simp [UpgradePolicy.record, Record.document, Record.optional, Functor.map]

theorem KubernetesNetworkConfig.unset (c : KubernetesNetworkConfig) :
    KubernetesNetworkConfig.record.document c = [] ↔ c = {} := by
  rcases c with ⟨_ | _, _ | _, _ | _⟩ <;>
    simp [KubernetesNetworkConfig.record, Record.document, Record.optional, Functor.map, Seq.seq]

def readings : List (Reading Spec) :=
  [⟨Spec.name⟩, ⟨fun s => s.roleArn.getD ""⟩, ⟨fun s => s.version.getD ""⟩,
    ⟨fun s => (s.logging.getD {}).reading id⟩, ⟨fun s => (s.resourcesVpcConfig.getD {}).reading⟩,
    ⟨fun s => (s.accessConfig.getD {}).reading⟩, ⟨fun s => (s.upgradePolicy.getD {}).reading⟩,
    ⟨fun s => (s.encryptionConfig.map (EncryptionConfig.reading id) : Multiset (List String × String))⟩,
    ⟨fun s => (s.computeConfig.getD {}).reading⟩, ⟨fun s => (s.storageConfig.getD {}).reading⟩,
    ⟨fun s => (s.kubernetesNetworkConfig.getD {}).reading⟩, ⟨fun s => (s.zonalShiftConfig.getD {}).reading⟩,
    ⟨fun s => (s.remoteNetworkConfig.getD {}).reading id⟩]

theorem rows : List.Forall₂ Field.Traced table.fields readings :=
  .cons (Field.tracedWhole rfl (readsText.of _)) <|
  .cons (Field.tracedWhole rfl (readsOptionalText.of _)) <|
  .cons (Field.tracedWhole rfl (readsOptionalText.of _)) <|
  .cons (Field.tracedRecord (by decide) Logging.traces rfl) <|
  .cons (Field.tracedRecord (by decide) VpcConfig.traces rfl) <|
  .cons (Field.tracedRecord (by decide) AccessConfig.traces rfl) <|
  .cons (Field.tracedRecord (by decide) UpgradePolicy.traces rfl) <|
  .cons (Field.tracedBag rfl (fun _ => rfl) EncryptionConfig.reads) <|
  .cons (Field.tracedRecord (by decide) ComputeConfig.traces rfl) <|
  .cons (Field.tracedRecord (by decide) StorageConfig.traces rfl) <|
  .cons (Field.tracedRecord (by decide) KubernetesNetworkConfig.traces rfl) <|
  .cons (Field.tracedRecord (by decide) Toggle.traces rfl) <|
  .cons (Field.tracedRecord (by decide) RemoteNetworkConfig.traces rfl) .nil

end Cluster

namespace Nodegroup

def RemoteAccess.reading (a : RemoteAccess) : String × Multiset String := (a.ec2SshKey.getD "", a.sourceSecurityGroups)

def Taint.reading (t : Taint) : String × String × String := (t.key, t.value.getD "", t.effect)

def Scaling.reading (s : Scaling) : Int64 × Int64 × Int64 := (s.minSize.getD 0, s.maxSize.getD 0, s.desiredSize.getD 0)

def UpdateLimits.reading (l : UpdateLimits) : Int64 × Int64 :=
  (l.maxUnavailable.getD 0, l.maxUnavailablePercentage.getD 0)

def NodeRepair.reading (r : NodeRepair) : Bool := r.enabled.getD false

def LaunchTemplate.reading (t : LaunchTemplate) : String × String × String :=
  (t.id.getD "", t.name.getD "", t.version.getD "")

theorem RemoteAccess.traces : Record.Traces RemoteAccess.record.members RemoteAccess.reading :=
  tracesMore (tracesOptionalText _ _) (tracesOne (tracesListedTexts _ _))

theorem Taint.reads : Json.Reads Taint.record.codec.write Taint.reading :=
  readsRecord (by decide) <| readsMore (readsRequiredText _ _) <|
    readsMore (readsOptionalTextMember _ _) <| readsOne (readsRequiredText _ _)

theorem Scaling.traces : Record.Traces Scaling.record.members Scaling.reading :=
  tracesMore (tracesOptionalInt64 _ _) <| tracesMore (tracesOptionalInt64 _ _) <| tracesOne (tracesOptionalInt64 _ _)

theorem UpdateLimits.traces : Record.Traces UpdateLimits.record.members UpdateLimits.reading :=
  tracesMore (tracesOptionalInt64 _ _) <| tracesOne (tracesOptionalInt64 _ _)

theorem NodeRepair.traces : Record.Traces NodeRepair.record.members NodeRepair.reading :=
  tracesOne (tracesOptionalBool _ _)

theorem LaunchTemplate.traces : Record.Traces LaunchTemplate.record.members LaunchTemplate.reading :=
  tracesMore (tracesOptionalText _ _) <| tracesMore (tracesOptionalText _ _) <| tracesOne (tracesOptionalText _ _)

def readings : List (Reading Spec) :=
  [⟨Spec.name⟩, ⟨Spec.clusterName⟩, ⟨fun s => s.nodeRole.getD ""⟩, ⟨fun s => (s.subnets : Multiset String)⟩,
    ⟨fun s => s.amiType.getD ""⟩, ⟨fun s => s.capacityType.getD ""⟩, ⟨fun s => s.diskSize.getD 0⟩,
    ⟨fun s => (s.instanceTypes : Multiset String)⟩, ⟨fun s => (s.remoteAccess.getD {}).reading⟩,
    ⟨fun s => s.labels.getD .empty⟩, ⟨fun s => (s.taints.map Taint.reading : Multiset (String × String × String))⟩,
    ⟨fun s => (s.scalingConfig.getD {}).reading⟩, ⟨fun s => (s.updateConfig.getD {}).reading⟩,
    ⟨fun s => (s.nodeRepairConfig.getD {}).reading⟩, ⟨fun s => s.version.getD ""⟩,
    ⟨fun s => s.releaseVersion.getD ""⟩, ⟨fun s => (s.launchTemplate.getD {}).reading⟩]

theorem rows : List.Forall₂ Field.Traced table.fields readings :=
  .cons (Field.tracedWhole rfl (readsText.of _)) <|
  .cons (Field.tracedWhole rfl (readsText.of _)) <|
  .cons (Field.tracedWhole rfl (readsOptionalText.of _)) <|
  .cons (Field.tracedTexts rfl fun _ => rfl) <|
  .cons (Field.tracedWhole rfl (readsOptionalText.of _)) <|
  .cons (Field.tracedWhole rfl (readsOptionalText.of _)) <|
  .cons (Field.tracedWhole rfl (readsOptionalInt64.of _)) <|
  .cons (Field.tracedTexts rfl fun _ => rfl) <|
  .cons (Field.tracedRecord (by decide) RemoteAccess.traces rfl) <|
  .cons (Field.tracedMap rfl fun _ _ => SortedMap.sameTexts _ _) <|
  .cons (Field.tracedBag rfl (fun _ => rfl) Taint.reads) <|
  .cons (Field.tracedRecord (by decide) Scaling.traces rfl) <|
  .cons (Field.tracedRecord (by decide) UpdateLimits.traces rfl) <|
  .cons (Field.tracedRecord (by decide) NodeRepair.traces rfl) <|
  .cons (Field.tracedWhole rfl (readsOptionalText.of _)) <|
  .cons (Field.tracedWhole rfl (readsOptionalText.of _)) <|
  .cons (Field.tracedRecord (by decide) LaunchTemplate.traces rfl) .nil

end Nodegroup

namespace Addon

def PodRole.reading (r : PodRole) : String × String := (r.serviceAccount, r.roleArn)

theorem PodRole.reads : Json.Reads PodRole.record.codec.write PodRole.reading :=
  readsRecord (by decide) <| readsMore (readsRequiredText _ _) <| readsOne (readsRequiredText _ _)

def readings : List (Reading Spec) :=
  [⟨Spec.name⟩, ⟨Spec.clusterName⟩, ⟨fun s => s.addonVersion.getD ""⟩, ⟨fun s => s.configurationValues.getD ""⟩,
    ⟨fun s => s.serviceAccountRoleArn.getD ""⟩,
    ⟨fun s => (s.podIdentityAssociations.map PodRole.reading : Multiset (String × String))⟩]

theorem rows : List.Forall₂ Field.Traced table.fields readings :=
  .cons (Field.tracedWhole rfl (readsText.of _)) <|
  .cons (Field.tracedWhole rfl (readsText.of _)) <|
  .cons (Field.tracedWhole rfl (readsOptionalText.of _)) <|
  .cons (Field.tracedWhole rfl (readsOptionalText.of _)) <|
  .cons (Field.tracedWhole rfl (readsOptionalText.of _)) <|
  .cons (Field.tracedBag rfl (fun _ => rfl) PodRole.reads) .nil

end Addon

namespace AccessEntry

def AccessPolicy.reading (p : AccessPolicy) : String × String × Multiset String :=
  (p.policyArn, p.accessScope.type.getD "", p.accessScope.namespaces.getD [])

theorem AccessPolicy.reads :
    Json.Reads (fun p => AccessPolicy.record.codec.write p.normalized) AccessPolicy.reading := by
  intro p q
  rw [agreePolicies]
  unfold AccessPolicy.meaning AccessPolicy.reading AccessScope.normalized
  rw [Prod.mk.injEq, Prod.mk.injEq, Prod.mk.injEq, Prod.mk.injEq, Multiset.coe_eq_coe, sortedIff compare]

def readings : List (Reading Spec) :=
  [⟨Spec.clusterName⟩, ⟨Spec.principalArn⟩, ⟨fun s => s.type.getD ""⟩,
    ⟨fun s => (s.kubernetesGroups : Multiset String)⟩, ⟨fun s => s.username.getD ""⟩,
    ⟨fun s => (s.accessPolicies.map AccessPolicy.reading : Multiset (String × String × Multiset String))⟩]

theorem rows : List.Forall₂ Field.Traced table.fields readings :=
  .cons (Field.tracedWhole rfl (readsText.of _)) <|
  .cons (Field.tracedWhole rfl (readsText.of _)) <|
  .cons (Field.tracedWhole rfl (readsOptionalText.of _)) <|
  .cons (Field.tracedTexts rfl fun _ => rfl) <|
  .cons (Field.tracedWhole rfl (readsOptionalText.of _)) <|
  .cons (Field.tracedBag rfl (fun _ => congrArg some List.map_map) AccessPolicy.reads) .nil

end AccessEntry

namespace FargateProfile

def Selector.reading (s : Selector) : String × StringMap := (s.nameSpace, SortedMap.filled (s.labels.getD .empty))

theorem Selector.reads : Json.Reads Selector.record.codec.write Selector.reading :=
  readsRecord (by decide) <| readsMore (readsRequiredText _ _) <|
    readsOne (readsOptionalMember SortedMap.readsTexts _ _)

def readings : List (Reading Spec) :=
  [⟨Spec.name⟩, ⟨Spec.clusterName⟩, ⟨fun s => s.podExecutionRoleArn.getD ""⟩,
    ⟨fun s => (s.subnets : Multiset String)⟩,
    ⟨fun s => (s.selectors.map Selector.reading : Multiset (String × StringMap))⟩]

theorem rows : List.Forall₂ Field.Traced table.fields readings :=
  .cons (Field.tracedWhole rfl (readsText.of _)) <|
  .cons (Field.tracedWhole rfl (readsText.of _)) <|
  .cons (Field.tracedWhole rfl (readsOptionalText.of _)) <|
  .cons (Field.tracedTexts rfl fun _ => rfl) <|
  .cons (Field.tracedBag rfl (fun _ => rfl) Selector.reads) .nil

end FargateProfile

namespace Capability

def IdentityCenter.reading (c : IdentityCenter) : String × String := (c.idcInstanceArn.getD "", c.idcRegion.getD "")

def NetworkAccess.reading (a : NetworkAccess) : Multiset String := a.vpceIds

def RoleMapping.reading (m : RoleMapping) : String × Multiset Identity := (m.role, m.identities)

theorem IdentityCenter.traces : Record.Traces IdentityCenter.record.members IdentityCenter.reading :=
  tracesMore (tracesOptionalText _ _) <| tracesOne (tracesOptionalText _ _)

theorem NetworkAccess.traces : Record.Traces NetworkAccess.record.members NetworkAccess.reading :=
  tracesOne (tracesListedTexts _ _)

instance : Std.TransCmp Identity.order :=
  inferInstanceAs (Std.TransCmp (compareLex (compareOn Identity.id) (compareOn Identity.type)))

instance : Std.LawfulEqCmp Identity.order where
  compare_self {a} :=
    (Std.ReflCmp.compare_self : compareLex (compareOn Identity.id) (compareOn Identity.type) a a = .eq)
  eq_of_compare {a b} same := by
    obtain ⟨id, type⟩ := Ordering.then_eq_eq.mp same
    cases a
    cases b
    rw [Identity.mk.injEq]
    exact ⟨Std.compare_eq_iff_eq.mp id, Std.compare_eq_iff_eq.mp type⟩

theorem Identity.reads : Json.Reads Identity.record.codec.write fun i => i := by
  have members : Json.Reads Identity.record.codec.write fun i => (i.id, i.type) :=
    readsRecord (by decide) <| readsMore (readsRequiredText _ _) <| readsOne (readsRequiredText _ _)
  intro i j
  rw [members, Prod.mk.injEq, ← Identity.mk.injEq]

theorem RoleMapping.reads : Json.Reads (fun m => RoleMapping.record.codec.write m.sorted) RoleMapping.reading := by
  have identities : Json.Reads (Member.value ⟨"identities", fun m : RoleMapping =>
      some ((Codec.list Identity.record.codec).write m.identities)⟩) fun m => m.identities.map fun i => i :=
    Json.readsItems (fun _ => rfl) Identity.reads
  simp only [List.map_id'] at identities
  have members : Json.Reads RoleMapping.record.codec.write fun m => (m.role, m.identities) :=
    readsRecord (by decide) <| readsMore (readsRequiredText _ _) <| readsOne identities
  intro m n
  rw [members]
  unfold RoleMapping.sorted RoleMapping.reading RoleMapping.sortedIdentities
  rw [Prod.mk.injEq, Prod.mk.injEq, Multiset.coe_eq_coe, sortedIff Identity.order]

theorem IdentityCenter.unset (c : IdentityCenter) : IdentityCenter.record.document c = [] ↔ c = {} := by
  rcases c with ⟨_ | _, _ | _⟩ <;>
    simp [IdentityCenter.record, Record.document, Record.optional, Functor.map, Seq.seq]

theorem NetworkAccess.unset (a : NetworkAccess) : NetworkAccess.record.document a = [] ↔ a = {} := by
  rcases a with ⟨_ | _⟩ <;> simp [NetworkAccess.record, Record.document, Record.listed, Functor.map]

theorem zeroMappings (o : Option (List RoleMapping)) :
    (ofOption (fun ms => RoleMapping.record.codec.list.write (ms.map RoleMapping.sorted)) o).isZero = true ↔
      o.getD [] = [] :=
  zeroOptional (fun _ => (zeroList _ _).trans List.map_eq_nil_iff) o

def readings : List (Reading Spec) :=
  [⟨Spec.name⟩, ⟨Spec.clusterName⟩, ⟨fun s => s.type.getD ""⟩, ⟨fun s => s.roleArn.getD ""⟩,
    ⟨fun s => s.deletePropagationPolicy.getD ""⟩, ⟨fun s => (s.argoCd.bind ArgoCd.nameSpace).getD ""⟩,
    ⟨fun s => ((s.argoCd.bind ArgoCd.awsIdc).getD {}).reading⟩,
    ⟨fun s => ((s.argoCd.bind ArgoCd.networkAccess).getD {}).reading⟩,
    ⟨fun s => ((s.roleMappings.getD []).map RoleMapping.reading : Multiset (String × Multiset Identity))⟩]

theorem shownMappings (o : Option (List RoleMapping)) :
    (Json.ofOption (fun ms => RoleMapping.record.codec.list.write (ms.map RoleMapping.sorted)) o).items? =
      some ((o.getD []).map fun m => RoleMapping.record.codec.write m.sorted) := by
  cases o with
  | none => rfl
  | some ms => exact congrArg some List.map_map

theorem rows : List.Forall₂ Field.Traced table.fields readings :=
  .cons (Field.tracedWhole rfl (readsText.of _)) <|
  .cons (Field.tracedWhole rfl (readsText.of _)) <|
  .cons (Field.tracedWhole rfl (readsOptionalText.of _)) <|
  .cons (Field.tracedWhole rfl (readsOptionalText.of _)) <|
  .cons (Field.tracedWhole rfl (readsOptionalText.of _)) <|
  .cons (Field.tracedWhole rfl (readsOptionalText.of _)) <|
  .cons (Field.tracedRecord (by decide) IdentityCenter.traces rfl) <|
  .cons (Field.tracedRecord (by decide) NetworkAccess.traces rfl) <|
  .cons (Field.tracedBag rfl (fun _ => shownMappings _) RoleMapping.reads) .nil

end Capability

namespace PodIdentityAssociation

def readings : List (Reading Spec) :=
  [⟨Spec.clusterName⟩, ⟨Spec.nameSpace⟩, ⟨Spec.serviceAccount⟩, ⟨fun s => s.roleArn.getD ""⟩,
    ⟨fun s => s.targetRoleArn.getD ""⟩, ⟨fun s => s.disableSessionTags.getD false⟩]

theorem rows : List.Forall₂ Field.Traced table.fields readings :=
  .cons (Field.tracedWhole rfl (readsText.of _)) <|
  .cons (Field.tracedWhole rfl (readsText.of _)) <|
  .cons (Field.tracedWhole rfl (readsText.of _)) <|
  .cons (Field.tracedWhole rfl (readsOptionalText.of _)) <|
  .cons (Field.tracedWhole rfl (readsOptionalText.of _)) <|
  .cons (Field.tracedWhole rfl (readsOptionalBool.of _)) .nil

end PodIdentityAssociation

namespace IdentityProviderConfig

def Oidc.reading (o : Oidc) : String × String × String × String × String × String × String × StringMap :=
  (o.identityProviderConfigName, o.issuerUrl.getD "", o.clientId.getD "", o.usernameClaim.getD "",
    o.usernamePrefix.getD "", o.groupsClaim.getD "", o.groupsPrefix.getD "",
    SortedMap.filled (o.requiredClaims.getD .empty))

theorem Oidc.traces : Record.Traces Oidc.record.members Oidc.reading :=
  tracesMore (tracesRequiredText _ _) <| tracesMore (tracesOptionalText _ _) <| tracesMore (tracesOptionalText _ _) <|
    tracesMore (tracesOptionalText _ _) <| tracesMore (tracesOptionalText _ _) <|
    tracesMore (tracesOptionalText _ _) <| tracesMore (tracesOptionalText _ _) <|
    tracesOne (tracesOptionalMember SortedMap.tracesBelowTexts _ _)

def readings : List (Reading Spec) := [⟨Spec.clusterName⟩, ⟨fun s => s.oidc.reading⟩]

theorem rows : List.Forall₂ Field.Traced table.fields readings :=
  .cons (Field.tracedWhole rfl (readsText.of _)) <|
  .cons (Field.tracedNested rfl ((tracesRecord (by decide) Oidc.traces).of _)) .nil

end IdentityProviderConfig
end DesiredState
