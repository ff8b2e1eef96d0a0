import DesiredState.Proofs.SpecReadings
import Mathlib.Data.Multiset.ZeroCons

/-!
Order never counts. A spec is reordered by permuting lists that are reached through structs only, and the lists
inside policies and mappings. It reads the same in every row, so it differs from others in the same places. -/
namespace DesiredState
open Json

def SameItems {α : Type} (related : α → α → Prop) (xs ys : List α) : Prop :=
  ∃ zs, List.Forall₂ related xs zs ∧ zs.Perm ys

section
variable {α ρ : Type} {related : α → α → Prop} {r : α → ρ}

theorem readOptional {x y : Option α} (same : Option.Rel related x y) (keeps : ∀ {a b}, related a b → r a = r b)
    (blank : α) : r (x.getD blank) = r (y.getD blank) := by
  cases same with
  | none => rfl
  | some here => exact keeps here

theorem readItems {xs ys : List α} (same : SameItems related xs ys) (keeps : ∀ {a b}, related a b → r a = r b) :
    (xs.map r).Perm (ys.map r) := by
  obtain ⟨zs, each, perm⟩ := same
  have images : xs.map r = zs.map r := by
    clear perm
    induction each with
    | nil => rfl
    | cons here _ ih => rw [List.map_cons, List.map_cons, keeps here, ih]
  rw [images]
  exact perm.map r

theorem relatedBind {β : Type} {inner : β → β → Prop} {f : α → Option β} {x y : Option α}
    (same : Option.Rel related x y) (keeps : ∀ {a b}, related a b → Option.Rel inner (f a) (f b)) :
    Option.Rel inner (x.bind f) (y.bind f) := by
  cases same with
  | none => exact .none
  | some here => exact keeps here

theorem sameBind {β : Type} {f : α → Option β} {x y : Option α} (same : Option.Rel related x y)
    (keeps : ∀ {a b}, related a b → f a = f b) : x.bind f = y.bind f := by
  cases same with
  | none => rfl
  | some here => exact keeps here

end

theorem zeroPerm {α : Type} (c : Codec α) {xs ys : List α} (perm : xs.Perm ys) :
    (c.list.write xs).isZero = (c.list.write ys).isZero := by
  rw [Bool.eq_iff_iff, zeroList, zeroList, ← List.length_eq_zero_iff, ← List.length_eq_zero_iff, perm.length_eq]

def SameRow {σ : Type} (s s' : σ) (y : Field σ × Reading σ) : Prop :=
  y.1.ignores s = y.1.ignores s' ∧ y.2.read s = y.2.read s'

theorem FieldTable.sameRows {σ : Type} {t : FieldTable σ} {xs : List (Reading σ)}
    (rows : List.Forall₂ Field.Traced t.fields xs) {d d' o o' : σ} (desired : ∀ y ∈ t.fields.zip xs, SameRow d d' y)
    (observed : ∀ y ∈ t.fields.zip xs, SameRow o o' y) : (t.raw d o).paths = (t.raw d' o').paths := by
  refine samePaths ?_
  generalize t.fields = fields at rows desired observed
  induction rows with
  | nil => simp
  | cons row _ ih =>
    rw [List.zip_cons_cons, List.forall_mem_cons] at desired observed
    obtain ⟨set, left⟩ := desired.1
    refine List.forall_mem_cons.mpr ⟨?_, ih desired.2 observed.2⟩
    exact row.places set left observed.1.2

namespace Cluster

inductive Logging.Reordered (l : Logging) : Logging → Prop where
  | of {setups : List LogSetup} (clusterLogging : l.clusterLogging.Perm setups) :
    Reordered l { l with clusterLogging := setups }

inductive VpcConfig.Reordered (c : VpcConfig) : VpcConfig → Prop where
  | of {subnets groups cidrs : List String} (subnetIds : c.subnetIds.Perm subnets)
    (securityGroupIds : c.securityGroupIds.Perm groups) (publicAccessCidrs : c.publicAccessCidrs.Perm cidrs) :
    Reordered c { c with subnetIds := subnets, securityGroupIds := groups, publicAccessCidrs := cidrs }

inductive ComputeConfig.Reordered (c : ComputeConfig) : ComputeConfig → Prop where
  | of {pools : List String} (nodePools : c.nodePools.Perm pools) : Reordered c { c with nodePools := pools }

inductive RemoteNetworkConfig.Reordered (c : RemoteNetworkConfig) : RemoteNetworkConfig → Prop where
  | of {nodes pods : List RemoteNetwork} (remoteNodeNetworks : c.remoteNodeNetworks.Perm nodes)
    (remotePodNetworks : c.remotePodNetworks.Perm pods) :
    Reordered c { c with remoteNodeNetworks := nodes, remotePodNetworks := pods }

inductive Reordered (s : Spec) : Spec → Prop where
  | of {logs : Option Logging} {vpc : Option VpcConfig} {encryption : List EncryptionConfig}
    {compute : Option ComputeConfig} {remote : Option RemoteNetworkConfig}
    (logging : Option.Rel Logging.Reordered s.logging logs)
    (resourcesVpcConfig : Option.Rel VpcConfig.Reordered s.resourcesVpcConfig vpc)
    (encryptionConfig : s.encryptionConfig.Perm encryption)
    (computeConfig : Option.Rel ComputeConfig.Reordered s.computeConfig compute)
    (remoteNetworkConfig : Option.Rel RemoteNetworkConfig.Reordered s.remoteNetworkConfig remote) :
    Reordered s { s with logging := logs, resourcesVpcConfig := vpc, encryptionConfig := encryption,
                         computeConfig := compute, remoteNetworkConfig := remote }

theorem Logging.Reordered.read {l m : Logging} (reordered : l.Reordered m) : l.reading id = m.reading id := by
  cases reordered with
  | of setups => exact Multiset.coe_eq_coe.mpr (setups.map _)

theorem VpcConfig.Reordered.read {c e : VpcConfig} (reordered : c.Reordered e) : c.reading = e.reading := by
  cases reordered with
  | of subnets groups cidrs =>
    simp only [VpcConfig.reading, Multiset.coe_eq_coe.mpr subnets, Multiset.coe_eq_coe.mpr groups,
      Multiset.coe_eq_coe.mpr cidrs]

theorem ComputeConfig.Reordered.read {c e : ComputeConfig} (reordered : c.Reordered e) : c.reading = e.reading := by
  cases reordered with
  | of pools => simp only [ComputeConfig.reading, Multiset.coe_eq_coe.mpr pools]

theorem RemoteNetworkConfig.Reordered.read {c e : RemoteNetworkConfig} (reordered : c.Reordered e) :
    c.reading id = e.reading id := by
  cases reordered with
  | of nodes pods =>
    simp only [RemoteNetworkConfig.reading, Multiset.coe_eq_coe.mpr (nodes.map _), Multiset.coe_eq_coe.mpr (pods.map _)]

theorem Reordered.sameRows {s s' : Spec} (reordered : Reordered s s') :
    ∀ y ∈ table.fields.zip readings, SameRow s s' y := by
  cases reordered with
  | of logging vpc encryption compute remote =>
    simp [table, readings, SameRow, Field.ignores, Field.always, Field.whenSet,
      readOptional logging Logging.Reordered.read, readOptional vpc VpcConfig.Reordered.read,
      encryption.map (EncryptionConfig.reading id), readOptional compute ComputeConfig.Reordered.read,
      readOptional remote RemoteNetworkConfig.Reordered.read]

end Cluster

namespace Nodegroup

inductive RemoteAccess.Reordered (a : RemoteAccess) : RemoteAccess → Prop where
  | of {groups : List String} (sourceSecurityGroups : a.sourceSecurityGroups.Perm groups) :
    Reordered a { a with sourceSecurityGroups := groups }

inductive Reordered (s : Spec) : Spec → Prop where
  | of {nets instances : List String} {access : Option RemoteAccess} {marks : List Taint}
    (subnets : s.subnets.Perm nets) (instanceTypes : s.instanceTypes.Perm instances)
    (remoteAccess : Option.Rel RemoteAccess.Reordered s.remoteAccess access) (taints : s.taints.Perm marks) :
    Reordered s { s with subnets := nets, instanceTypes := instances, remoteAccess := access, taints := marks }

theorem RemoteAccess.Reordered.read {a e : RemoteAccess} (reordered : a.Reordered e) : a.reading = e.reading := by
  cases reordered with
  | of groups => simp only [RemoteAccess.reading, Multiset.coe_eq_coe.mpr groups]

theorem Reordered.sameRows {s s' : Spec} (reordered : Reordered s s') :
    ∀ y ∈ table.fields.zip readings, SameRow s s' y := by
  cases reordered with
  | of subnets instanceTypes remoteAccess taints =>
    simp [table, readings, SameRow, Field.ignores, Field.always, Field.whenSet, subnets, instanceTypes,
      zeroPerm Codec.text instanceTypes, readOptional remoteAccess RemoteAccess.Reordered.read,
      taints.map Taint.reading]

end Nodegroup

namespace Addon

inductive Reordered (s : Spec) : Spec → Prop where
  | of {roles : List PodRole} (podIdentityAssociations : s.podIdentityAssociations.Perm roles) :
    Reordered s { s with podIdentityAssociations := roles }

theorem Reordered.sameRows {s s' : Spec} (reordered : Reordered s s') :
    ∀ y ∈ table.fields.zip readings, SameRow s s' y := by
  cases reordered with
  | of roles => simp [table, readings, SameRow, Field.ignores, Field.always, roles.map PodRole.reading]

end Addon

namespace AccessEntry

inductive AccessPolicy.Reordered (p : AccessPolicy) : AccessPolicy → Prop where
  | of {spaces : Option (List String)} (namespaces : Option.Rel List.Perm p.accessScope.namespaces spaces) :
    Reordered p { p with accessScope := { p.accessScope with namespaces := spaces } }

inductive Reordered (s : Spec) : Spec → Prop where
  | of {groups : List String} {policies : List AccessPolicy} (kubernetesGroups : s.kubernetesGroups.Perm groups)
    (accessPolicies : SameItems AccessPolicy.Reordered s.accessPolicies policies) :
    Reordered s { s with kubernetesGroups := groups, accessPolicies := policies }

theorem AccessPolicy.Reordered.read {p q : AccessPolicy} (reordered : p.Reordered q) : p.reading = q.reading := by
  cases reordered with
  | of namespaces =>
    have bags := readOptional namespaces Multiset.coe_eq_coe.mpr []
    simp only [AccessPolicy.reading, bags]

theorem Reordered.sameRows {s s' : Spec} (reordered : Reordered s s') :
    ∀ y ∈ table.fields.zip readings, SameRow s s' y := by
  cases reordered with
  | of groups policies =>
    simp [table, readings, SameRow, Field.ignores, Field.always, Field.whenSet, groups,
      readItems policies AccessPolicy.Reordered.read]

end AccessEntry

namespace FargateProfile

inductive Reordered (s : Spec) : Spec → Prop where
  | of {nets : List String} {choices : List Selector} (subnets : s.subnets.Perm nets)
    (selectors : s.selectors.Perm choices) : Reordered s { s with subnets := nets, selectors := choices }

theorem Reordered.sameRows {s s' : Spec} (reordered : Reordered s s') :
    ∀ y ∈ table.fields.zip readings, SameRow s s' y := by
  cases reordered with
  | of subnets selectors =>
    simp [table, readings, SameRow, Field.ignores, Field.always, subnets, selectors.map Selector.reading]

end FargateProfile

namespace Capability

inductive NetworkAccess.Reordered (a : NetworkAccess) : NetworkAccess → Prop where
  | of {ids : List String} (vpceIds : a.vpceIds.Perm ids) : Reordered a { a with vpceIds := ids }

inductive RoleMapping.Reordered (m : RoleMapping) : RoleMapping → Prop where
  | of {members : List Identity} (identities : m.identities.Perm members) : Reordered m { m with identities := members }

inductive ArgoCd.Reordered (a : ArgoCd) : ArgoCd → Prop where
  | of {access : Option NetworkAccess} {mappings : Option (List RoleMapping)}
    (networkAccess : Option.Rel NetworkAccess.Reordered a.networkAccess access)
    (rbacRoleMappings : Option.Rel (SameItems RoleMapping.Reordered) a.rbacRoleMappings mappings) :
    Reordered a { a with networkAccess := access, rbacRoleMappings := mappings }

inductive Configuration.Reordered (c : Configuration) : Configuration → Prop where
  | of {argo : Option ArgoCd} (argoCd : Option.Rel ArgoCd.Reordered c.argoCd argo) :
    Reordered c { c with argoCd := argo }

inductive Reordered (s : Spec) : Spec → Prop where
  | of {config : Option Configuration} (configuration : Option.Rel Configuration.Reordered s.configuration config) :
    Reordered s { s with configuration := config }

section
variable {s s' : Spec}

theorem Reordered.argoCd (reordered : Reordered s s') : Option.Rel ArgoCd.Reordered s.argoCd s'.argoCd := by
  cases reordered with
  | of configuration =>
    refine relatedBind configuration fun here => ?_
    cases here with
    | of argoCd => exact argoCd

theorem Reordered.networkAccess (reordered : Reordered s s') : Option.Rel NetworkAccess.Reordered
    (s.argoCd.bind ArgoCd.networkAccess) (s'.argoCd.bind ArgoCd.networkAccess) := by
  refine relatedBind reordered.argoCd fun here => ?_
  cases here with
  | of networkAccess _ => exact networkAccess

theorem Reordered.roleMappings (reordered : Reordered s s') :
    Option.Rel (SameItems RoleMapping.Reordered) s.roleMappings s'.roleMappings := by
  refine relatedBind reordered.argoCd fun here => ?_
  cases here with
  | of _ rbacRoleMappings => exact rbacRoleMappings

theorem NetworkAccess.Reordered.read {a b : NetworkAccess} (reordered : a.Reordered b) : a.reading = b.reading := by
  cases reordered with
  | of ids => exact Multiset.coe_eq_coe.mpr ids

theorem NetworkAccess.blankIff (a : NetworkAccess) : a = {} ↔ a.reading = 0 := by
  rw [NetworkAccess.mk.injEq, NetworkAccess.reading, Multiset.coe_eq_zero]

theorem RoleMapping.Reordered.read {m n : RoleMapping} (reordered : m.Reordered n) : m.reading = n.reading := by
  cases reordered with
  | of identities => simp only [RoleMapping.reading, Multiset.coe_eq_coe.mpr identities]

theorem Reordered.readAccess (reordered : Reordered s s') :
    ((s.argoCd.bind ArgoCd.networkAccess).getD {}).reading = ((s'.argoCd.bind ArgoCd.networkAccess).getD {}).reading :=
  readOptional reordered.networkAccess NetworkAccess.Reordered.read {}

theorem Reordered.readMappings (reordered : Reordered s s') :
    ((s.roleMappings.getD []).map RoleMapping.reading : Multiset (String × Multiset Identity)) =
      (s'.roleMappings.getD []).map RoleMapping.reading :=
  readOptional reordered.roleMappings
    (fun here => Multiset.coe_eq_coe.mpr (readItems here RoleMapping.Reordered.read)) []

theorem Reordered.sameZeroAccess (reordered : Reordered s s') :
    (ofOption NetworkAccess.record.codec.write (s.argoCd.bind ArgoCd.networkAccess)).isZero =
      (ofOption NetworkAccess.record.codec.write (s'.argoCd.bind ArgoCd.networkAccess)).isZero := by
  rw [Bool.eq_iff_iff, zeroOptionalRecord NetworkAccess.unset, zeroOptionalRecord NetworkAccess.unset,
    NetworkAccess.blankIff, NetworkAccess.blankIff, reordered.readAccess]

theorem Reordered.sameZeroMappings (reordered : Reordered s s') :
    let write (ms : List RoleMapping) := RoleMapping.record.codec.list.write (ms.map RoleMapping.sorted)
    (ofOption write s.roleMappings).isZero = (ofOption write s'.roleMappings).isZero := by
  have blankIff (ms : List RoleMapping) :
      ms = [] ↔ (ms.map RoleMapping.reading : Multiset (String × Multiset Identity)) = 0 := by
    rw [Multiset.coe_eq_zero, List.map_eq_nil_iff]
  dsimp only
  rw [Bool.eq_iff_iff, zeroMappings, zeroMappings, blankIff, blankIff, reordered.readMappings]

theorem Reordered.sameRows (reordered : Reordered s s') : ∀ y ∈ table.fields.zip readings, SameRow s s' y := by
  have nameSpace : s.argoCd.bind ArgoCd.nameSpace = s'.argoCd.bind ArgoCd.nameSpace :=
    sameBind reordered.argoCd fun here => by cases here; rfl
  have awsIdc : s.argoCd.bind ArgoCd.awsIdc = s'.argoCd.bind ArgoCd.awsIdc :=
    sameBind reordered.argoCd fun here => by cases here; rfl
  have access := reordered.readAccess
  have zeroAccess := reordered.sameZeroAccess
  have mappings := reordered.readMappings
  have zeroMappings := reordered.sameZeroMappings
  cases reordered
  simp [table, readings, SameRow, Field.ignores, Field.always, Field.whenSet, nameSpace, awsIdc, access, zeroAccess,
    mappings, zeroMappings]

end

end Capability

namespace Kind

def Reordered : (k : Kind) → k.Spec → k.Spec → Prop
  | .cluster => Cluster.Reordered
  | .nodegroup => Nodegroup.Reordered
  | .addon => Addon.Reordered
  | .accessEntry => AccessEntry.Reordered
  | .fargateProfile => FargateProfile.Reordered
  | .capability => Capability.Reordered
  | .podIdentityAssociation => Eq
  | .identityProviderConfig => Eq

theorem orderNeverCounts (k : Kind) {d d' o o' : k.Spec} (desired : k.Reordered d d') (observed : k.Reordered o o') :
    (k.binding.table.raw d o).paths = (k.binding.table.raw d' o').paths := by
  cases k with
  | cluster => exact FieldTable.sameRows Cluster.rows desired.sameRows observed.sameRows
  | nodegroup => exact FieldTable.sameRows Nodegroup.rows desired.sameRows observed.sameRows
  | addon => exact FieldTable.sameRows Addon.rows desired.sameRows observed.sameRows
  | accessEntry => exact FieldTable.sameRows AccessEntry.rows desired.sameRows observed.sameRows
  | fargateProfile => exact FieldTable.sameRows FargateProfile.rows desired.sameRows observed.sameRows
  | capability => exact FieldTable.sameRows Capability.rows desired.sameRows observed.sameRows
  | podIdentityAssociation => rw [show d = d' from desired, show o = o' from observed]
  | identityProviderConfig => rw [show d = d' from desired, show o = o' from observed]

theorem namespacesReordered :
    let d : AccessEntry.Spec :=
      { clusterName := "main", principalArn := "p", kubernetesGroups := ["dev", "ops"],
        accessPolicies := [⟨"view", ⟨some "namespace", some ["a", "b"]⟩⟩, ⟨"edit", ⟨some "cluster", none⟩⟩] }
    let d' : AccessEntry.Spec :=
      { clusterName := "main", principalArn := "p", kubernetesGroups := ["ops", "dev"],
        accessPolicies := [⟨"edit", ⟨some "cluster", none⟩⟩, ⟨"view", ⟨some "namespace", some ["b", "a"]⟩⟩] }
    let o : AccessEntry.Spec := { clusterName := "main", principalArn := "p" }
    AccessEntry.Reordered d d' ∧ AccessEntry.Reordered o o ∧
      (AccessEntry.table.raw d o).paths = (AccessEntry.table.raw d' o).paths := by
  intro d d' o
  have desired : AccessEntry.Reordered d d' :=
    .of (.swap "ops" "dev" []) ⟨_, .cons (.of (.some (.swap "b" "a" []))) (.cons (.of .none) .nil), .swap _ _ []⟩
  have observed : AccessEntry.Reordered o o := .of (.refl _) ⟨[], .nil, .refl _⟩
  exact ⟨desired, observed, orderNeverCounts .accessEntry desired observed⟩

end Kind
end DesiredState
