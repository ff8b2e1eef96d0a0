import DesiredState.Proofs.CarriedMembers
import DesiredState.Proofs.Targets

/-!
What a call carries, kind by kind. Every row of a group shows a member of the declaration, and the payload of the group
has a member for it, so the call holds each declared value that differs; a configuration call of a cluster holds
nothing else. -/
namespace DesiredState

namespace Cluster

def ConfigUpdate.settings (u : ConfigUpdate) : List (String × Option Json) :=
  [("logging", u.logging.map Logging.record.codec.write),
    ("resourcesVpcConfig", u.resourcesVpcConfig.map VpcUpdate.render),
    ("accessConfig", u.accessConfig.map AccessConfig.record.codec.write),
    ("upgradePolicy", u.upgradePolicy.map UpgradePolicy.record.codec.write),
    ("computeConfig", u.computeConfig.map ComputeConfig.record.codec.write),
    ("storageConfig", u.storageConfig.map StorageConfig.record.codec.write),
    ("kubernetesNetworkConfig", u.kubernetesNetworkConfig.map KubernetesNetworkConfig.record.codec.write),
    ("zonalShiftConfig", u.zonalShiftConfig.map Toggle.record.codec.write),
    ("remoteNetworkConfig", u.remoteNetworkConfig.map RemoteNetworkConfig.record.codec.write)]

theorem renderConfig (u : ConfigUpdate) : (Update.config u).render =
    .ofSlots (("call", some (.text "config")) :: ("name", some (.text u.name)) :: u.settings) := rfl

theorem configValue (u : ConfigUpdate) {k : String} {v : Option Json}
    (slot : u.settings.find? (fun s => s.1 == k) = some (k, v)) :
    (Update.config u).render.descend [k] = v.getD .null := by
  have listed : (k, v) ∈ u.settings := List.mem_of_find?_eq_some slot
  rw [renderConfig]
  exact Json.slotValue (by simp [ConfigUpdate.settings]) (List.mem_cons_of_mem _ (List.mem_cons_of_mem _ listed))

theorem shown : binding.Shown Spec.record := ⟨rfl, by decide, Kind.rowsApart .cluster⟩

theorem concernCarries {τ : Type} {rec : Record τ τ} {get : Spec → Option τ} {name : String} {explicit : Bool}
    {plan : PlanInput Spec → GroupPlan Update}
    (row : table.fields.find? (fun f => f.path == name) =
      some ⟨name, .nested, fun s => .ofOption rec.codec.write (get s), explicit⟩)
    (member : Spec.record.members.find? (fun m => m.name == name) = some (.optional name rec.codec.write get))
    (made : ∀ input v, get input.desired = some v → ∃ u : ConfigUpdate, plan input = .calls [.config u] ∧
      u.settings.find? (fun s => s.1 == name) = some (name, some (rec.codec.write v))) :
    binding.CarriesUnder id plan name := by
  refine shown.optional row member (fun _ => rfl) fun input calls planned _ v given => ?_
  obtain ⟨u, call, slot⟩ := made input v given
  rw [call] at planned
  cases planned
  rw [given]
  exact ⟨_, rfl, configValue u slot⟩

theorem loggingCarries : binding.CarriesUnder id planLogging "logging" :=
  concernCarries rfl rfl fun input v given => by
    unfold planLogging
    rw [given]
    exact ⟨_, rfl, rfl⟩

theorem accessCarries : binding.CarriesUnder id planAccessConfig "accessConfig" :=
  concernCarries rfl rfl fun input v given => by
    unfold planAccessConfig
    rw [given]
    exact ⟨_, rfl, rfl⟩

theorem upgradeCarries : binding.CarriesUnder id planUpgradePolicy "upgradePolicy" :=
  concernCarries rfl rfl fun input v given => by
    unfold planUpgradePolicy
    rw [given]
    exact ⟨_, rfl, rfl⟩

theorem computeCarries : binding.CarriesUnder id planComputeStorageNetwork "computeConfig" :=
  concernCarries rfl rfl fun input v given => by
    unfold planComputeStorageNetwork
    dsimp only
    rw [given]
    exact ⟨_, rfl, rfl⟩

theorem storageCarries : binding.CarriesUnder id planComputeStorageNetwork "storageConfig" :=
  concernCarries rfl rfl fun input v given => by
    unfold planComputeStorageNetwork
    dsimp only
    rw [given]
    exact ⟨_, rfl, rfl⟩

theorem addressesCarry : binding.CarriesUnder id planComputeStorageNetwork "kubernetesNetworkConfig" :=
  concernCarries rfl rfl fun input v given => by
    unfold planComputeStorageNetwork
    dsimp only
    rw [given]
    exact ⟨_, rfl, rfl⟩

theorem zonalCarries : binding.CarriesUnder id planZonalShift "zonalShiftConfig" :=
  concernCarries rfl rfl fun input v given => by
    unfold planZonalShift
    rw [given]
    exact ⟨_, rfl, rfl⟩

theorem remoteCarries : binding.CarriesUnder id planRemoteNetwork "remoteNetworkConfig" :=
  concernCarries rfl rfl fun input v given => by
    unfold planRemoteNetwork
    rw [given]
    exact ⟨_, rfl, rfl⟩

theorem networkCarries {plan : PlanInput Spec → GroupPlan Update} {tops : List String} (change : VpcConfig → VpcUpdate)
    (made : ∀ input, ∃ u : ConfigUpdate, plan input = .calls [.config u] ∧
      u.resourcesVpcConfig = some (change (input.desired.resourcesVpcConfig.getD {})))
    (below : ∀ top ∈ tops, pathUnder top "resourcesVpcConfig" = true)
    (sent : ∀ m ∈ VpcConfig.record.members, (∃ top ∈ tops, pathUnder s!"resourcesVpcConfig.{m.name}" top = true) →
      ∀ vpc, (m.value vpc).isZero = false → (change vpc).render.descend [m.name] = m.value vpc) :
    ∀ top ∈ tops, binding.CarriesUnder id plan top := by
  intro top asked
  refine shown.setting "resourcesVpcConfig" rfl rfl (rfl : VpcConfig.record.document {} = []) (by decide) ?_
    (below top asked) ?_
  · exact List.forall_mem_cons.mpr ⟨Record.listedPlain _ _ _, List.forall_mem_cons.mpr ⟨Record.listedPlain _ _ _,
      List.forall_mem_cons.mpr ⟨Record.optionalPlain _ (fun _ => rfl) _,
        List.forall_mem_cons.mpr ⟨Record.optionalPlain _ (fun _ => rfl) _,
          List.forall_mem_singleton.mpr (Record.listedPlain _ _ _)⟩⟩⟩⟩
  · intro input calls planned m row under _ set
    obtain ⟨u, call, changed⟩ := made input
    rw [call] at planned
    cases planned
    refine ⟨_, rfl, ?_⟩
    have slot : (Update.config u).render.descend ["resourcesVpcConfig"] = _ :=
      configValue u rfl
    rw [changed] at slot
    have settings := sent m row ⟨top, asked, under⟩ _ set
    change (Update.config u).render.descend (["resourcesVpcConfig"] ++ [m.name]) = _
    rw [Json.descendAppend, slot]
    exact settings

def endpointChange (vpc : VpcConfig) : VpcUpdate where
  endpointPublicAccess := vpc.endpointPublicAccess
  endpointPrivateAccess := vpc.endpointPrivateAccess
  publicAccessCidrs := some vpc.publicAccessCidrs

def networkingChange (vpc : VpcConfig) : VpcUpdate where
  subnetIds := some vpc.subnetIds
  securityGroupIds := some vpc.securityGroupIds

theorem endpointsCarry : ∀ top ∈ ["resourcesVpcConfig.endpointPrivateAccess", "resourcesVpcConfig.endpointPublicAccess",
    "resourcesVpcConfig.publicAccessCidrs"], binding.CarriesUnder id planEndpointAccess top := by
  refine networkCarries endpointChange (fun _ => ⟨_, rfl, rfl⟩) (by decide) ?_
  refine List.forall_mem_cons.mpr ⟨fun other => absurd other (by decide), List.forall_mem_cons.mpr
    ⟨fun other => absurd other (by decide), List.forall_mem_cons.mpr ⟨fun _ vpc _ => ?_, List.forall_mem_cons.mpr
      ⟨fun _ vpc _ => ?_, List.forall_mem_singleton.mpr fun _ vpc set => ?_⟩⟩⟩⟩
  · rw [Record.optionalValue]
    exact Json.slotOption (by simp) rfl
  · rw [Record.optionalValue]
    exact Json.slotOption (by simp) rfl
  · rw [Record.listedSet set]
    exact Json.slotSome (by simp) rfl

theorem networksCarry : ∀ top ∈ ["resourcesVpcConfig.subnetIds", "resourcesVpcConfig.securityGroupIds"],
    binding.CarriesUnder id planVpcNetworking top := by
  refine networkCarries networkingChange (fun _ => ⟨_, rfl, rfl⟩) (by decide) ?_
  refine List.forall_mem_cons.mpr ⟨fun _ vpc set => ?_, List.forall_mem_cons.mpr ⟨fun _ vpc set => ?_,
    List.forall_mem_cons.mpr ⟨fun other => absurd other (by decide), List.forall_mem_cons.mpr
      ⟨fun other => absurd other (by decide), List.forall_mem_singleton.mpr fun other => absurd other (by decide)⟩⟩⟩⟩
  · rw [Record.listedSet set]
    exact Json.slotSome (by simp) rfl
  · rw [Record.listedSet set]
    exact Json.slotSome (by simp) rfl

def Within (g : UpdateGroup Spec Update) (e : String × Json) : Prop :=
  g.answersFor e.1 = true ∨ ∃ settings, e.2 = .object settings ∧
    ∀ s ∈ settings, g.answersFor s!"{e.1}.{s.1}" = true

def Confined (g : UpdateGroup Spec Update) : Prop :=
  ∀ input calls, g.plan input = .calls calls → ∀ u, .config u ∈ calls →
    ∃ members, (Update.config u).render = .object members ∧ ∀ e ∈ members, e.1 ∈ ["call", "name"] ∨ Within g e

section
variable {category : String} {paths : List String} {plan : PlanInput Spec → GroupPlan Update}

theorem answersListed {p : String} (listed : p ∈ paths) :
    UpdateGroup.answersFor (⟨category, paths, plan⟩ : UpdateGroup Spec Update) p = true :=
  List.any_eq_true.mpr ⟨p, listed, underSelf p⟩

theorem confinedOnce (once : ∀ input calls, plan input = .calls calls → ∃ u, calls = [.config u] ∧
    ∀ s ∈ u.settings, ∀ v, s.2 = some v → Within ⟨category, paths, plan⟩ (s.1, v)) :
    Confined ⟨category, paths, plan⟩ := by
  intro input calls planned u made
  obtain ⟨u', rfl, own⟩ := once input calls planned
  cases List.mem_singleton.mp made
  refine ⟨_, rfl, Json.slotsGiven (List.forall_mem_cons.mpr ⟨fun _ _ => .inl List.mem_cons_self,
    List.forall_mem_cons.mpr ⟨fun _ _ => .inl (List.mem_cons_of_mem _ List.mem_cons_self), ?_⟩⟩)⟩
  exact fun s slot v value => .inr (own s slot v value)

theorem confinedNamed (once : ∀ input calls, plan input = .calls calls →
    ∃ u, calls = [.config u] ∧ ∀ s ∈ u.settings, s.1 ∈ paths ∨ s.2 = none) : Confined ⟨category, paths, plan⟩ := by
  refine confinedOnce fun input calls planned => ?_
  obtain ⟨u, call, named⟩ := once input calls planned
  refine ⟨u, call, fun s slot v value => .inl (answersListed ((named s slot).resolve_right ?_))⟩
  rw [value]
  exact Option.some_ne_none v

theorem confinedNetwork (change : VpcConfig → VpcUpdate)
    (made : ∀ input, plan input = configure input.desired fun u =>
      { u with resourcesVpcConfig := some (change (input.desired.resourcesVpcConfig.getD {})) })
    (named : ∀ vpc, ∃ settings, (change vpc).render = .object settings ∧
      ∀ s ∈ settings, s!"resourcesVpcConfig.{s.1}" ∈ paths) : Confined ⟨category, paths, plan⟩ := by
  refine confinedOnce fun input calls planned => ?_
  rw [made] at planned
  refine ⟨_, (GroupPlan.calls.inj planned).symm, ?_⟩
  obtain ⟨settings, render, listed⟩ := named (input.desired.resourcesVpcConfig.getD {})
  have own : Within ⟨category, paths, plan⟩
      ("resourcesVpcConfig", (change (input.desired.resourcesVpcConfig.getD {})).render) :=
    .inr ⟨settings, render, fun s inside => answersListed (listed s inside)⟩
  simpa [ConfigUpdate.settings] using own

end

theorem upgradeConfined : Confined ⟨"upgrade-policy", ["upgradePolicy"], planUpgradePolicy⟩ := by
  refine confinedNamed fun input calls planned => ?_
  obtain ⟨policy, rfl⟩ := upgradeGiven planned
  exact ⟨_, rfl, by simp [ConfigUpdate.settings]⟩

theorem encryptionConfined : Confined ⟨"encryption", ["encryptionConfig"], planEncryption⟩ := by
  intro input calls planned u made
  obtain ⟨encryption, rfl⟩ := encryptionGiven planned
  cases List.mem_singleton.mp made

theorem versionConfined : Confined ⟨"version", ["version"], planVersion⟩ := by
  intro input calls planned u made
  obtain ⟨target, rfl⟩ := versionGiven planned
  cases List.mem_singleton.mp made

theorem groupsConfined : ∀ g ∈ groups, Confined g := by
  have called {category : String} {paths : List String} {plan : PlanInput Spec → GroupPlan Update}
      (made : ∀ input, ∃ u : ConfigUpdate,
        plan input = .calls [.config u] ∧ ∀ s ∈ u.settings, s.1 ∈ paths ∨ s.2 = none) :
      Confined ⟨category, paths, plan⟩ := by
    refine confinedNamed fun input calls planned => ?_
    obtain ⟨u, call, named⟩ := made input
    rw [call] at planned
    exact ⟨u, (GroupPlan.calls.inj planned).symm, named⟩
  simp only [groups, List.forall_mem_cons]
  refine ⟨called fun _ => ⟨_, rfl, by simp [ConfigUpdate.settings]⟩, confinedNetwork endpointChange (fun _ => rfl) ?_,
    confinedNetwork networkingChange (fun _ => rfl) ?_, called fun _ => ⟨_, rfl, by simp [ConfigUpdate.settings]⟩,
    upgradeConfined, encryptionConfined, versionConfined, called fun _ => ⟨_, rfl, by simp [ConfigUpdate.settings]⟩,
    called fun _ => ⟨_, rfl, by simp [ConfigUpdate.settings]⟩,
    called fun _ => ⟨_, rfl, by simp [ConfigUpdate.settings]⟩, List.forall_mem_nil _⟩
  · exact fun vpc => ⟨_, rfl, Json.slotsGiven (by simp [endpointChange, toString])⟩
  · exact fun vpc => ⟨_, rfl, Json.slotsGiven (by simp [networkingChange, toString])⟩

end Cluster

namespace Nodegroup

theorem shown : binding.Shown Spec.record := ⟨rfl, by decide, Kind.rowsApart .nodegroup⟩

theorem scalingKept (d o : Spec) {annotations : Annotations} :
    ∀ m ∈ Scaling.record.members, table.keeps annotations s!"scalingConfig.{m.name}" →
      m.value ((scaling? d o annotations).getD {}) = m.value (d.scalingConfig.getD {}) := by
  have sized (m : Member Scaling) (same : ∀ s size, m.value { s with desiredSize := size } = m.value s) :
      m.value ((scaling? d o annotations).getD {}) = m.value (d.scalingConfig.getD {}) := by
    unfold scaling?
    cases d.scalingConfig with
    | none => rfl
    | some scaling =>
      dsimp only [Option.map_some, Option.getD_some]
      split
      · exact same scaling _
      · rfl
  refine List.forall_mem_cons.mpr ⟨fun _ => sized _ fun _ _ => rfl, List.forall_mem_cons.mpr
    ⟨fun _ => sized _ fun _ _ => rfl, List.forall_mem_singleton.mpr fun kept => ?_⟩⟩
  have own : annotations.sizeOwner ≠ .external := fun external =>
    absurd (kept _ List.mem_cons_self external) (by decide)
  have declared : scaling? d o annotations = d.scalingConfig := by
    unfold scaling?
    cases d.scalingConfig with
    | none => rfl
    | some scaling =>
      rw [Option.map_some]
      split
      · exact absurd ‹_› own
      · rfl
  rw [declared]

theorem scalingCarries : binding.CarriesUnder id planConfig "scalingConfig" := by
  refine shown.setting "scalingConfig" rfl rfl (rfl : Scaling.record.document {} = []) (by decide) ?_ (by decide) ?_
  · exact List.forall_mem_cons.mpr ⟨Record.optionalPlain _ (fun _ => rfl) _, List.forall_mem_cons.mpr
      ⟨Record.optionalPlain _ (fun _ => rfl) _, List.forall_mem_singleton.mpr
        (Record.optionalPlain _ (fun _ => rfl) _)⟩⟩
  · intro input calls planned m row _ kept _
    refine ⟨_, configGiven planned, ?_⟩
    have slot {u : ConfigUpdate} : (Update.config u).render.descend ["scalingConfig"] =
        .ofOption Scaling.record.codec.write u.scalingConfig :=
      Json.slotOption (by simp) rfl
    change (Update.config _).render.descend (["scalingConfig"] ++ [m.name]) =
      m.value (input.desired.scalingConfig.getD {})
    rw [Json.descendAppend, slot,
      Json.descendMember (Record.shownMembers (rfl : Scaling.record.document {} = []) _)]
    exact (Record.memberValue (by decide) row _).trans (scalingKept _ _ m row kept)

theorem limitsCarry : binding.CarriesUnder id planConfig "updateConfig" :=
  shown.optional rfl rfl (fun _ => rfl)
    fun _ _ planned _ _ _ => ⟨_, configGiven planned, Json.slotOption (by simp) rfl⟩

theorem repairCarries : binding.CarriesUnder id planConfig "nodeRepairConfig" :=
  shown.optional rfl rfl (fun _ => rfl)
    fun _ _ planned _ _ _ => ⟨_, configGiven planned, Json.slotOption (by simp) rfl⟩

theorem templateCarries : binding.CarriesUnder id planVersion "launchTemplate" := by
  refine shown.optional rfl rfl (fun _ => rfl) ?_
  intro input calls planned differs _ _
  unfold planVersion at planned
  split at planned
  · cases planned
  · rename_i u update
    obtain ⟨_, _, given⟩ := versionGiven update
    split at planned <;> cases planned
    have sent : u.launchTemplate = input.desired.launchTemplate := by
      rw [given]
      exact if_pos differs
    refine ⟨_, rfl, (Json.slotOption (by simp) rfl).trans ?_⟩
    exact congrArg (Json.ofOption LaunchTemplate.record.codec.write) sent

end Nodegroup

namespace Addon

theorem shown : binding.Shown Spec.record := ⟨rfl, by decide, Kind.rowsApart .addon⟩

theorem versionCarries : binding.CarriesUnder id planAddon "addonVersion" :=
  shown.optional rfl rfl (fun _ => rfl)
    fun _ _ planned _ _ _ => ⟨_, (GroupPlan.calls.inj planned).symm, Json.slotOption (by simp) rfl⟩

theorem configurationCarries : binding.CarriesUnder id planAddon "configurationValues" :=
  shown.optional rfl rfl (fun _ => rfl)
    fun _ _ planned _ _ _ => ⟨_, (GroupPlan.calls.inj planned).symm, Json.slotOption (by simp) rfl⟩

theorem roleCarries : binding.CarriesUnder id planAddon "serviceAccountRoleArn" :=
  shown.optional rfl rfl (fun _ => rfl)
    fun _ _ planned _ _ _ => ⟨_, (GroupPlan.calls.inj planned).symm, Json.slotOption (by simp) rfl⟩

theorem podRolesCarry : binding.CarriesUnder id planAddon "podIdentityAssociations" :=
  shown.listed rfl rfl (fun _ => rfl)
    fun _ _ planned => ⟨_, (GroupPlan.calls.inj planned).symm, Json.slotSome (by simp) rfl⟩

end Addon

namespace AccessEntry

theorem shown : binding.Shown Spec.record := ⟨rfl, by decide, Kind.rowsApart .accessEntry⟩

theorem groupsCarry : binding.CarriesUnder id planEntry "kubernetesGroups" :=
  shown.listed rfl rfl (fun _ => rfl)
    fun _ _ planned => ⟨_, (GroupPlan.calls.inj planned).symm, Json.slotSome (by simp) rfl⟩

theorem usernameCarries : binding.CarriesUnder id planEntry "username" :=
  shown.optional rfl rfl (fun _ => rfl)
    fun _ _ planned _ _ _ => ⟨_, (GroupPlan.calls.inj planned).symm, Json.slotOption (by simp) rfl⟩

end AccessEntry

namespace Capability

def payloadPlace : List String → List String
  | "configuration" :: "argoCd" :: names => names
  | names => names

theorem shown : binding.Shown Spec.record := ⟨rfl, by decide, Kind.rowsApart .capability⟩

theorem roleCarries : binding.CarriesUnder payloadPlace planCapability "roleArn" :=
  shown.optional rfl rfl (fun _ => rfl)
    fun _ _ planned _ _ _ => ⟨_, (GroupPlan.calls.inj planned).symm, Json.slotOption (by simp) rfl⟩

theorem propagationCarries : binding.CarriesUnder payloadPlace planCapability "deletePropagationPolicy" :=
  shown.optional rfl rfl (fun _ => rfl)
    fun _ _ planned _ _ _ => ⟨_, (GroupPlan.calls.inj planned).symm, Json.slotOption (by simp) rfl⟩

theorem accessDeclared {s : Spec} {access : NetworkAccess} (set : s.argoCd.bind ArgoCd.networkAccess = some access) :
    (Spec.record.codec.write s).descend ["configuration", "argoCd", "networkAccess"] =
      NetworkAccess.record.codec.write access := by
  obtain ⟨argoCd, inner, innermost⟩ := Option.bind_eq_some_iff.mp set
  obtain ⟨configuration, outer, inner⟩ := Option.bind_eq_some_iff.mp inner
  have first : (Spec.record.codec.write s).descend ["configuration"] =
      .ofOption Configuration.record.codec.write s.configuration :=
    shown.optionalAt rfl s
  have second : (Configuration.record.codec.write configuration).descend ["argoCd"] =
      .ofOption ArgoCd.record.codec.write configuration.argoCd :=
    Record.optionalAt (by decide) rfl configuration
  have third : (ArgoCd.record.codec.write argoCd).descend ["networkAccess"] =
      .ofOption NetworkAccess.record.codec.write argoCd.networkAccess :=
    Record.optionalAt (by decide) rfl argoCd
  rw [outer] at first
  rw [inner] at second
  rw [innermost] at third
  calc (Spec.record.codec.write s).descend (["configuration"] ++ (["argoCd"] ++ ["networkAccess"]))
    _ = (Configuration.record.codec.write configuration).descend (["argoCd"] ++ ["networkAccess"]) := by
      rw [Json.descendAppend, first]
      rfl
    _ = (ArgoCd.record.codec.write argoCd).descend ["networkAccess"] := by
      rw [Json.descendAppend, second]
      rfl
    _ = NetworkAccess.record.codec.write access := third

theorem accessCarries : binding.CarriesUnder payloadPlace planCapability networkAccessPath := by
  have row := List.mem_of_find?_eq_some (l := table.fields) (p := fun f => f.path == networkAccessPath) rfl
  refine shown.row row (List.cons_ne_nil _ _)
    (by decide : networkAccessPath = ".".intercalate ["configuration", "argoCd", "networkAccess"]) (fun _ => rfl) ?_ ?_
  · intro s set
    obtain ⟨access, given⟩ := Json.setOption set
    exact (accessDeclared given).trans (congrArg (Json.ofOption NetworkAccess.record.codec.write) given).symm
  · intro input calls planned differs _
    cases planned
    refine ⟨_, rfl, (Json.slotOption (by simp) rfl).trans ?_⟩
    exact congrArg (Json.ofOption NetworkAccess.record.codec.write) (if_pos differs)

end Capability

namespace PodIdentityAssociation

theorem shown : binding.Shown Spec.record := ⟨rfl, by decide, Kind.rowsApart .podIdentityAssociation⟩

theorem roleCarries : binding.CarriesUnder id planAssociation "roleArn" :=
  shown.optional rfl rfl (fun _ => rfl)
    fun _ _ planned _ _ _ => ⟨_, (GroupPlan.calls.inj planned).symm, Json.slotOption (by simp) rfl⟩

theorem targetRoleCarries : binding.CarriesUnder id planAssociation "targetRoleArn" :=
  shown.optional rfl rfl (fun _ => rfl)
    fun _ _ planned _ _ _ => ⟨_, (GroupPlan.calls.inj planned).symm, Json.slotOption (by simp) rfl⟩

theorem sessionTagsCarry : binding.CarriesUnder id planAssociation "disableSessionTags" :=
  shown.optional rfl rfl (fun _ => rfl)
    fun _ _ planned _ _ _ => ⟨_, (GroupPlan.calls.inj planned).symm, Json.slotOption (by simp) rfl⟩

end PodIdentityAssociation

namespace Kind

def payloadPlace : Kind → List String → List String
  | .capability => Capability.payloadPlace
  | _ => id

/- What a payload does not hold as it is declared: versions go step by step, one encryption comes alone, and keyed
collections are sent as changes. -/
def reshaped : Kind → List String
  | .cluster => ["encryptionConfig", "version"]
  | .nodegroup => ["version", "releaseVersion", "labels", "taints"]
  | .accessEntry => ["accessPolicies"]
  | .capability => [Capability.roleMappingsPath]
  | _ => []

theorem carries (k : Kind) : ∀ g ∈ k.binding.groups, ∀ top ∈ g.paths,
    top ∈ k.reshaped ∨ k.binding.CarriesUnder k.payloadPlace g.plan top := by
  cases k with
  | cluster =>
    change ∀ g ∈ Cluster.groups, _
    simp only [Cluster.groups, List.forall_mem_cons, List.not_mem_nil, false_implies, implies_true,
      and_true]
    exact ⟨.inr Cluster.loggingCarries,
      ⟨.inr (Cluster.endpointsCarry _ (by decide)), .inr (Cluster.endpointsCarry _ (by decide)),
        .inr (Cluster.endpointsCarry _ (by decide))⟩,
      ⟨.inr (Cluster.networksCarry _ (by decide)), .inr (Cluster.networksCarry _ (by decide))⟩,
      .inr Cluster.accessCarries, .inr Cluster.upgradeCarries, .inl (by decide), .inl (by decide),
      ⟨.inr Cluster.computeCarries, .inr Cluster.storageCarries, .inr Cluster.addressesCarry⟩,
      .inr Cluster.zonalCarries, .inr Cluster.remoteCarries⟩
  | nodegroup =>
    change ∀ g ∈ Nodegroup.groups, _
    simp only [Nodegroup.groups, List.forall_mem_cons, List.not_mem_nil, false_implies, implies_true,
      and_true]
    exact ⟨⟨.inl (by decide), .inl (by decide), .inr Nodegroup.scalingCarries, .inr Nodegroup.limitsCarry,
      .inr Nodegroup.repairCarries⟩, .inl (by decide), .inl (by decide), .inr Nodegroup.templateCarries⟩
  | addon =>
    change ∀ g ∈ Addon.groups, _
    simp only [Addon.groups, List.forall_mem_cons, List.not_mem_nil, false_implies, implies_true,
      and_true]
    exact ⟨.inr Addon.versionCarries, .inr Addon.configurationCarries, .inr Addon.roleCarries, .inr Addon.podRolesCarry⟩
  | accessEntry =>
    change ∀ g ∈ AccessEntry.groups, _
    simp only [AccessEntry.groups, List.forall_mem_cons, List.not_mem_nil, false_implies, implies_true,
      and_true]
    exact ⟨⟨.inr AccessEntry.groupsCarry, .inr AccessEntry.usernameCarries⟩, .inl (by decide)⟩
  | capability =>
    change ∀ g ∈ Capability.groups, _
    simp only [Capability.groups, List.forall_mem_cons, List.not_mem_nil, false_implies, implies_true,
      and_true]
    exact ⟨.inr Capability.roleCarries, .inr Capability.propagationCarries, .inr Capability.accessCarries,
      .inl (by decide)⟩
  | podIdentityAssociation =>
    change ∀ g ∈ PodIdentityAssociation.groups, _
    simp only [PodIdentityAssociation.groups, List.forall_mem_cons, List.not_mem_nil, false_implies, implies_true,
      and_true]
    exact ⟨.inr PodIdentityAssociation.roleCarries, .inr PodIdentityAssociation.targetRoleCarries,
      .inr PodIdentityAssociation.sessionTagsCarry⟩
  | fargateProfile => exact List.forall_mem_nil _
  | identityProviderConfig => exact List.forall_mem_nil _

/- Whatever the specs and the annotations: the call of a group holds, for each difference of the group that is asked
for, the declared value at its place, the reshaped paths apart; and a configuration call of a cluster sets members of
its own group only. -/
theorem callsCarryDifferences :
    (∀ (k : Kind) (desired : Desired k.Spec) (observed : k.Spec),
      let input := k.binding.input desired observed
      ∀ g ∈ k.binding.groups, ∀ calls, g.plan input = .calls calls →
        ∀ x ∈ input.delta.differences, g.answersFor x.path = true →
          (∀ top ∈ k.reshaped, pathUnder x.path top = false) → x.desired.isZero = false →
            ∃ u, calls = [u] ∧ k.binding.Carries k.payloadPlace u desired.spec x) ∧
      ∀ g ∈ Cluster.groups, Cluster.Confined g := by
  refine ⟨?_, Cluster.groupsConfined⟩
  intro k desired observed input g listed calls planned x found answers plain set
  obtain ⟨top, asked, under⟩ := List.any_eq_true.mp answers
  rcases k.carries g listed top asked with shaped | carries
  · rw [plain top shaped] at under
    cases under
  · exact carries desired observed calls planned x found under set

theorem addedEndpointSent :
    let spec (vpceIds : List String) : Capability.Spec :=
      { name := "argo", clusterName := "main", configuration := some ⟨some { networkAccess := some ⟨vpceIds⟩ }⟩ }
    let desired : Desired Capability.Spec := ⟨spec ["vpce-1"], .empty, none⟩
    let input := Capability.binding.input desired (spec [])
    let x : Difference := ⟨"configuration.argoCd.networkAccess.vpceIds", .list [.text "vpce-1"], .null⟩
    let vpc : Cluster.VpcConfig := { endpointPublicAccess := some true }
    let opened : Cluster.ConfigUpdate := { name := "main", resourcesVpcConfig := some (Cluster.endpointChange vpc) }
    (x ∈ input.delta.differences ∧ ∃ u, Capability.planCapability input = .calls [u] ∧
        Capability.binding.Carries Capability.payloadPlace u desired.spec x) ∧
      ∃ g ∈ Cluster.groups, ∃ members, (Cluster.Update.config opened).render = .object members ∧
        ∀ e ∈ members, e.1 ∈ ["call", "name"] ∨ Cluster.Within g e := by
  intro spec desired input x vpc opened
  have found : x ∈ input.delta.differences := by decide +kernel
  obtain ⟨u, one, carries⟩ := callsCarryDifferences.1 .capability desired (spec []) _ List.mem_cons_self _ rfl x found
    (by decide) (by decide) rfl
  have endpoints := List.mem_of_getElem? (l := Cluster.groups) (i := 1) rfl
  have own := callsCarryDifferences.2 _ endpoints
    ⟨{ name := "main", resourcesVpcConfig := some vpc }, { name := "main" }, .empty, .empty⟩ _ rfl opened
    List.mem_cons_self
  exact ⟨⟨found, u, congrArg GroupPlan.calls one, carries⟩, _, endpoints, own⟩

end Kind
end DesiredState
