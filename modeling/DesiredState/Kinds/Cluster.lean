import DesiredState.Binding
import DesiredState.Version

/-!
Clusters. Most changes go through one configuration call, a single concern at a time. Encryption can
only be added, once; the version goes up one minor per pass.
-/
namespace DesiredState.Cluster

structure LogSetup where
  types : List String := []
  enabled : Option Bool := none
  deriving DecidableEq, Repr

structure Logging where
  clusterLogging : List LogSetup := []
  deriving DecidableEq, Repr

structure VpcConfig where
  subnetIds : List String := []
  securityGroupIds : List String := []
  endpointPublicAccess : Option Bool := none
  endpointPrivateAccess : Option Bool := none
  publicAccessCidrs : List String := []
  deriving DecidableEq, Repr

structure AccessConfig where
  authenticationMode : Option String := none
  deriving DecidableEq, Repr

structure UpgradePolicy where
  supportType : Option String := none
  deriving DecidableEq, Repr

structure Provider where
  keyArn : Option String := none
  deriving DecidableEq, Repr

structure EncryptionConfig where
  resources : List String := []
  provider : Option Provider := none
  deriving DecidableEq, Repr

structure ComputeConfig where
  enabled : Option Bool := none
  nodePools : List String := []
  nodeRoleArn : Option String := none
  deriving DecidableEq, Repr

structure Toggle where
  enabled : Option Bool := none
  deriving DecidableEq, Repr

structure StorageConfig where
  blockStorage : Option Toggle := none
  deriving DecidableEq, Repr

structure KubernetesNetworkConfig where
  elasticLoadBalancing : Option Toggle := none
  ipFamily : Option String := none
  serviceIpv4Cidr : Option String := none
  deriving DecidableEq, Repr

structure RemoteNetwork where
  cidrs : List String := []
  deriving DecidableEq, Repr

structure RemoteNetworkConfig where
  remoteNodeNetworks : List RemoteNetwork := []
  remotePodNetworks : List RemoteNetwork := []
  deriving DecidableEq, Repr

structure Spec where
  name : String
  roleArn : Option String := none
  version : Option String := none
  logging : Option Logging := none
  resourcesVpcConfig : Option VpcConfig := none
  accessConfig : Option AccessConfig := none
  upgradePolicy : Option UpgradePolicy := none
  encryptionConfig : List EncryptionConfig := []
  computeConfig : Option ComputeConfig := none
  storageConfig : Option StorageConfig := none
  kubernetesNetworkConfig : Option KubernetesNetworkConfig := none
  zonalShiftConfig : Option Toggle := none
  remoteNetworkConfig : Option RemoteNetworkConfig := none
  tags : Option StringMap := none
  deriving DecidableEq, Repr

def LogSetup.record : Record LogSetup LogSetup :=
  LogSetup.mk <$> .listed "types" .text types <*> .optional "enabled" .bool enabled

def Logging.record : Record Logging Logging :=
  Logging.mk <$> .listed "clusterLogging" LogSetup.record.codec clusterLogging

def VpcConfig.record : Record VpcConfig VpcConfig :=
  VpcConfig.mk <$> .listed "subnetIds" .text subnetIds
    <*> .listed "securityGroupIds" .text securityGroupIds
    <*> .optional "endpointPublicAccess" .bool endpointPublicAccess
    <*> .optional "endpointPrivateAccess" .bool endpointPrivateAccess
    <*> .listed "publicAccessCidrs" .text publicAccessCidrs

def AccessConfig.record : Record AccessConfig AccessConfig :=
  AccessConfig.mk <$> .optional "authenticationMode" .text authenticationMode

def UpgradePolicy.record : Record UpgradePolicy UpgradePolicy :=
  UpgradePolicy.mk <$> .optional "supportType" .text supportType

def Provider.record : Record Provider Provider := Provider.mk <$> .optional "keyArn" .text keyArn

def EncryptionConfig.record : Record EncryptionConfig EncryptionConfig :=
  EncryptionConfig.mk <$> .listed "resources" .text resources
    <*> .optional "provider" Provider.record.codec provider

def ComputeConfig.record : Record ComputeConfig ComputeConfig :=
  ComputeConfig.mk <$> .optional "enabled" .bool enabled
    <*> .listed "nodePools" .text nodePools
    <*> .optional "nodeRoleArn" .text nodeRoleArn

def Toggle.record : Record Toggle Toggle := Toggle.mk <$> .optional "enabled" .bool enabled

def StorageConfig.record : Record StorageConfig StorageConfig :=
  StorageConfig.mk <$> .optional "blockStorage" Toggle.record.codec blockStorage

def KubernetesNetworkConfig.record : Record KubernetesNetworkConfig KubernetesNetworkConfig :=
  KubernetesNetworkConfig.mk <$> .optional "elasticLoadBalancing" Toggle.record.codec elasticLoadBalancing
    <*> .optional "ipFamily" .text ipFamily
    <*> .optional "serviceIpv4Cidr" .text serviceIpv4Cidr

def RemoteNetwork.record : Record RemoteNetwork RemoteNetwork := RemoteNetwork.mk <$> .listed "cidrs" .text cidrs

def RemoteNetworkConfig.record : Record RemoteNetworkConfig RemoteNetworkConfig :=
  RemoteNetworkConfig.mk <$> .listed "remoteNodeNetworks" RemoteNetwork.record.codec remoteNodeNetworks
    <*> .listed "remotePodNetworks" RemoteNetwork.record.codec remotePodNetworks

def Spec.record : Record Spec Spec :=
  Spec.mk <$> .required "name" .text name
    <*> .optional "roleArn" .text roleArn
    <*> .optional "version" .text version
    <*> .optional "logging" Logging.record.codec logging
    <*> .optional "resourcesVpcConfig" VpcConfig.record.codec resourcesVpcConfig
    <*> .optional "accessConfig" AccessConfig.record.codec accessConfig
    <*> .optional "upgradePolicy" UpgradePolicy.record.codec upgradePolicy
    <*> .listed "encryptionConfig" EncryptionConfig.record.codec encryptionConfig
    <*> .optional "computeConfig" ComputeConfig.record.codec computeConfig
    <*> .optional "storageConfig" StorageConfig.record.codec storageConfig
    <*> .optional "kubernetesNetworkConfig" KubernetesNetworkConfig.record.codec kubernetesNetworkConfig
    <*> .optional "zonalShiftConfig" Toggle.record.codec zonalShiftConfig
    <*> .optional "remoteNetworkConfig" RemoteNetworkConfig.record.codec remoteNetworkConfig
    <*> .optional "tags" .strings tags

structure VpcUpdate where
  subnetIds : Option (List String) := none
  securityGroupIds : Option (List String) := none
  endpointPublicAccess : Option Bool := none
  endpointPrivateAccess : Option Bool := none
  publicAccessCidrs : Option (List String) := none
  deriving DecidableEq, Repr

structure ConfigUpdate where
  name : String
  logging : Option Logging := none
  resourcesVpcConfig : Option VpcUpdate := none
  accessConfig : Option AccessConfig := none
  upgradePolicy : Option UpgradePolicy := none
  computeConfig : Option ComputeConfig := none
  storageConfig : Option StorageConfig := none
  kubernetesNetworkConfig : Option KubernetesNetworkConfig := none
  zonalShiftConfig : Option Toggle := none
  remoteNetworkConfig : Option RemoteNetworkConfig := none
  deriving DecidableEq, Repr

inductive Update where
  | config (u : ConfigUpdate)
  | associateEncryption (clusterName : String) (encryption : EncryptionConfig)
  | version (name target : String)
  deriving DecidableEq, Repr

def VpcUpdate.render (u : VpcUpdate) : Json :=
  .ofSlots [("subnetIds", u.subnetIds.map Codec.text.list.write),
    ("securityGroupIds", u.securityGroupIds.map Codec.text.list.write),
    ("endpointPublicAccess", u.endpointPublicAccess.map .bool),
    ("endpointPrivateAccess", u.endpointPrivateAccess.map .bool),
    ("publicAccessCidrs", u.publicAccessCidrs.map Codec.text.list.write)]

def Update.render : Update → Json
  | .config u =>
    .ofSlots [("call", some (.text "config")), ("name", some (.text u.name)),
      ("logging", u.logging.map Logging.record.codec.write),
      ("resourcesVpcConfig", u.resourcesVpcConfig.map VpcUpdate.render),
      ("accessConfig", u.accessConfig.map AccessConfig.record.codec.write),
      ("upgradePolicy", u.upgradePolicy.map UpgradePolicy.record.codec.write),
      ("computeConfig", u.computeConfig.map ComputeConfig.record.codec.write),
      ("storageConfig", u.storageConfig.map StorageConfig.record.codec.write),
      ("kubernetesNetworkConfig", u.kubernetesNetworkConfig.map KubernetesNetworkConfig.record.codec.write),
      ("zonalShiftConfig", u.zonalShiftConfig.map Toggle.record.codec.write),
      ("remoteNetworkConfig", u.remoteNetworkConfig.map RemoteNetworkConfig.record.codec.write)]
  | .associateEncryption clusterName encryption =>
    .object [("call", .text "associateEncryption"), ("clusterName", .text clusterName),
      ("encryptionConfig", EncryptionConfig.record.codec.write encryption)]
  | .version name target =>
    .object [("call", .text "version"), ("name", .text name), ("version", .text target)]

def Update.operation : Update → String
  | .config _ => "UpdateClusterConfig"
  | .associateEncryption _ _ => "AssociateEncryptionConfig"
  | .version _ _ => "UpdateClusterVersion"

def table : FieldTable Spec where
  fields :=
    [.always "name" .whole fun s => .text s.name,
      .always "roleArn" .whole fun s => .ofOption .text s.roleArn,
      .whenSet "version" .whole fun s => .ofOption .text s.version,
      .always "logging" .nested fun s => .ofOption Logging.record.codec.write s.logging,
      .always "resourcesVpcConfig" .nested fun s => .ofOption VpcConfig.record.codec.write s.resourcesVpcConfig,
      .always "accessConfig" .nested fun s => .ofOption AccessConfig.record.codec.write s.accessConfig,
      .whenSet "upgradePolicy" .nested fun s => .ofOption UpgradePolicy.record.codec.write s.upgradePolicy,
      .always "encryptionConfig" .multiset fun s => EncryptionConfig.record.codec.list.write s.encryptionConfig,
      .always "computeConfig" .nested fun s => .ofOption ComputeConfig.record.codec.write s.computeConfig,
      .always "storageConfig" .nested fun s => .ofOption StorageConfig.record.codec.write s.storageConfig,
      .whenSet "kubernetesNetworkConfig" .nested fun s =>
        .ofOption KubernetesNetworkConfig.record.codec.write s.kubernetesNetworkConfig,
      .always "zonalShiftConfig" .nested fun s => .ofOption Toggle.record.codec.write s.zonalShiftConfig,
      .always "remoteNetworkConfig" .nested fun s =>
        .ofOption RemoteNetworkConfig.record.codec.write s.remoteNetworkConfig]

def immutable : List String := ["name", "roleArn"]

def configure (d : Spec) (fill : ConfigUpdate → ConfigUpdate) : GroupPlan Update :=
  .calls [.config (fill { name := d.name })]

def planLogging (input : PlanInput Spec) : GroupPlan Update :=
  configure input.desired fun u => { u with logging := some (input.desired.logging.getD {}) }

def planEndpointAccess (input : PlanInput Spec) : GroupPlan Update :=
  let vpc := input.desired.resourcesVpcConfig.getD {}
  let change : VpcUpdate :=
    { endpointPublicAccess := vpc.endpointPublicAccess
      endpointPrivateAccess := vpc.endpointPrivateAccess
      publicAccessCidrs := some vpc.publicAccessCidrs }
  configure input.desired fun u => { u with resourcesVpcConfig := some change }

def planVpcNetworking (input : PlanInput Spec) : GroupPlan Update :=
  let vpc := input.desired.resourcesVpcConfig.getD {}
  let change : VpcUpdate :=
    { subnetIds := some vpc.subnetIds
      securityGroupIds := some vpc.securityGroupIds }
  configure input.desired fun u => { u with resourcesVpcConfig := some change }

def planAccessConfig (input : PlanInput Spec) : GroupPlan Update :=
  configure input.desired fun u => { u with accessConfig := some (input.desired.accessConfig.getD {}) }

def planUpgradePolicy (input : PlanInput Spec) : GroupPlan Update :=
  match input.desired.upgradePolicy with
  | some policy => configure input.desired fun u => { u with upgradePolicy := some policy }
  | none => .skip

/-- An existing encryption is neither dropped nor edited, and a new one comes alone. -/
def planEncryption (input : PlanInput Spec) : GroupPlan Update :=
  match input.observed.encryptionConfig, input.desired.encryptionConfig with
  | _ :: _, [] => .terminal "encryption configuration cannot be removed from an existing cluster"
  | [_], [_] => .terminal "encryption configuration cannot be updated"
  | [], _ :: _ :: _ => .terminal "only one encryption configuration is allowed"
  | _, config :: _ => .calls [.associateEncryption input.desired.name config]
  | [], [] => .skip

def readVersions (desired observed : String) : Except BadVersion (MinorVersion × MinorVersion) := do
  let want ← MinorVersion.parse desired
  let current ← MinorVersion.parse observed
  return (want, current)

/-- One step toward the desired version. Without an observed version the desired text is sent as is. -/
def planVersion (input : PlanInput Spec) : GroupPlan Update :=
  match MinorVersion.given input.desired.version, MinorVersion.given input.observed.version with
  | none, _ => .skip
  | some desired, none => .calls [.version input.desired.name desired]
  | some desired, some observed =>
    match readVersions desired observed with
    | .error bad => .terminal s!"failed to compare the desired and observed versions: {bad.message}"
    | .ok (want, current) =>
      match VersionStep.between current want with
      | .ok .reached => .skip
      | .ok (.final next) => .calls [.version input.desired.name next.text]
      | .ok (.intermediate next) => .calls [.version input.desired.name next.text]
      | .ok .downgrade =>
        .terminal s!"desired cluster version is less than the observed version: {desired} < {observed}"
      | .error bad => .terminal bad.message

def planComputeStorageNetwork (input : PlanInput Spec) : GroupPlan Update :=
  let d := input.desired
  configure d fun u =>
    { u with computeConfig := d.computeConfig, storageConfig := d.storageConfig,
             kubernetesNetworkConfig := d.kubernetesNetworkConfig }

def planZonalShift (input : PlanInput Spec) : GroupPlan Update :=
  configure input.desired fun u => { u with zonalShiftConfig := some (input.desired.zonalShiftConfig.getD {}) }

def planRemoteNetwork (input : PlanInput Spec) : GroupPlan Update :=
  configure input.desired fun u => { u with remoteNetworkConfig := some (input.desired.remoteNetworkConfig.getD {}) }

def groups : List (UpdateGroup Spec Update) :=
  [⟨"logging", ["logging"], planLogging⟩,
    ⟨"endpoint-access", ["resourcesVpcConfig.endpointPrivateAccess", "resourcesVpcConfig.endpointPublicAccess",
      "resourcesVpcConfig.publicAccessCidrs"], planEndpointAccess⟩,
    ⟨"vpc-networking", ["resourcesVpcConfig.subnetIds", "resourcesVpcConfig.securityGroupIds"], planVpcNetworking⟩,
    ⟨"access-config", ["accessConfig"], planAccessConfig⟩,
    ⟨"upgrade-policy", ["upgradePolicy"], planUpgradePolicy⟩,
    ⟨"encryption", ["encryptionConfig"], planEncryption⟩,
    ⟨"version", ["version"], planVersion⟩,
    ⟨"compute-storage-network", ["computeConfig", "storageConfig", "kubernetesNetworkConfig"],
      planComputeStorageNetwork⟩,
    ⟨"zonal-shift", ["zonalShiftConfig"], planZonalShift⟩,
    ⟨"remote-network", ["remoteNetworkConfig"], planRemoteNetwork⟩]

def loggingUnchanged : String := "No changes needed for the logging config provided"

def benign (u : Update) (f : RemoteFault) : Bool :=
  match u with
  | .config c => c.logging.isSome && f.message == loggingUnchanged
  | _ => false

def binding : Binding Spec Update where
  name := "Cluster"
  operations := ⟨"DescribeCluster", "CreateCluster", "DeleteCluster"⟩
  asyncUpdates := true
  statuses := { kind := "Cluster", terminal := [.failed] }
  table := table
  groups := groups
  resourceId s := { name := s.name }
  tags s := s.tags
  operation := Update.operation
  rejects input := input.delta.immutableChanges? immutable
  benign := benign
  codec := Spec.record.codec
  renderUpdate := Update.render

end DesiredState.Cluster
