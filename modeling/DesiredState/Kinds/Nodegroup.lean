import DesiredState.Binding
import DesiredState.KeyedPlan
import DesiredState.Version

/-!
Nodegroups. One category changes labels, taints, sizes and limits, the other moves the version one
minor per pass or rolls to a launch template. The desired size may belong to an external autoscaler:
then it is never compared, and a sent scaling keeps the observed size.
-/
namespace DesiredState.Nodegroup

structure RemoteAccess where
  ec2SshKey : Option String := none
  sourceSecurityGroups : List String := []
  deriving DecidableEq, Repr

structure Taint where
  key : String
  value : Option String := none
  effect : String
  deriving DecidableEq, Repr

structure Scaling where
  minSize : Option Int64 := none
  maxSize : Option Int64 := none
  desiredSize : Option Int64 := none
  deriving DecidableEq, Repr

structure UpdateLimits where
  maxUnavailable : Option Int64 := none
  maxUnavailablePercentage : Option Int64 := none
  deriving DecidableEq, Repr

structure NodeRepair where
  enabled : Option Bool := none
  deriving DecidableEq, Repr

structure LaunchTemplate where
  id : Option String := none
  name : Option String := none
  version : Option String := none
  deriving DecidableEq, Repr

structure Spec where
  name : String
  clusterName : String
  nodeRole : Option String := none
  subnets : List String := []
  amiType : Option String := none
  capacityType : Option String := none
  diskSize : Option Int64 := none
  instanceTypes : List String := []
  remoteAccess : Option RemoteAccess := none
  labels : Option StringMap := none
  taints : List Taint := []
  scalingConfig : Option Scaling := none
  updateConfig : Option UpdateLimits := none
  nodeRepairConfig : Option NodeRepair := none
  version : Option String := none
  releaseVersion : Option String := none
  launchTemplate : Option LaunchTemplate := none
  tags : Option StringMap := none
  deriving DecidableEq, Repr

def RemoteAccess.record : Record RemoteAccess RemoteAccess :=
  RemoteAccess.mk <$> .optional "ec2SshKey" .text ec2SshKey
    <*> .listed "sourceSecurityGroups" .text sourceSecurityGroups

def Taint.record : Record Taint Taint :=
  Taint.mk <$> .required "key" .text key <*> .optional "value" .text value <*> .required "effect" .text effect

def Scaling.record : Record Scaling Scaling :=
  Scaling.mk <$> .optional "minSize" .int64 minSize
    <*> .optional "maxSize" .int64 maxSize
    <*> .optional "desiredSize" .int64 desiredSize

def UpdateLimits.record : Record UpdateLimits UpdateLimits :=
  UpdateLimits.mk <$> .optional "maxUnavailable" .int64 maxUnavailable
    <*> .optional "maxUnavailablePercentage" .int64 maxUnavailablePercentage

def NodeRepair.record : Record NodeRepair NodeRepair := NodeRepair.mk <$> .optional "enabled" .bool enabled

def LaunchTemplate.record : Record LaunchTemplate LaunchTemplate :=
  LaunchTemplate.mk <$> .optional "id" .text id <*> .optional "name" .text name <*> .optional "version" .text version

def Spec.record : Record Spec Spec :=
  Spec.mk <$> .required "name" .text name
    <*> .required "clusterName" .text clusterName
    <*> .optional "nodeRole" .text nodeRole
    <*> .listed "subnets" .text subnets
    <*> .optional "amiType" .text amiType
    <*> .optional "capacityType" .text capacityType
    <*> .optional "diskSize" .int64 diskSize
    <*> .listed "instanceTypes" .text instanceTypes
    <*> .optional "remoteAccess" RemoteAccess.record.codec remoteAccess
    <*> .optional "labels" .strings labels
    <*> .listed "taints" Taint.record.codec taints
    <*> .optional "scalingConfig" Scaling.record.codec scalingConfig
    <*> .optional "updateConfig" UpdateLimits.record.codec updateConfig
    <*> .optional "nodeRepairConfig" NodeRepair.record.codec nodeRepairConfig
    <*> .optional "version" .text version
    <*> .optional "releaseVersion" .text releaseVersion
    <*> .optional "launchTemplate" LaunchTemplate.record.codec launchTemplate
    <*> .optional "tags" .strings tags

structure LabelsChange where
  addOrUpdate : StringMap
  remove : List String
  deriving DecidableEq, Repr

structure TaintsChange where
  addOrUpdate : List Taint
  remove : List Taint
  deriving DecidableEq, Repr

structure ConfigUpdate where
  clusterName : String
  nodegroupName : String
  labels : Option LabelsChange
  taints : Option TaintsChange
  scalingConfig : Option Scaling
  updateConfig : Option UpdateLimits
  nodeRepairConfig : Option NodeRepair
  deriving DecidableEq, Repr

structure VersionUpdate where
  clusterName : String
  nodegroupName : String
  version : Option String
  releaseVersion : Option String
  launchTemplate : Option LaunchTemplate
  /-- Pass over the disruption checks. -/
  force : Bool
  deriving DecidableEq, Repr

inductive Update where
  | config (u : ConfigUpdate)
  | version (u : VersionUpdate)
  deriving DecidableEq, Repr

def LabelsChange.render (c : LabelsChange) : Json :=
  .object [("addOrUpdate", Codec.strings.write c.addOrUpdate), ("remove", Codec.text.list.write c.remove)]

def TaintsChange.render (c : TaintsChange) : Json :=
  .object [("addOrUpdate", Taint.record.codec.list.write c.addOrUpdate),
    ("remove", Taint.record.codec.list.write c.remove)]

def Update.render : Update → Json
  | .config u =>
    .ofSlots [("call", some (.text "config")), ("clusterName", some (.text u.clusterName)),
      ("nodegroupName", some (.text u.nodegroupName)), ("labels", u.labels.map LabelsChange.render),
      ("taints", u.taints.map TaintsChange.render),
      ("scalingConfig", u.scalingConfig.map Scaling.record.codec.write),
      ("updateConfig", u.updateConfig.map UpdateLimits.record.codec.write),
      ("nodeRepairConfig", u.nodeRepairConfig.map NodeRepair.record.codec.write)]
  | .version u =>
    .ofSlots [("call", some (.text "version")), ("clusterName", some (.text u.clusterName)),
      ("nodegroupName", some (.text u.nodegroupName)), ("version", u.version.map .text),
      ("releaseVersion", u.releaseVersion.map .text),
      ("launchTemplate", u.launchTemplate.map LaunchTemplate.record.codec.write), ("force", some (.bool u.force))]

def Update.operation : Update → String
  | .config _ => "UpdateNodegroupConfig"
  | .version _ => "UpdateNodegroupVersion"

def desiredSizePath : String := "scalingConfig.desiredSize"

def table : FieldTable Spec where
  fields :=
    [.always "name" .whole fun s => .text s.name,
      .always "clusterName" .whole fun s => .text s.clusterName,
      .always "nodeRole" .whole fun s => .ofOption .text s.nodeRole,
      .always "subnets" .multiset fun s => Codec.text.list.write s.subnets,
      .whenSet "amiType" .whole fun s => .ofOption .text s.amiType,
      .whenSet "capacityType" .whole fun s => .ofOption .text s.capacityType,
      .whenSet "diskSize" .whole fun s => .ofOption Codec.int64.write s.diskSize,
      .whenSet "instanceTypes" .multiset fun s => Codec.text.list.write s.instanceTypes,
      .always "remoteAccess" .nested fun s => .ofOption RemoteAccess.record.codec.write s.remoteAccess,
      .always "labels" .map fun s => .ofOption Codec.strings.write s.labels,
      .always "taints" .multiset fun s => Taint.record.codec.list.write s.taints,
      .always "scalingConfig" .nested fun s => .ofOption Scaling.record.codec.write s.scalingConfig,
      .always "updateConfig" .nested fun s => .ofOption UpdateLimits.record.codec.write s.updateConfig,
      .always "nodeRepairConfig" .nested fun s => .ofOption NodeRepair.record.codec.write s.nodeRepairConfig,
      .whenSet "version" .whole fun s => .ofOption .text s.version,
      .whenSet "releaseVersion" .whole fun s => .ofOption .text s.releaseVersion,
      .always "launchTemplate" .nested fun s => .ofOption LaunchTemplate.record.codec.write s.launchTemplate]
  handovers := [⟨desiredSizePath, Annotations.sizeOwner⟩]

def immutable : List String :=
  ["amiType", "capacityType", "diskSize", "instanceTypes", "nodeRole", "remoteAccess", "subnets", "clusterName",
    "name"]

def labelsChange? (desired observed : Spec) : Option LabelsChange :=
  let plan := (desired.labels.getD .empty).reconcile (observed.labels.getD .empty)
  if plan.isEmpty then none else some ⟨plan.written, plan.toRemove⟩

def taintsChange? (desired observed : Spec) : Option TaintsChange :=
  let plan := KeyedPlan.reconcile Taint.key (fun want held => want == held) .inPlace desired.taints observed.taints
  if plan.isEmpty then none
  else some ⟨desired.taints, observed.taints.filter fun t => plan.toRemove.contains t.key⟩

/-- The scaling to send: with an external owner the observed size stays, where a scaling is observed. -/
def scaling? (desired observed : Spec) (annotations : Annotations) : Option Scaling :=
  desired.scalingConfig.map fun scaling =>
    match annotations.sizeOwner, observed.scalingConfig with
    | .external, some current => { scaling with desiredSize := current.desiredSize }
    | _, _ => scaling

def planConfig (input : PlanInput Spec) : GroupPlan Update :=
  let d := input.desired
  let u : ConfigUpdate :=
    { clusterName := d.clusterName
      nodegroupName := d.name
      labels := labelsChange? d input.observed
      taints := taintsChange? d input.observed
      scalingConfig := scaling? d input.observed input.annotations
      updateConfig := d.updateConfig
      nodeRepairConfig := d.nodeRepairConfig }
  if u.labels.isNone && u.taints.isNone && u.scalingConfig.isNone && u.updateConfig.isNone
      && u.nodeRepairConfig.isNone then .skip
  else .calls [.config u]

def readGiven (parse : String → Except BadVersion MinorVersion) (raw : Option String) :
    Except String (Option MinorVersion) :=
  match MinorVersion.given raw with
  | none => .ok none
  | some text => ((parse text).map some).mapError BadVersion.message

def goals (d : Spec) : Except String (Option MinorVersion × Option MinorVersion) := do
  let release ← readGiven MinorVersion.parseRelease d.releaseVersion
  let version ← readGiven MinorVersion.parse d.version
  match version, release with
  | some v, some r =>
    if v = r then return (version, release)
    else throw s!"version and release version do not match: {v.text} and {r.text}"
  | _, _ => return (version, release)

/-- The version and release to send on the way from the observed version to the target. The desired
release belongs to the target, so it waits for the last step. -/
def advance (d : Spec) (observed : Option String) (version : Option MinorVersion) (target : MinorVersion) :
    Except String (Option String × Option String) := do
  match ← readGiven MinorVersion.parse observed with
  | none => return (version.map MinorVersion.text, d.releaseVersion)
  | some current =>
    match ← (VersionStep.between current target).mapError BadVersion.message with
    | .downgrade =>
      throw s!"desired nodegroup version is less than the observed version: {target.text} < {current.text}"
    | .reached => return (none, d.releaseVersion)
    | .final next => return (some next.text, d.releaseVersion)
    | .intermediate next => return (some next.text, none)

def versionUpdate (input : PlanInput Spec) : Except String VersionUpdate := do
  let d := input.desired
  let (version, release) ← goals d
  let changed := input.delta.differsAt "version" || input.delta.differsAt "releaseVersion"
  let (sentVersion, sentRelease) ← match changed, version.or release with
    | true, some target => advance d input.observed.version version target
    | _, _ => .ok (none, none)
  return {
    clusterName := d.clusterName
    nodegroupName := d.name
    version := sentVersion
    releaseVersion := sentRelease
    launchTemplate := if input.delta.differsAt "launchTemplate" then d.launchTemplate else none
    force := input.annotations.forcesUpdate }

def planVersion (input : PlanInput Spec) : GroupPlan Update :=
  match versionUpdate input with
  | .error reason => .terminal reason
  | .ok u =>
    if u.version.isNone && u.releaseVersion.isNone && u.launchTemplate.isNone then .skip
    else .calls [.version u]

def groups : List (UpdateGroup Spec Update) :=
  [⟨"config", ["labels", "taints", "scalingConfig", "updateConfig", "nodeRepairConfig"], planConfig⟩,
    ⟨"version", ["version", "releaseVersion", "launchTemplate"], planVersion⟩]

def binding : Binding Spec Update where
  name := "Nodegroup"
  operations := ⟨"DescribeNodegroup", "CreateNodegroup", "DeleteNodegroup"⟩
  asyncUpdates := true
  statuses := { kind := "Nodegroup", terminal := [.createFailed, .deleteFailed] }
  table := table
  groups := groups
  resourceId s := .child s.clusterName s.name
  tags s := s.tags
  operation := Update.operation
  rejects input := input.delta.immutableChanges? immutable
  benign _ _ := false
  codec := Spec.record.codec
  renderUpdate := Update.render

end DesiredState.Nodegroup
