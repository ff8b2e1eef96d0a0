import DesiredState.Binding

/-!
Addons of a cluster. One call carries the version, the configuration and the roles. How the remote
resolves conflicts is sent and never compared.
-/
namespace DesiredState.Addon

structure PodRole where
  serviceAccount : String
  roleArn : String
  deriving DecidableEq, Repr

structure Spec where
  name : String
  clusterName : String
  addonVersion : Option String := none
  configurationValues : Option String := none
  serviceAccountRoleArn : Option String := none
  resolveConflicts : Option String := none
  podIdentityAssociations : List PodRole := []
  tags : Option StringMap := none
  deriving DecidableEq, Repr

def PodRole.record : Record PodRole PodRole :=
  PodRole.mk <$> .required "serviceAccount" .text serviceAccount <*> .required "roleArn" .text roleArn

def Spec.record : Record Spec Spec :=
  Spec.mk <$> .required "name" .text name
    <*> .required "clusterName" .text clusterName
    <*> .optional "addonVersion" .text addonVersion
    <*> .optional "configurationValues" .text configurationValues
    <*> .optional "serviceAccountRoleArn" .text serviceAccountRoleArn
    <*> .optional "resolveConflicts" .text resolveConflicts
    <*> .listed "podIdentityAssociations" PodRole.record.codec podIdentityAssociations
    <*> .optional "tags" .strings tags

structure Update where
  clusterName : String
  addonName : String
  addonVersion : Option String
  configurationValues : Option String
  serviceAccountRoleArn : Option String
  resolveConflicts : Option String
  podIdentityAssociations : List PodRole
  deriving DecidableEq, Repr

def Update.render (u : Update) : Json :=
  .ofSlots [("call", some (.text "addon")), ("clusterName", some (.text u.clusterName)),
    ("addonName", some (.text u.addonName)), ("addonVersion", u.addonVersion.map .text),
    ("configurationValues", u.configurationValues.map .text),
    ("serviceAccountRoleArn", u.serviceAccountRoleArn.map .text),
    ("resolveConflicts", u.resolveConflicts.map .text),
    ("podIdentityAssociations", some (PodRole.record.codec.list.write u.podIdentityAssociations))]

def table : FieldTable Spec where
  fields :=
    [.always "name" .whole fun s => .text s.name,
      .always "clusterName" .whole fun s => .text s.clusterName,
      .always "addonVersion" .whole fun s => .ofOption .text s.addonVersion,
      .always "configurationValues" .whole fun s => .ofOption .text s.configurationValues,
      .always "serviceAccountRoleArn" .whole fun s => .ofOption .text s.serviceAccountRoleArn,
      .always "podIdentityAssociations" .multiset fun s => PodRole.record.codec.list.write s.podIdentityAssociations]

def immutable : List String := ["clusterName", "name"]

def planAddon (input : PlanInput Spec) : GroupPlan Update :=
  let d := input.desired
  .calls [{
    clusterName := d.clusterName
    addonName := d.name
    addonVersion := d.addonVersion
    configurationValues := d.configurationValues
    serviceAccountRoleArn := d.serviceAccountRoleArn
    resolveConflicts := d.resolveConflicts
    podIdentityAssociations := d.podIdentityAssociations }]

def groups : List (UpdateGroup Spec Update) :=
  [⟨"addon", ["addonVersion", "configurationValues", "serviceAccountRoleArn", "podIdentityAssociations"],
    planAddon⟩]

def binding : Binding Spec Update where
  name := "Addon"
  operations := ⟨"DescribeAddon", "CreateAddon", "DeleteAddon"⟩
  asyncUpdates := true
  statuses := { kind := "Addon", terminal := [.createFailed, .updateFailed, .deleteFailed] }
  table := table
  groups := groups
  resourceId s := .child s.clusterName s.name
  tags s := s.tags
  operation _ := "UpdateAddon"
  rejects input := input.delta.immutableChanges? immutable
  benign _ _ := false
  codec := Spec.record.codec
  renderUpdate := Update.render

end DesiredState.Addon
