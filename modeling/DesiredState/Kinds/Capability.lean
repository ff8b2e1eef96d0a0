import DesiredState.Binding
import DesiredState.KeyedPlan

/-!
Capabilities of a cluster. One call carries the role, the delete propagation and the Argo CD
settings. Role mappings are keyed by role: a role whose identities changed is overwritten, a role no
longer desired is removed, and mappings that are not declared at all are left alone.
-/
namespace DesiredState.Capability

structure IdentityCenter where
  idcInstanceArn : Option String := none
  idcRegion : Option String := none
  deriving DecidableEq, Repr

structure NetworkAccess where
  vpceIds : List String := []
  deriving DecidableEq, Repr

structure Identity where
  id : String
  type : String
  deriving DecidableEq, Repr

structure RoleMapping where
  role : String
  identities : List Identity := []
  deriving DecidableEq, Repr

structure ArgoCd where
  nameSpace : Option String := none
  awsIdc : Option IdentityCenter := none
  networkAccess : Option NetworkAccess := none
  rbacRoleMappings : Option (List RoleMapping) := none
  deriving DecidableEq, Repr

structure Configuration where
  argoCd : Option ArgoCd := none
  deriving DecidableEq, Repr

structure Spec where
  name : String
  clusterName : String
  type : Option String := none
  roleArn : Option String := none
  deletePropagationPolicy : Option String := none
  configuration : Option Configuration := none
  tags : Option StringMap := none
  deriving DecidableEq, Repr

def IdentityCenter.record : Record IdentityCenter IdentityCenter :=
  IdentityCenter.mk <$> .optional "idcInstanceArn" .text idcInstanceArn <*> .optional "idcRegion" .text idcRegion

def NetworkAccess.record : Record NetworkAccess NetworkAccess := NetworkAccess.mk <$> .listed "vpceIds" .text vpceIds

def Identity.record : Record Identity Identity := Identity.mk <$> .required "id" .text id <*> .required "type" .text type

def RoleMapping.record : Record RoleMapping RoleMapping :=
  RoleMapping.mk <$> .required "role" .text role
    <*> .defaulted "identities" (.list Identity.record.codec) [] identities

def ArgoCd.record : Record ArgoCd ArgoCd :=
  ArgoCd.mk <$> .optional "namespace" .text nameSpace
    <*> .optional "awsIdc" IdentityCenter.record.codec awsIdc
    <*> .optional "networkAccess" NetworkAccess.record.codec networkAccess
    <*> .optional "rbacRoleMappings" (.list RoleMapping.record.codec) rbacRoleMappings

def Configuration.record : Record Configuration Configuration :=
  Configuration.mk <$> .optional "argoCd" ArgoCd.record.codec argoCd

def Spec.record : Record Spec Spec :=
  Spec.mk <$> .required "name" .text name
    <*> .required "clusterName" .text clusterName
    <*> .optional "type" .text type
    <*> .optional "roleArn" .text roleArn
    <*> .optional "deletePropagationPolicy" .text deletePropagationPolicy
    <*> .optional "configuration" Configuration.record.codec configuration
    <*> .optional "tags" .strings tags

def Spec.argoCd (s : Spec) : Option ArgoCd := s.configuration.bind Configuration.argoCd

def Spec.roleMappings (s : Spec) : Option (List RoleMapping) := s.argoCd.bind ArgoCd.rbacRoleMappings

def Identity.order (a b : Identity) : Ordering := (compare a.id b.id).then (compare a.type b.type)

def RoleMapping.sortedIdentities (m : RoleMapping) : List Identity :=
  m.identities.mergeSort fun a b => (a.order b).isLE

def RoleMapping.sorted (m : RoleMapping) : RoleMapping := { m with identities := m.sortedIdentities }

structure MappingsChange where
  addOrUpdate : List RoleMapping
  remove : List RoleMapping
  deriving DecidableEq, Repr

structure Update where
  clusterName : String
  name : String
  roleArn : Option String
  deletePropagationPolicy : Option String
  networkAccess : Option NetworkAccess
  rbacRoleMappings : Option MappingsChange
  deriving DecidableEq, Repr

def MappingsChange.render (c : MappingsChange) : Json :=
  .object [("addOrUpdate", RoleMapping.record.codec.list.write c.addOrUpdate),
    ("remove", RoleMapping.record.codec.list.write c.remove)]

def Update.render (u : Update) : Json :=
  .ofSlots [("call", some (.text "capability")), ("clusterName", some (.text u.clusterName)),
    ("name", some (.text u.name)), ("roleArn", u.roleArn.map .text),
    ("deletePropagationPolicy", u.deletePropagationPolicy.map .text),
    ("networkAccess", u.networkAccess.map NetworkAccess.record.codec.write),
    ("rbacRoleMappings", u.rbacRoleMappings.map MappingsChange.render)]

def networkAccessPath : String := "configuration.argoCd.networkAccess"
def roleMappingsPath : String := "configuration.argoCd.rbacRoleMappings"

def table : FieldTable Spec where
  fields :=
    [.always "name" .whole fun s => .text s.name,
      .always "clusterName" .whole fun s => .text s.clusterName,
      .whenSet "type" .whole fun s => .ofOption .text s.type,
      .always "roleArn" .whole fun s => .ofOption .text s.roleArn,
      .whenSet "deletePropagationPolicy" .whole fun s => .ofOption .text s.deletePropagationPolicy,
      .whenSet "configuration.argoCd.namespace" .whole fun s => .ofOption .text (s.argoCd.bind ArgoCd.nameSpace),
      .whenSet "configuration.argoCd.awsIdc" .nested fun s =>
        .ofOption IdentityCenter.record.codec.write (s.argoCd.bind ArgoCd.awsIdc),
      .whenSet networkAccessPath .nested fun s =>
        .ofOption NetworkAccess.record.codec.write (s.argoCd.bind ArgoCd.networkAccess),
      .whenSet roleMappingsPath .multiset fun s =>
        .ofOption (fun ms => RoleMapping.record.codec.list.write (ms.map RoleMapping.sorted)) s.roleMappings]

def immutable : List String :=
  ["name", "clusterName", "type", "configuration.argoCd.namespace", "configuration.argoCd.awsIdc"]

def mappingsChange? (desired observed : List RoleMapping) : Option MappingsChange :=
  let plan := KeyedPlan.reconcile RoleMapping.role
    (fun want held => want.sortedIdentities == held.sortedIdentities) .inPlace desired observed
  if plan.isEmpty then none
  else some ⟨plan.toAdd ++ plan.toUpdate.map Prod.fst, observed.filter fun m => plan.toRemove.contains m.role⟩

def planCapability (input : PlanInput Spec) : GroupPlan Update :=
  let d := input.desired
  let mappings := match d.roleMappings with
    | some desired => mappingsChange? desired (input.observed.roleMappings.getD [])
    | none => none
  .calls [{
    clusterName := d.clusterName
    name := d.name
    roleArn := d.roleArn
    deletePropagationPolicy := d.deletePropagationPolicy
    networkAccess := if input.delta.differsAt networkAccessPath then d.argoCd.bind ArgoCd.networkAccess else none
    rbacRoleMappings := if input.delta.differsAt roleMappingsPath then mappings else none }]

def groups : List (UpdateGroup Spec Update) :=
  [⟨"capability", ["roleArn", "deletePropagationPolicy", networkAccessPath, roleMappingsPath], planCapability⟩]

def binding : Binding Spec Update where
  name := "Capability"
  operations := ⟨"DescribeCapability", "CreateCapability", "DeleteCapability"⟩
  asyncUpdates := true
  statuses := { kind := "Capability", terminal := [.createFailed, .deleteFailed] }
  table := table
  groups := groups
  resourceId s := .child s.clusterName s.name
  tags s := s.tags
  operation _ := "UpdateCapability"
  rejects input := input.delta.immutableChanges? immutable
  benign _ _ := false
  codec := Spec.record.codec
  renderUpdate := Update.render

end DesiredState.Capability
