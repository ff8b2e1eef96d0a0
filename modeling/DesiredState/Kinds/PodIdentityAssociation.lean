import DesiredState.Binding

/-!
Pod identity associations, addressed by cluster, namespace and service account. They have no
lifecycle and are updated at once.
-/
namespace DesiredState.PodIdentityAssociation

structure Spec where
  clusterName : String
  nameSpace : String
  serviceAccount : String
  roleArn : Option String := none
  targetRoleArn : Option String := none
  disableSessionTags : Option Bool := none
  tags : Option StringMap := none
  deriving DecidableEq, Repr

def Spec.record : Record Spec Spec :=
  Spec.mk <$> .required "clusterName" .text clusterName
    <*> .required "namespace" .text nameSpace
    <*> .required "serviceAccount" .text serviceAccount
    <*> .optional "roleArn" .text roleArn
    <*> .optional "targetRoleArn" .text targetRoleArn
    <*> .optional "disableSessionTags" .bool disableSessionTags
    <*> .optional "tags" .strings tags

structure Update where
  clusterName : String
  nameSpace : String
  serviceAccount : String
  roleArn : Option String
  targetRoleArn : Option String
  disableSessionTags : Option Bool
  deriving DecidableEq, Repr

def Update.render (u : Update) : Json :=
  .ofSlots [("call", some (.text "association")), ("clusterName", some (.text u.clusterName)),
    ("namespace", some (.text u.nameSpace)), ("serviceAccount", some (.text u.serviceAccount)),
    ("roleArn", u.roleArn.map .text), ("targetRoleArn", u.targetRoleArn.map .text),
    ("disableSessionTags", u.disableSessionTags.map .bool)]

def table : FieldTable Spec where
  fields :=
    [.always "clusterName" .whole fun s => .text s.clusterName,
      .always "namespace" .whole fun s => .text s.nameSpace,
      .always "serviceAccount" .whole fun s => .text s.serviceAccount,
      .always "roleArn" .whole fun s => .ofOption .text s.roleArn,
      .always "targetRoleArn" .whole fun s => .ofOption .text s.targetRoleArn,
      .always "disableSessionTags" .whole fun s => .ofOption .bool s.disableSessionTags]

def immutable : List String := ["clusterName", "namespace", "serviceAccount"]

def planAssociation (input : PlanInput Spec) : GroupPlan Update :=
  let d := input.desired
  .calls [{
    clusterName := d.clusterName
    nameSpace := d.nameSpace
    serviceAccount := d.serviceAccount
    roleArn := d.roleArn
    targetRoleArn := d.targetRoleArn
    disableSessionTags := d.disableSessionTags }]

def groups : List (UpdateGroup Spec Update) :=
  [⟨"association", ["roleArn", "targetRoleArn", "disableSessionTags"], planAssociation⟩]

def binding : Binding Spec Update where
  name := "PodIdentityAssociation"
  operations :=
    ⟨"DescribePodIdentityAssociation", "CreatePodIdentityAssociation", "DeletePodIdentityAssociation"⟩
  asyncUpdates := false
  statuses := .alwaysActive "PodIdentityAssociation"
  table := table
  groups := groups
  resourceId s := .child s.clusterName s!"{s.nameSpace}/{s.serviceAccount}"
  tags s := s.tags
  operation _ := "UpdatePodIdentityAssociation"
  rejects input := input.delta.immutableChanges? immutable
  benign _ _ := false
  codec := Spec.record.codec
  renderUpdate := Update.render

end DesiredState.PodIdentityAssociation
