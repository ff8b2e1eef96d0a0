import DesiredState.Binding
import DesiredState.KeyedPlan

/-!
Access entries: who may enter a cluster, and with which policies. They have no lifecycle and are
updated at once. An association cannot be changed in place, so a new scope is a removal and an
addition under the same policy.
-/
namespace DesiredState.AccessEntry

structure AccessScope where
  type : Option String := none
  namespaces : Option (List String) := none
  deriving DecidableEq, Repr

structure AccessPolicy where
  policyArn : String
  accessScope : AccessScope := {}
  deriving DecidableEq, Repr

structure Spec where
  clusterName : String
  principalArn : String
  type : Option String := none
  kubernetesGroups : List String := []
  username : Option String := none
  accessPolicies : List AccessPolicy := []
  tags : Option StringMap := none
  deriving DecidableEq, Repr

def AccessScope.record : Record AccessScope AccessScope :=
  AccessScope.mk <$> .optional "type" .text type <*> .optional "namespaces" (.list .text) namespaces

def AccessPolicy.record : Record AccessPolicy AccessPolicy :=
  AccessPolicy.mk <$> .required "policyArn" .text policyArn
    <*> .defaulted "accessScope" AccessScope.record.codec {} accessScope

def Spec.record : Record Spec Spec :=
  Spec.mk <$> .required "clusterName" .text clusterName
    <*> .required "principalArn" .text principalArn
    <*> .optional "type" .text type
    <*> .listed "kubernetesGroups" .text kubernetesGroups
    <*> .optional "username" .text username
    <*> .listed "accessPolicies" AccessPolicy.record.codec accessPolicies
    <*> .optional "tags" .strings tags

/-- What a scope means: an unset type is empty, and so are unset namespaces; their order is none. -/
def AccessScope.normalized (s : AccessScope) : String × List String :=
  (s.type.getD "", (s.namespaces.getD []).mergeSort fun a b => (compare a b).isLE)

def AccessPolicy.normalized (p : AccessPolicy) : AccessPolicy :=
  { p with accessScope := ⟨some p.accessScope.normalized.1, some p.accessScope.normalized.2⟩ }

inductive Update where
  /-- Replaces the groups, and the name if one is given. -/
  | entry (clusterName principalArn : String) (kubernetesGroups : List String) (username : Option String)
  | associate (clusterName principalArn : String) (policy : AccessPolicy)
  | disassociate (clusterName principalArn policyArn : String)
  deriving DecidableEq, Repr

def Update.render : Update → Json
  | .entry clusterName principalArn kubernetesGroups username =>
    .ofSlots [("call", some (.text "entry")), ("clusterName", some (.text clusterName)),
      ("principalArn", some (.text principalArn)),
      ("kubernetesGroups", some (Codec.text.list.write kubernetesGroups)), ("username", username.map .text)]
  | .associate clusterName principalArn policy =>
    .object [("call", .text "associate"), ("clusterName", .text clusterName),
      ("principalArn", .text principalArn), ("policy", AccessPolicy.record.codec.write policy)]
  | .disassociate clusterName principalArn policyArn =>
    .object [("call", .text "disassociate"), ("clusterName", .text clusterName),
      ("principalArn", .text principalArn), ("policyArn", .text policyArn)]

def Update.operation : Update → String
  | .entry _ _ _ _ => "UpdateAccessEntry"
  | .associate _ _ _ => "AssociateAccessPolicy"
  | .disassociate _ _ _ => "DisassociateAccessPolicy"

def table : FieldTable Spec where
  fields :=
    [.always "clusterName" .whole fun s => .text s.clusterName,
      .always "principalArn" .whole fun s => .text s.principalArn,
      .whenSet "type" .whole fun s => .ofOption .text s.type,
      .always "kubernetesGroups" .multiset fun s => Codec.text.list.write s.kubernetesGroups,
      .whenSet "username" .whole fun s => .ofOption .text s.username,
      .always "accessPolicies" .multiset fun s =>
        AccessPolicy.record.codec.list.write (s.accessPolicies.map AccessPolicy.normalized)]

def immutable : List String := ["type", "principalArn", "clusterName"]

def planEntry (input : PlanInput Spec) : GroupPlan Update :=
  let d := input.desired
  .calls [.entry d.clusterName d.principalArn d.kubernetesGroups d.username]

def policyPlan (desired observed : List AccessPolicy) : KeyedPlan AccessPolicy String :=
  KeyedPlan.reconcile AccessPolicy.policyArn
    (fun want held => want.accessScope.normalized == held.accessScope.normalized) .removeThenAdd desired observed

def policyCall (d : Spec) : PlanStep AccessPolicy String → Update
  | .remove policyArn => .disassociate d.clusterName d.principalArn policyArn
  | .update policy _ => .associate d.clusterName d.principalArn policy
  | .add policy => .associate d.clusterName d.principalArn policy

def planAccessPolicies (input : PlanInput Spec) : GroupPlan Update :=
  let plan := policyPlan input.desired.accessPolicies input.observed.accessPolicies
  if plan.isEmpty then .skip else .calls (plan.steps.map (policyCall input.desired))

def groups : List (UpdateGroup Spec Update) :=
  [⟨"entry", ["kubernetesGroups", "username"], planEntry⟩,
    ⟨"access-policies", ["accessPolicies"], planAccessPolicies⟩]

def binding : Binding Spec Update where
  name := "AccessEntry"
  operations := ⟨"DescribeAccessEntry", "CreateAccessEntry", "DeleteAccessEntry"⟩
  asyncUpdates := false
  statuses := .alwaysActive "AccessEntry"
  table := table
  groups := groups
  resourceId s := .child s.clusterName s.principalArn
  tags s := s.tags
  operation := Update.operation
  rejects input := input.delta.immutableChanges? immutable
  benign _ _ := false
  codec := Spec.record.codec
  renderUpdate := Update.render

end DesiredState.AccessEntry
