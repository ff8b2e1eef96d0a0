import DesiredState.Binding

/-!
Fargate profiles. They cannot be changed once created: only tags are brought up to date, and any
other difference is final until the profile is made anew.
-/
namespace DesiredState.FargateProfile

structure Selector where
  nameSpace : String
  labels : Option StringMap := none
  deriving DecidableEq, Repr

structure Spec where
  name : String
  clusterName : String
  podExecutionRoleArn : Option String := none
  subnets : List String := []
  selectors : List Selector := []
  tags : Option StringMap := none
  deriving DecidableEq, Repr

def Selector.record : Record Selector Selector :=
  Selector.mk <$> .required "namespace" .text nameSpace <*> .optional "labels" .strings labels

def Spec.record : Record Spec Spec :=
  Spec.mk <$> .required "name" .text name
    <*> .required "clusterName" .text clusterName
    <*> .optional "podExecutionRoleArn" .text podExecutionRoleArn
    <*> .listed "subnets" .text subnets
    <*> .listed "selectors" Selector.record.codec selectors
    <*> .optional "tags" .strings tags

inductive Update
  deriving DecidableEq, Repr

def table : FieldTable Spec where
  fields :=
    [.always "name" .whole fun s => .text s.name,
      .always "clusterName" .whole fun s => .text s.clusterName,
      .always "podExecutionRoleArn" .whole fun s => .ofOption .text s.podExecutionRoleArn,
      .always "subnets" .multiset fun s => Codec.text.list.write s.subnets,
      .always "selectors" .multiset fun s => Selector.record.codec.list.write s.selectors]

def refusal : String :=
  "changes to fargate profile resources are not currently possible; delete and recreate the resource"

def binding : Binding Spec Update where
  name := "FargateProfile"
  operations := ⟨"DescribeFargateProfile", "CreateFargateProfile", "DeleteFargateProfile"⟩
  asyncUpdates := true
  statuses := { kind := "FargateProfile", terminal := [.createFailed, .deleteFailed] }
  table := table
  groups := []
  resourceId s := .child s.clusterName s.name
  tags s := s.tags
  operation u := nomatch u
  rejects input := if input.delta.isEmpty then none else some refusal
  benign u _ := nomatch u
  codec := Spec.record.codec
  renderUpdate u := nomatch u

end DesiredState.FargateProfile
