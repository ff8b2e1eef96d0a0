import DesiredState.Binding

/-!
OIDC identity providers of a cluster. A configuration is associated when created and disassociated
when deleted; in between only tags are brought up to date, any other difference is final.
-/
namespace DesiredState.IdentityProviderConfig

structure Oidc where
  identityProviderConfigName : String
  issuerUrl : Option String := none
  clientId : Option String := none
  usernameClaim : Option String := none
  usernamePrefix : Option String := none
  groupsClaim : Option String := none
  groupsPrefix : Option String := none
  requiredClaims : Option StringMap := none
  deriving DecidableEq, Repr

structure Spec where
  clusterName : String
  oidc : Oidc
  tags : Option StringMap := none
  deriving DecidableEq, Repr

def Oidc.record : Record Oidc Oidc :=
  Oidc.mk <$> .required "identityProviderConfigName" .text identityProviderConfigName
    <*> .optional "issuerURL" .text issuerUrl
    <*> .optional "clientID" .text clientId
    <*> .optional "usernameClaim" .text usernameClaim
    <*> .optional "usernamePrefix" .text usernamePrefix
    <*> .optional "groupsClaim" .text groupsClaim
    <*> .optional "groupsPrefix" .text groupsPrefix
    <*> .optional "requiredClaims" .strings requiredClaims

def Spec.record : Record Spec Spec :=
  Spec.mk <$> .required "clusterName" .text clusterName
    <*> .required "oidc" Oidc.record.codec oidc
    <*> .optional "tags" .strings tags

inductive Update
  deriving DecidableEq, Repr

def table : FieldTable Spec where
  fields :=
    [.always "clusterName" .whole fun s => .text s.clusterName,
      .always "oidc" .nested fun s => Oidc.record.codec.write s.oidc]

def refusal : String :=
  "changes to identity provider configs are not currently possible; delete and recreate the resource"

def binding : Binding Spec Update where
  name := "IdentityProviderConfig"
  operations :=
    ⟨"DescribeIdentityProviderConfig", "AssociateIdentityProviderConfig", "DisassociateIdentityProviderConfig"⟩
  asyncUpdates := true
  statuses := { kind := "IdentityProviderConfig", terminal := [] }
  table := table
  groups := []
  resourceId s := .child s.clusterName s.oidc.identityProviderConfigName
  tags s := s.tags
  operation u := nomatch u
  rejects input := if input.delta.isEmpty then none else some refusal
  benign u _ := nomatch u
  codec := Spec.record.codec
  renderUpdate u := nomatch u

end DesiredState.IdentityProviderConfig
