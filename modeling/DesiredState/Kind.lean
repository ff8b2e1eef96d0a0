import DesiredState.Kinds.AccessEntry
import DesiredState.Kinds.Addon
import DesiredState.Kinds.Capability
import DesiredState.Kinds.Cluster
import DesiredState.Kinds.FargateProfile
import DesiredState.Kinds.IdentityProviderConfig
import DesiredState.Kinds.Nodegroup
import DesiredState.Kinds.PodIdentityAssociation

/-!
The kinds of resources and their bindings.
-/
namespace DesiredState

inductive Kind where
  | cluster
  | nodegroup
  | addon
  | accessEntry
  | fargateProfile
  | capability
  | podIdentityAssociation
  | identityProviderConfig
  deriving DecidableEq, Repr

namespace Kind

def Spec : Kind → Type
  | .cluster => Cluster.Spec
  | .nodegroup => Nodegroup.Spec
  | .addon => Addon.Spec
  | .accessEntry => AccessEntry.Spec
  | .fargateProfile => FargateProfile.Spec
  | .capability => Capability.Spec
  | .podIdentityAssociation => PodIdentityAssociation.Spec
  | .identityProviderConfig => IdentityProviderConfig.Spec

def Update : Kind → Type
  | .cluster => Cluster.Update
  | .nodegroup => Nodegroup.Update
  | .addon => Addon.Update
  | .accessEntry => AccessEntry.Update
  | .fargateProfile => FargateProfile.Update
  | .capability => Capability.Update
  | .podIdentityAssociation => PodIdentityAssociation.Update
  | .identityProviderConfig => IdentityProviderConfig.Update

def binding : (k : Kind) → Binding k.Spec k.Update
  | .cluster => Cluster.binding
  | .nodegroup => Nodegroup.binding
  | .addon => Addon.binding
  | .accessEntry => AccessEntry.binding
  | .fargateProfile => FargateProfile.binding
  | .capability => Capability.binding
  | .podIdentityAssociation => PodIdentityAssociation.binding
  | .identityProviderConfig => IdentityProviderConfig.binding

def all : List Kind :=
  [.cluster, .nodegroup, .addon, .accessEntry, .fargateProfile, .capability, .podIdentityAssociation,
    .identityProviderConfig]

def ofName? (name : String) : Option Kind := all.find? fun k => k.binding.name == name

end Kind
end DesiredState
