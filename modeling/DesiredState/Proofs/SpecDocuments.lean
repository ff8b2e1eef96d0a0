import DesiredState.Kind
import DesiredState.Proofs.Documents
import Mathlib.Logic.Relation

/-!
Written specs. A spec of any kind reads back from the document it is written to, and reads the same when unknown
members are added to any of its records, or null for optional ones that were left out. -/
namespace DesiredState

namespace Cluster

instance : LogSetup.record.codec.Formed := .record (by delta LogSetup.record; infer_instance)

instance : Logging.record.codec.Formed := .record (by delta Logging.record; infer_instance)

instance : VpcConfig.record.codec.Formed := .record (by delta VpcConfig.record; infer_instance)

instance : AccessConfig.record.codec.Formed := .record (by delta AccessConfig.record; infer_instance)

instance : UpgradePolicy.record.codec.Formed := .record (by delta UpgradePolicy.record; infer_instance)

instance : Provider.record.codec.Formed := .record (by delta Provider.record; infer_instance)

instance : EncryptionConfig.record.codec.Formed := .record (by delta EncryptionConfig.record; infer_instance)

instance : ComputeConfig.record.codec.Formed := .record (by delta ComputeConfig.record; infer_instance)

instance : Toggle.record.codec.Formed := .record (by delta Toggle.record; infer_instance)

instance : StorageConfig.record.codec.Formed := .record (by delta StorageConfig.record; infer_instance)

instance : KubernetesNetworkConfig.record.codec.Formed := .record (by delta KubernetesNetworkConfig.record; infer_instance)

instance : RemoteNetwork.record.codec.Formed := .record (by delta RemoteNetwork.record; infer_instance)

instance : RemoteNetworkConfig.record.codec.Formed := .record (by delta RemoteNetworkConfig.record; infer_instance)

instance : Spec.record.codec.Formed := .record (by delta Spec.record; infer_instance)

end Cluster

namespace Nodegroup

instance : RemoteAccess.record.codec.Formed := .record (by delta RemoteAccess.record; infer_instance)

instance : Taint.record.codec.Formed := .record (by delta Taint.record; infer_instance)

instance : Scaling.record.codec.Formed := .record (by delta Scaling.record; infer_instance)

instance : UpdateLimits.record.codec.Formed := .record (by delta UpdateLimits.record; infer_instance)

instance : NodeRepair.record.codec.Formed := .record (by delta NodeRepair.record; infer_instance)

instance : LaunchTemplate.record.codec.Formed := .record (by delta LaunchTemplate.record; infer_instance)

instance : Spec.record.codec.Formed := .record (by delta Spec.record; infer_instance)

end Nodegroup

namespace Addon

instance : PodRole.record.codec.Formed := .record (by delta PodRole.record; infer_instance)

instance : Spec.record.codec.Formed := .record (by delta Spec.record; infer_instance)

end Addon

namespace AccessEntry

instance : AccessScope.record.codec.Formed := .record (by delta AccessScope.record; infer_instance)

instance : AccessPolicy.record.codec.Formed := .record (by delta AccessPolicy.record; infer_instance)

instance : Spec.record.codec.Formed := .record (by delta Spec.record; infer_instance)

end AccessEntry

namespace FargateProfile

instance : Selector.record.codec.Formed := .record (by delta Selector.record; infer_instance)

instance : Spec.record.codec.Formed := .record (by delta Spec.record; infer_instance)

end FargateProfile

namespace Capability

instance : IdentityCenter.record.codec.Formed := .record (by delta IdentityCenter.record; infer_instance)

instance : NetworkAccess.record.codec.Formed := .record (by delta NetworkAccess.record; infer_instance)

instance : Identity.record.codec.Formed := .record (by delta Identity.record; infer_instance)

instance : RoleMapping.record.codec.Formed := .record (by delta RoleMapping.record; infer_instance)

instance : ArgoCd.record.codec.Formed := .record (by delta ArgoCd.record; infer_instance)

instance : Configuration.record.codec.Formed := .record (by delta Configuration.record; infer_instance)

instance : Spec.record.codec.Formed := .record (by delta Spec.record; infer_instance)

end Capability

namespace PodIdentityAssociation

instance : Spec.record.codec.Formed := .record (by delta Spec.record; infer_instance)

end PodIdentityAssociation

namespace IdentityProviderConfig

instance : Oidc.record.codec.Formed := .record (by delta Oidc.record; infer_instance)

instance : Spec.record.codec.Formed := .record (by delta Spec.record; infer_instance)

end IdentityProviderConfig

namespace Kind

instance formed : (k : Kind) → k.binding.codec.Formed
  | .cluster => inferInstanceAs Cluster.Spec.record.codec.Formed
  | .nodegroup => inferInstanceAs Nodegroup.Spec.record.codec.Formed
  | .addon => inferInstanceAs Addon.Spec.record.codec.Formed
  | .accessEntry => inferInstanceAs AccessEntry.Spec.record.codec.Formed
  | .fargateProfile => inferInstanceAs FargateProfile.Spec.record.codec.Formed
  | .capability => inferInstanceAs Capability.Spec.record.codec.Formed
  | .podIdentityAssociation => inferInstanceAs PodIdentityAssociation.Spec.record.codec.Formed
  | .identityProviderConfig => inferInstanceAs IdentityProviderConfig.Spec.record.codec.Formed

def form (k : Kind) : Form := k.formed.form

/- Whatever a spec holds, and however much is added to its document. -/
theorem specsReadBack (k : Kind) :
    k.binding.codec.HasForm k.form ∧ k.form.Distinct ∧
      ∀ s : k.Spec, k.binding.codec.read? (k.binding.codec.write s) = some s ∧
        ∀ v, Relation.ReflTransGen k.form.Adds (k.binding.codec.write s) v → k.binding.codec.read? v = some s := by
  have faithful : k.binding.codec.Faithful k.form := Codec.Formed.faithful k.binding.codec
  refine ⟨k.formed.has, k.formed.distinct, fun s => ⟨faithful.back s, fun v added => ?_⟩⟩
  induction added with
  | refl => exact faithful.back s
  | tail _ adds ih => exact faithful.keeps adds ih

theorem nullLabelsUnnoticed :
    let s : FargateProfile.Spec := { name := "batch", clusterName := "main", selectors := [{ nameSpace := "core" }] }
    let selector : Json := .object [("namespace", .text "core"), ("zone", .int 3), ("labels", .null)]
    let v : Json :=
      .object [("tags", .null), ("name", .text "batch"), ("clusterName", .text "main"), ("selectors", .list [selector])]
    Relation.ReflTransGen (form .fargateProfile).Adds (Kind.fargateProfile.binding.codec.write s) v ∧
      Kind.fargateProfile.binding.codec.read? v = some s := by
  intro s selector v
  let selectorForm : Form := .record [⟨"namespace", false, .whole⟩, ⟨"labels", true, .whole⟩]
  have shape : form .fargateProfile = .record [⟨"name", false, .whole⟩, ⟨"clusterName", false, .whole⟩,
      ⟨"podExecutionRoleArn", true, .whole⟩, ⟨"subnets", false, .list .whole⟩,
      ⟨"selectors", false, .list selectorForm⟩, ⟨"tags", true, .whole⟩] := rfl
  let front : List (String × Json) := [("name", .text "batch"), ("clusterName", .text "main")]
  have zone : selectorForm.Adds (.object [("namespace", .text "core")])
      (.object [("namespace", .text "core"), ("zone", .int 3)]) :=
    .unknown (by decide) (.int 3) [("namespace", .text "core")] []
  have labels : selectorForm.Adds (.object [("namespace", .text "core"), ("zone", .int 3)]) selector :=
    .null (m := ⟨"labels", true, .whole⟩) (by simp) rfl [("namespace", .text "core"), ("zone", .int 3)] [] (by decide)
  have inside {v w : Json} (adds : selectorForm.Adds v w) :
      (form .fargateProfile).Adds (.object (front ++ [("selectors", .list [v])]))
        (.object (front ++ [("selectors", .list [w])])) :=
    shape ▸ .value (m := ⟨"selectors", false, .list selectorForm⟩) (by simp) (.item adds [] []) front []
  have tags : (form .fargateProfile).Adds (.object (front ++ [("selectors", .list [selector])])) v :=
    shape ▸ .null (m := ⟨"tags", true, .whole⟩) (by simp) rfl [] _ (by decide)
  have added : Relation.ReflTransGen (form .fargateProfile).Adds (Kind.fargateProfile.binding.codec.write s) v :=
    .tail (.tail (.single (inside zone)) (inside labels)) tags
  exact ⟨added, ((specsReadBack .fargateProfile).2.2 s).2 v added⟩

end Kind
end DesiredState
