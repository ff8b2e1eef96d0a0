import DesiredState.Proofs.PathOwnership
import DesiredState.Proofs.Strictness

/-!
Agreement is a fixed point. Every value agrees with itself under each rule, whatever it holds, so a spec that is seen
as it was declared has an empty delta, and a pass over it makes no call. -/
namespace DesiredState

namespace Json

theorem agreeSelf (a : Json) : agree a a = true := by
  -- By induction on the size: the members of an object are looked up by name, so they are no subterms.
  cases a with
  | list xs =>
    have pairs : xs.zip xs = xs.map fun x => (x, x) := List.zipWith_self
    rw [agreeList, beq_self_eq_true, Bool.true_and, pairs, List.all_map, List.all_eq_true]
    intro x inside
    have smaller := sizeItemLe inside
    exact agreeSelf x
  | object ms =>
    rw [agreeMembers rfl rfl, List.all_eq_true]
    intro k named
    have smaller := sizeMemberLt ((List.mem_append.mp named).elim id id)
    exact agreeSelf (member ms k)
  | _ =>
    rw [agreeScalar rfl rfl, beq_self_eq_true]
    exact Bool.or_true _
termination_by a.size
decreasing_by
  · simp only [size]
    omega
  · simp only [size]
    omega

theorem agreeAsMapsSelf (a : Json) : agreeAsMaps a a = true := by
  unfold agreeAsMaps
  cases a.members? with
  | some ms =>
    have named : (names ms).all (names ms).contains = true := by simp
    have values : ((names ms).all fun k => agree (member ms k) (member ms k)) = true := by
      simp only [agreeSelf, List.all_eq_true, implies_true]
    simp only [named, values, Bool.and_self]
  | none => exact agreeSelf a

end Json

namespace Rule
open Json

theorem differencesSelf (rule : Rule) (path : String) (d : Json) : rule.differences path d d = [] := by
  cases rule with
  | whole => exact leafNothing.mpr (agreeSelf d)
  | nested => exact walkOfAgree path (agreeSelf d)
  | map => exact leafNothing.mpr (agreeAsMapsSelf d)
  | multiset => exact leafNothing.mpr (bagsOfAgree (agreeSelf d))

end Rule

theorem Field.differencesSelf {σ : Type} (f : Field σ) (s : σ) : f.differences s s = [] := by
  unfold Field.differences
  dsimp only
  split
  · rfl
  · exact f.rule.differencesSelf f.path (f.render s)

theorem FieldTable.computeSelf {σ : Type} (t : FieldTable σ) (s : σ) (annotations : Annotations) :
    t.compute s s annotations = .empty := by
  have silent : (t.raw s s).isEmpty = true := FieldTable.emptyIff.mpr fun f _ => f.differencesSelf s
  have raw : t.raw s s = .empty := congrArg Delta.mk (List.isEmpty_iff.mp silent)
  refine congrArg Delta.mk (List.eq_nil_iff_forall_not_mem.mpr fun x found => ?_)
  have kept : x ∈ (t.raw s s).differences := keptByHandovers found
  rw [raw] at kept
  cases kept

namespace Binding
variable {σ υ : Type}

/- What is seen as it was declared is left alone, whatever the remote would answer: no call is made, and the outcome
is the resource as it was seen. Tags that were not looked at are not known to be the declared ones. -/
theorem agreementStays (b : Binding σ υ) (config : Config) (answers : Answers σ) (desired : Desired σ)
    (observed : Observed σ) (spec : observed.spec = desired.spec)
    (tags : observed.tags = some ((b.tags desired.spec).getD .empty))
    (active : StatusRules.isActive ((b.rules config).classify observed.status) = true) :
    let pass := b.remediate config answers desired observed
    pass.attempts = [] ∧ pass.metrics = [] ∧
      pass.result = .ok ⟨.converged, .empty, { observed with arn := observed.arn.or desired.knownArn }⟩ := by
  have here := (b.activeHere config observed active).1
  have nothing : b.delta desired observed.spec = .empty := by
    unfold delta
    rw [spec]
    exact b.table.computeSelf desired.spec desired.annotations
  have kept : b.conclude desired observed .converged .empty =
      ⟨.converged, .empty, { observed with arn := observed.arn.or desired.knownArn }⟩ := by
    unfold conclude Desired.merge
    rw [show (b.asyncUpdates && Verdict.converged.isApplied) = false from Bool.and_false _, ← spec]
    rfl
  have settled : b.applyFirst config answers desired observed .empty =
      pure (b.conclude desired observed .converged .empty) :=
    b.applyFirstNothing config answers desired observed rfl
  dsimp only
  rw [b.remediateActive config answers desired observed here, b.syncSettledTags answers desired observed tags,
    Pass.settleThen]
  change (b.afterTags config answers desired observed (.ok none)).attempts = [] ∧
    (b.afterTags config answers desired observed (.ok none)).metrics = [] ∧
    (b.afterTags config answers desired observed (.ok none)).result = _
  unfold afterTags
  dsimp only
  rw [nothing, settled, kept]
  exact ⟨rfl, rfl, rfl⟩

theorem repeatedSelectorsStay :
    let selector : FargateProfile.Selector := ⟨"default", some .empty⟩
    let spec : FargateProfile.Spec :=
      { name := "profile", clusterName := "main", selectors := [selector, ⟨"", none⟩, selector], subnets := [""] }
    let f : RemoteFault := ⟨"ResourceInUseException", "busy"⟩
    let answers : Answers FargateProfile.Spec := ⟨.error f, .error f, fun _ => some f, some f, .error f, some f, some f⟩
    let observed : Observed FargateProfile.Spec := ⟨spec, some "ACTIVE", none, some .empty⟩
    let pass := FargateProfile.binding.remediate .default answers ⟨spec, .empty, none⟩ observed
    pass.attempts = [] ∧ pass.result = .ok ⟨.converged, .empty, observed⟩ := by
  intro selector spec f answers observed pass
  have stays := agreementStays FargateProfile.binding .default answers ⟨spec, .empty, none⟩ observed rfl rfl (by decide)
  exact ⟨stays.1, stays.2.2⟩

end Binding
end DesiredState
