import DesiredState.Kinds.AccessEntry
import DesiredState.Proofs.BagAgreement
import DesiredState.Proofs.FieldDeltas
import DesiredState.Proofs.KeyedPlans
import DesiredState.Proofs.SingleCategory

/-!
What a pass over an access entry is about to do. Groups and name go first, then the policies; both can be
told from the two specs without looking at the delta. -/
namespace DesiredState.AccessEntry
open KeyedPlan

def AccessPolicy.meaning (p : AccessPolicy) : String × String × List String := (p.policyArn, p.accessScope.normalized)

theorem writeNormalized (p : AccessPolicy) : AccessPolicy.record.codec.write p.normalized =
    .object [("policyArn", .text p.policyArn),
      ("accessScope", .object [("type", .text p.accessScope.normalized.1),
        ("namespaces", Codec.text.list.write p.accessScope.normalized.2)])] := rfl

theorem agreePolicies (p q : AccessPolicy) :
    Json.agree (AccessPolicy.record.codec.write p.normalized) (AccessPolicy.record.codec.write q.normalized) = true ↔
      p.meaning = q.meaning := by
  rw [writeNormalized, writeNormalized, Json.agreeObjects (by decide), Json.agreeObjects (by decide),
    Json.agreeText, Json.agreeText, Json.agreeTexts]
  unfold AccessPolicy.meaning
  rw [Prod.mk.injEq, Prod.ext_iff]

theorem flatTable : table.Flat where
  whole := by simp [table, Field.always, Field.whenSet]
  apart := by decide

section rows
variable {d o : Spec}

theorem rowDiffers {f : Field Spec} (row : f ∈ table.fields) :
    (table.raw d o).differsAt f.path = true ↔ f.differs d o = true := by
  rw [flatTable.differsAtRow row]

theorem groupsDiffer :
    (table.raw d o).differsAt "kubernetesGroups" = true ↔ ¬ d.kubernetesGroups.Perm o.kubernetesGroups := by
  have row : Field.always "kubernetesGroups" .multiset (fun s => Codec.text.list.write s.kubernetesGroups) ∈
      table.fields := by simp [table]
  refine (rowDiffers row).trans ?_
  rw [Field.differsMultiset, Json.agreeTextBags]

theorem policiesDiffer : (table.raw d o).differsAt "accessPolicies" = true ↔
    ¬ (d.accessPolicies.map AccessPolicy.meaning).Perm (o.accessPolicies.map AccessPolicy.meaning) := by
  have row : Field.always "accessPolicies" .multiset (fun s : Spec =>
      AccessPolicy.record.codec.list.write (s.accessPolicies.map AccessPolicy.normalized)) ∈ table.fields := by
    simp [table]
  have images (ps : List AccessPolicy) : AccessPolicy.record.codec.list.write (ps.map AccessPolicy.normalized) =
      .list (ps.map fun p => AccessPolicy.record.codec.write p.normalized) := by
    change Json.list ((ps.map AccessPolicy.normalized).map _) = _
    rw [List.map_map]
    rfl
  refine (rowDiffers row).trans ?_
  rw [Field.differsMultiset, images, images, Json.agreeBagsImages agreePolicies]

theorem textDiffers {path : String} (get : Spec → String)
    (row : Field.always path .whole (fun s => .text (get s)) ∈ table.fields) :
    (table.raw d o).differsAt path = true ↔ get d ≠ get o := by
  refine (rowDiffers row).trans ?_
  unfold Field.always
  rw [Field.differsWhole, Json.agreeText]
  simp

theorem optionDiffers {path : String} (get : Spec → Option String)
    (row : Field.whenSet path .whole (fun s => .ofOption .text (get s)) ∈ table.fields) :
    (table.raw d o).differsAt path = true ↔ (get d).getD "" ≠ "" ∧ get o ≠ get d := by
  refine (rowDiffers row).trans ?_
  unfold Field.whenSet
  rw [Field.differsWhole]
  cases wanted : get d with
  | none => simp [Json.ofOption, Json.isZero]
  | some name =>
    by_cases blank : name = ""
    · simp [Json.ofOption, Json.isZero, blank]
    · rw [show Json.ofOption Json.text (some name) = .text name from rfl, Json.agreeOptionalText blank]
      simp [Json.isZero, blank]

theorem settledPolicies (distinct : (o.accessPolicies.map AccessPolicy.policyArn).Nodup)
    (perm : (d.accessPolicies.map AccessPolicy.meaning).Perm (o.accessPolicies.map AccessPolicy.meaning)) :
    (policyPlan d.accessPolicies o.accessPolicies).steps = [] := by
  refine stepsSettled (fun e member => ?_) fun arn present => ?_
  · have wanted := SortedMap.getSomeIff.mpr member
    have own := indexKeyed AccessPolicy.policyArn d.accessPolicies e.1 e.2 wanted
    rw [indexGet] at wanted
    have inside := List.mem_map_of_mem (f := AccessPolicy.meaning) (List.mem_of_find?_eq_some wanted)
    obtain ⟨q, seen, same⟩ := List.mem_map.mp (perm.subset inside)
    obtain ⟨arn, scope⟩ := Prod.mk.inj same
    exact fateLeave.mpr ⟨q, (indexSomeIff distinct).mpr ⟨seen, arn.trans own⟩, beq_iff_eq.mpr scope.symm⟩
  · obtain ⟨q, seen, rfl⟩ := (indexContains AccessPolicy.policyArn o.accessPolicies arn).mp present
    obtain ⟨p, inside, same⟩ := List.mem_map.mp (perm.symm.subset (List.mem_map_of_mem seen))
    exact (indexContains AccessPolicy.policyArn d.accessPolicies _).mpr ⟨p, inside, congrArg Prod.fst same⟩

end rows

structure Addressed (d : Spec) (clusterName principalArn : String) (type : Option String) : Prop where
  cluster : clusterName = d.clusterName
  principal : principalArn = d.principalArn
  type : d.type.getD "" = "" ∨ type = d.type

def entryCall (d : Spec) : Update := .entry d.clusterName d.principalArn d.kubernetesGroups d.username

def upToDate (d : Spec) (groups : List String) (username : Option String) : Bool :=
  d.kubernetesGroups.isPerm groups && (d.username.getD "" == "" || username == d.username)

def sendPolicies (d : Spec) (steps : List (PlanStep AccessPolicy String)) : Choice Update :=
  if steps.isEmpty then .nothing else .send "access-policies" (steps.map (policyCall d))

section
variable {d : Desired Spec} {o : Spec}

theorem admitted (same : Addressed d.spec o.clusterName o.principalArn o.type) :
    binding.rejects (binding.input d o) = none := by
  refine Delta.admittedIff.mpr fun top member => ?_
  change (table.raw d.spec o).differsAt top = false
  rw [← Bool.not_eq_true]
  rcases List.mem_cons.mp member with rfl | member
  · rw [optionDiffers Spec.type (by simp [table])]
    exact fun both => same.type.elim both.1 both.2
  rcases List.mem_cons.mp member with rfl | member
  · rw [textDiffers Spec.principalArn (by simp [table])]
    exact fun apart => apart same.principal.symm
  · obtain rfl := List.mem_singleton.mp member
    rw [textDiffers Spec.clusterName (by simp [table])]
    exact fun apart => apart same.cluster.symm

theorem entryMatches (category : String) (plan : PlanInput Spec → GroupPlan Update) :
    (UpdateGroup.mk category ["kubernetesGroups", "username"] plan).matches (binding.input d o).delta =
      !upToDate d.spec o.kubernetesGroups o.username := by
  change ((table.raw d.spec o).differsAt "kubernetesGroups" ||
    ((table.raw d.spec o).differsAt "username" || false)) = _
  rw [Bool.eq_iff_iff, Bool.or_false, Bool.or_eq_true, groupsDiffer,
    optionDiffers Spec.username (by simp [table]), Bool.not_eq_true', ← Bool.not_eq_true]
  unfold upToDate
  rw [Bool.and_eq_true, Bool.or_eq_true, List.isPerm_iff, beq_iff_eq, beq_iff_eq, Classical.not_and_iff_not_or_not,
    not_or]

theorem policiesChoice (distinct : (o.accessPolicies.map AccessPolicy.policyArn).Nodup) :
    Binding.firstPlan [⟨"access-policies", ["accessPolicies"], planAccessPolicies⟩] (binding.input d o) =
      sendPolicies d.spec (policyPlan d.spec.accessPolicies o.accessPolicies).steps := by
  have plan : planAccessPolicies (binding.input d o) =
      if (policyPlan d.spec.accessPolicies o.accessPolicies).steps.isEmpty then .skip
      else .calls ((policyPlan d.spec.accessPolicies o.accessPolicies).steps.map (policyCall d.spec)) := by
    unfold planAccessPolicies
    dsimp only
    rw [isEmptySteps]
    rfl
  unfold Binding.firstPlan sendPolicies
  dsimp only
  rw [plan]
  split
  · cases (policyPlan d.spec.accessPolicies o.accessPolicies).steps.isEmpty <;> rfl
  · rename_i alike
    have settled : (policyPlan d.spec.accessPolicies o.accessPolicies).steps = [] := by
      refine settledPolicies distinct (Classical.not_not.mp fun apart => alike ?_)
      change ((table.raw d.spec o).differsAt "accessPolicies" || false) = true
      rw [policiesDiffer.mpr apart]
      rfl
    rw [settled]
    rfl

theorem choiceAt (same : Addressed d.spec o.clusterName o.principalArn o.type)
    (distinct : (o.accessPolicies.map AccessPolicy.policyArn).Nodup) :
    binding.choice (binding.input d o) =
      if upToDate d.spec o.kubernetesGroups o.username then
        sendPolicies d.spec (policyPlan d.spec.accessPolicies o.accessPolicies).steps
      else .send "entry" [entryCall d.spec] := by
  rw [Binding.choiceAdmitted (admitted same)]
  change Binding.firstPlan groups _ = _
  unfold groups Binding.firstPlan
  rw [entryMatches]
  cases upToDate d.spec o.kubernetesGroups o.username with
  | false => rfl
  | true => exact policiesChoice distinct

end
end DesiredState.AccessEntry
