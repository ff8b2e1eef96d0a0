import DesiredState.Proofs.PathOwnership
import DesiredState.Proofs.SpecReadings
import DesiredState.Proofs.VersionWalk

/-!
Clusters and nodegroups walk. Their versions are rows of their own, which no other path lies under, and the group that
answers for such a row plans one step, or none between two texts of one version. -/
namespace DesiredState
open MinorVersion

namespace Delta

theorem admittedElsewhere {δ : Delta} {immutable : List String} {place : String} (only : ∀ p ∈ δ.paths, p = place)
    (clear : ∀ top ∈ immutable, pathUnder place top = false) : δ.immutableChanges? immutable = none := by
  rw [admittedIff]
  intro top listed
  rw [← Bool.not_eq_true, differsAtIff]
  rintro ⟨p, found, under⟩
  rw [only p found, clear top listed] at under
  cases under

end Delta

theorem FieldTable.silentItself {σ : Type} {t : FieldTable σ} {xs : List (Reading σ)}
    (rows : List.Forall₂ Field.Traced t.fields xs) (s : σ) (annotations : Annotations) :
    (t.compute s s annotations).isEmpty = true := by
  have raw : t.raw s s = .empty := by
    have silent := (FieldTable.silentIff rows (d := s) (o := s)).mpr fun _ _ => .inr rfl
    exact congrArg Delta.mk (List.isEmpty_iff.mp silent)
  unfold compute
  rw [raw]
  refine List.isEmpty_iff.mpr (List.eq_nil_iff_forall_not_mem.mpr fun x found => ?_)
  cases keptByHandovers found

namespace Binding
variable {σ υ : Type}

theorem firstPlanMatching (groups : List (UpdateGroup σ υ)) (input : PlanInput σ) :
    firstPlan groups input = firstPlan (groups.filter fun g => g.matches input.delta) input := by
  induction groups with
  | nil => rfl
  | cons g rest ih =>
    by_cases touched : g.matches input.delta = true
    · simp only [List.filter_cons, touched, if_true, firstPlan, ih]
    · rw [List.filter_cons, if_neg touched, ← ih]
      exact if_neg touched

end Binding

namespace Upgrade
variable {σ υ : Type} (b : Binding σ υ) (up : Upgrade σ υ) (g : UpdateGroup σ υ)

def row : Field σ := .whenSet "version" .whole fun s => .ofOption .text (up.observed s)

structure Apart : Prop where
  listed : up.row ∈ b.table.fields
  others : ∀ f ∈ b.table.fields, f = up.row ∨ ∀ s version, f.render (up.seeing s version) = f.render s
  kept : ∀ annotations, b.table.keeps annotations "version"
  admitted : ∀ input, (∀ p ∈ input.delta.paths, p = "version") → b.rejects input = none
  alone : (b.groups.filter fun g => g.answersFor "version") = [g]
  category : g.category = "version"

variable {b up g} {desired : Desired σ} {asked : String} {goal : MinorVersion}

theorem rowDiffers (wanted : up.observed desired.spec = some asked) (set : asked ≠ "") (o : σ) (version : String) :
    up.row.differs desired.spec (up.seeing o version) = true ↔ asked ≠ version := by
  unfold row Field.whenSet
  rw [Field.differsWhole, Json.zeroOptionalText, Json.readsOptionalText, wanted, up.sees]
  simp [set]

theorem chooses (apart : up.Apart b g) {o : σ} (agrees : (b.delta desired (up.seeing o asked)).isEmpty = true)
    (version : String) :
    (∀ p, p ∈ (b.delta desired (up.seeing o version)).paths ↔
      p = "version" ∧ up.row.differs desired.spec (up.seeing o version) = true) ∧
    b.choice (b.input desired (up.seeing o version)) =
      if up.row.differs desired.spec (up.seeing o version) then
        match g.plan (b.input desired (up.seeing o version)) with
        | .skip => .nothing
        | .terminal reason => .refuse reason
        | .calls updates => .send g.category updates
      else .nothing := by
  have alike : ∀ f ∈ b.table.fields, f = up.row ∨
      f.differences desired.spec (up.seeing o version) = f.differences desired.spec (up.seeing o asked) := by
    intro f member
    refine (apart.others f member).imp_right fun same => ?_
    unfold Field.differences
    rw [same, same]
  have paths (p : String) : p ∈ (b.delta desired (up.seeing o version)).paths ↔
      p = "version" ∧ up.row.differs desired.spec (up.seeing o version) = true :=
    FieldTable.onlyRow apart.listed (by nofun) (apart.kept _) alike agrees
  refine ⟨paths, ?_⟩
  split
  · rename_i differs
    have touched (h : UpdateGroup σ υ) :
        h.matches (b.delta desired (up.seeing o version)) = h.answersFor "version" := by
      rw [UpdateGroup.matchesPaths, Bool.eq_iff_iff, List.any_eq_true]
      constructor
      · rintro ⟨p, found, answers⟩
        exact ((paths p).mp found).1 ▸ answers
      · intro answers
        exact ⟨_, (paths _).mpr ⟨rfl, differs⟩, answers⟩
    have admitted := apart.admitted (b.input desired (up.seeing o version)) fun p found => ((paths p).mp found).1
    have owner : g ∈ b.groups.filter fun g => g.answersFor "version" := by
      rw [apart.alone]
      exact List.mem_cons_self
    rw [Binding.choiceAdmitted admitted, Binding.firstPlanMatching]
    simp only [Binding.input, touched]
    rw [apart.alone]
    unfold Binding.firstPlan
    rw [if_pos ((touched g).trans (List.mem_filter.mp owner).2)]
    rfl
  · rename_i same
    have nothing : (b.delta desired (up.seeing o version)).isEmpty = true := by
      rw [Delta.isEmpty, List.isEmpty_iff, ← List.map_eq_nil_iff, List.eq_nil_iff_forall_not_mem]
      exact fun p found => same ((paths p).mp found).2
    exact if_pos nothing

theorem climbs (apart : up.Apart b g) (wanted : up.observed desired.spec = some asked) (goes : parse asked = .ok goal)
    (plans : ∀ input version current, input.desired = desired.spec → input.annotations = desired.annotations →
      up.observed input.observed = some version → parse version = .ok current → Onward current goal →
      (∀ p, p ∈ input.delta.paths ↔ p = "version") → g.plan input =
        if current = goal then .skip else .calls [up.call desired current.successor.text]) :
    up.Climbs b desired asked goal := by
  intro o agrees version current read onward
  have set : asked ≠ "" := by
    rintro rfl
    cases goes
  obtain ⟨paths, chosen⟩ := chooses apart agrees version
  rw [chosen]
  by_cases same : asked = version
  · subst same
    have differs := mt (rowDiffers wanted set o asked).mp (Classical.not_not.mpr rfl)
    cases goes.symm.trans read
    rw [if_neg differs, if_pos rfl]
  · have differs := (rowDiffers wanted set o version).mpr same
    rw [if_pos differs, plans (b.input desired (up.seeing o version)) version current rfl rfl (up.sees o version) read
      onward fun p => (paths p).trans (and_iff_left differs), apart.category]
    by_cases arrived : current = goal
    · rw [if_pos arrived, if_pos arrived]
    · rw [if_neg arrived, if_neg arrived]

end Upgrade

namespace Cluster

def upgrade : Upgrade Spec Update where
  toVersioning := versioning
  seeing s version := { s with version := some version }
  call desired version := .version desired.spec.name version
  sees _ _ := rfl
  names _ _ := rfl

theorem versionApart : upgrade.Apart binding versions where
  listed := List.mem_cons_of_mem _ (List.mem_cons_of_mem _ List.mem_cons_self)
  others := by
    simp only [binding, table, List.forall_mem_cons]
    exact ⟨.inr fun _ _ => rfl, .inr fun _ _ => rfl, .inl rfl, .inr fun _ _ => rfl, .inr fun _ _ => rfl,
      .inr fun _ _ => rfl, .inr fun _ _ => rfl, .inr fun _ _ => rfl, .inr fun _ _ => rfl, .inr fun _ _ => rfl,
      .inr fun _ _ => rfl, .inr fun _ _ => rfl, .inr fun _ _ => rfl, List.forall_mem_nil _⟩
  kept _ := List.forall_mem_nil _
  admitted _ only := Delta.admittedElsewhere only (by decide)
  alone := rfl
  category := rfl

theorem planOnward {input : PlanInput Spec} {asked version : String} {goal current : MinorVersion}
    (wanted : input.desired.version = some asked) (goes : parse asked = .ok goal)
    (seen : input.observed.version = some version) (read : parse version = .ok current)
    (onward : Onward current goal) : planVersion input =
      if current = goal then .skip else .calls [.version input.desired.name current.successor.text] := by
  have step := onward.between
  unfold planVersion
  rw [wanted, seen, givenParsed goes, givenParsed read]
  dsimp only
  rw [readVersionsOk.mpr ⟨goes, read⟩]
  dsimp only
  by_cases arrived : current = goal
  · rw [if_pos arrived] at step ⊢
    rw [step]
  · rw [if_neg arrived] at step ⊢
    rcases step with last | other
    · rw [last]
    · rw [other]

theorem walks {desired : Desired Spec} {asked : String} (wanted : desired.spec.version = some asked) :
    upgrade.Walks binding desired asked := by
  refine Upgrade.walks fun goal goes => Upgrade.climbs versionApart wanted goes ?_
  intro input version current same _ seen read onward _
  obtain ⟨_, observed, δ, annotations⟩ := input
  subst same
  exact planOnward wanted goes seen read onward

end Cluster

namespace Nodegroup

def upgrade : Upgrade Spec Update where
  toVersioning := versioning
  seeing s version := { s with version := some version }
  call desired version := .version
    ⟨desired.spec.clusterName, desired.spec.name, some version, none, none, desired.annotations.forcesUpdate⟩
  sees _ _ := rfl
  names _ _ := rfl

theorem versionApart : upgrade.Apart binding versions where
  listed := by
    simp [binding, table, Upgrade.row, upgrade, versioning]
  others := by
    simp only [binding, table, List.forall_mem_cons]
    exact ⟨.inr fun _ _ => rfl, .inr fun _ _ => rfl, .inr fun _ _ => rfl, .inr fun _ _ => rfl, .inr fun _ _ => rfl,
      .inr fun _ _ => rfl, .inr fun _ _ => rfl, .inr fun _ _ => rfl, .inr fun _ _ => rfl, .inr fun _ _ => rfl,
      .inr fun _ _ => rfl, .inr fun _ _ => rfl, .inr fun _ _ => rfl, .inr fun _ _ => rfl, .inl rfl,
      .inr fun _ _ => rfl, .inr fun _ _ => rfl, List.forall_mem_nil _⟩
  kept _ := List.forall_mem_singleton.mpr fun _ => by decide
  admitted _ only := Delta.admittedElsewhere only (by decide)
  alone := rfl
  category := rfl

theorem goalsOnward {d : Spec} {asked : String} {goal : MinorVersion} (wanted : d.version = some asked)
    (unreleased : d.releaseVersion = none) (goes : parse asked = .ok goal) : goals d = .ok (some goal, none) := by
  unfold goals readGiven
  rw [wanted, unreleased, givenParsed goes]
  dsimp only
  rw [goes]
  rfl

theorem advanceOnward {d : Spec} {version : String} {goal current : MinorVersion} (unreleased : d.releaseVersion = none)
    (read : parse version = .ok current) (onward : Onward current goal) :
    advance d (some version) (some goal) goal =
      .ok (if current = goal then none else some current.successor.text, none) := by
  have step := onward.between
  unfold advance readGiven
  rw [givenParsed read, unreleased]
  dsimp only
  rw [read]
  change (VersionStep.between current goal).mapError BadVersion.message >>= _ = _
  by_cases arrived : current = goal
  · rw [if_pos arrived] at step ⊢
    rw [step]
    rfl
  · rw [if_neg arrived] at step ⊢
    rcases step with last | other
    · rw [last]
      rfl
    · rw [other]
      rfl

theorem planOnward {input : PlanInput Spec} {asked version : String} {goal current : MinorVersion}
    (wanted : input.desired.version = some asked) (unreleased : input.desired.releaseVersion = none)
    (goes : parse asked = .ok goal) (seen : input.observed.version = some version)
    (read : parse version = .ok current) (onward : Onward current goal)
    (only : ∀ p, p ∈ input.delta.paths ↔ p = "version") : planVersion input =
      if current = goal then .skip
      else .calls [.version ⟨input.desired.clusterName, input.desired.name, some current.successor.text, none, none,
        input.annotations.forcesUpdate⟩] := by
  have changed : input.delta.differsAt "version" = true :=
    Delta.differsAtIff.mpr ⟨_, (only _).mpr rfl, by decide⟩
  have untouched : input.delta.differsAt "launchTemplate" = false := by
    rw [← Bool.not_eq_true, Delta.differsAtIff]
    rintro ⟨p, found, under⟩
    rw [(only p).mp found] at under
    exact absurd under (by decide)
  have made : versionUpdate input = .ok ⟨input.desired.clusterName, input.desired.name,
      if current = goal then none else some current.successor.text, none, none, input.annotations.forcesUpdate⟩ := by
    unfold versionUpdate
    dsimp only
    rw [goalsOnward wanted unreleased goes, changed, untouched, seen]
    change (advance input.desired (some version) (some goal) goal >>= fun sent => _) = _
    rw [advanceOnward unreleased read onward]
    rfl
  unfold planVersion
  rw [made]
  by_cases arrived : current = goal
  · rw [if_pos arrived, if_pos arrived]
    rfl
  · rw [if_neg arrived, if_neg arrived]
    rfl

theorem walks {desired : Desired Spec} {asked : String} (wanted : desired.spec.version = some asked)
    (unreleased : desired.spec.releaseVersion = none) : upgrade.Walks binding desired asked := by
  refine Upgrade.walks fun goal goes => Upgrade.climbs versionApart wanted goes ?_
  intro input version current same annotated seen read onward only
  obtain ⟨_, observed, δ, _⟩ := input
  subst same annotated
  exact planOnward wanted unreleased goes seen read onward only

end Nodegroup

theorem VersionStep.successorFound {observed desired : MinorVersion} {bad : BadVersion}
    (failed : between observed desired = .error bad) : bad.fault ≠ .noSuccessor := by
  have leads := betweenLeads observed desired
  rw [failed] at leads
  cases leads
  nofun

/- However far the goal is, and whatever else the rounds differ in. -/
theorem upgradesWalkMinors :
    (∀ (desired : Desired Cluster.Spec) (asked : String), desired.spec.version = some asked →
      Cluster.upgrade.Walks Cluster.binding desired asked) ∧
    (∀ (desired : Desired Nodegroup.Spec) (asked : String), desired.spec.version = some asked →
      desired.spec.releaseVersion = none → Nodegroup.upgrade.Walks Nodegroup.binding desired asked) ∧
    ∀ (observed desired : MinorVersion) (bad : BadVersion), VersionStep.between observed desired = .error bad →
      bad.fault ≠ .noSuccessor :=
  ⟨fun _ _ => Cluster.walks, fun _ _ => Nodegroup.walks, fun _ _ _ => VersionStep.successorFound⟩

theorem paddedVersionReached :
    let answers : Answers Cluster.Spec := ⟨.ok none, .ok none, fun _ => none, none, .ok .empty, none, none⟩
    let desired : Desired Cluster.Spec := ⟨{ name := "main", version := some "1.028" }, .empty, none⟩
    let r : Round Cluster.Spec := ⟨.default, answers, ⟨{ name := "main" }, some "ACTIVE", none, some .empty⟩⟩
    let pass (before : List (Round Cluster.Spec)) := Cluster.upgrade.pass Cluster.binding desired
      (before.foldl (Cluster.upgrade.after Cluster.binding desired) "1.26") r
    (pass [r]).attempts = [⟨.update ⟨"main", none⟩ (.version "main" "1.28"), none⟩] ∧
      (pass [r, r]).verdict? = some .converged ∧ (pass [r, r]).attempts = [] := by
  intro answers desired r pass
  have steady : Cluster.upgrade.Steady Cluster.binding desired "1.028" r :=
    ⟨by decide, by decide, FieldTable.silentItself Cluster.rows desired.spec .empty, rfl⟩
  have outcome (before : List (Round Cluster.Spec)) (all : ∀ x ∈ before ++ [r], x = r) :
      Cluster.upgrade.Outcome Cluster.binding desired ⟨1, 26⟩ ⟨1, 28⟩ before.length (pass before) :=
    upgradesWalkMinors.1 desired "1.028" rfl "1.26" ⟨1, 26⟩ ⟨1, 28⟩ (by decide) (by decide) rfl (by decide) before r
      fun x member => all x member ▸ steady
  have second := outcome [r] (by simp)
  have third := outcome [r, r] (by simp)
  unfold Upgrade.Outcome at second third
  rw [if_pos (by decide)] at second
  rw [if_neg (by decide)] at third
  exact ⟨second.2.trans (by decide), third⟩

end DesiredState
