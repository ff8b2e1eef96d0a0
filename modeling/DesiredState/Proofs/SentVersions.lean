import DesiredState.Proofs.AddressedPaths
import DesiredState.Proofs.VersionTexts

/-!
The versions and releases that are sent. A version leaves in its own spelling and a text that is no version ends the
plan, except that a cluster that shows no version is sent the text as it was declared. A release leaves with the last
step only; one that says nothing leaves as well. -/
namespace DesiredState
open MinorVersion

namespace MinorVersion

def Canonical (target : String) : Prop := ∃ v, parse target = .ok v ∧ v.text = target

theorem canonicalText (v : MinorVersion) : Canonical v.text := ⟨v, parseText v, rfl⟩

end MinorVersion

namespace Nodegroup

section
variable {d : Spec} {version release : Option MinorVersion} (read : goals d = .ok (version, release)) {goal : MinorVersion}
  (chosen : version.or release = some goal)
include read chosen

theorem goalsAgree {minor : MinorVersion} (released : release = some minor) : minor = goal := by
  subst released
  cases version with
  | none => exact Option.some.inj chosen
  | some v =>
    obtain rfl : v = goal := Option.some.inj chosen
    unfold goals at read
    obtain ⟨r, _, read⟩ := boundOk.mp read
    obtain ⟨v', _, read⟩ := boundOk.mp read
    split at read
    · split at read
      · rename_i same
        cases read
        exact same.symm
      · cases read
    · rename_i unset
      cases read
      exact (unset _ _ rfl rfl).elim

theorem releaseRead {text : String} (set : given d.releaseVersion = some text) : parseRelease text = .ok goal := by
  have released := (goalsRead read).2
  rw [set] at released
  cases found : release with
  | none =>
    rw [found] at released
    cases released
  | some minor =>
    rw [found] at released
    cases goalsAgree read chosen found
    exact Option.some.inj released

end

structure LastStep (d : Spec) (seen named : Option String) (goal : MinorVersion) : Prop where
  asked : versioning.goal? d = some (.ok goal)
  beside : ∀ version, named = some version → version = goal.text
  alone : named = none → ∀ text, given seen = some text → parse text = .ok goal

section
variable {input : PlanInput Spec} {version release : Option MinorVersion} {sent : Option String × Option String}

theorem Sends.canonical (sends : Sends input version release sent) {target : String} (names : sent.1 = some target) :
    Canonical target := by
  cases sends with
  | resting => cases names
  | moving _ approach =>
    cases approach with
    | unseen =>
      obtain ⟨v, _, rfl⟩ := Option.map_eq_some_iff.mp names
      exact canonicalText v
    | reached => cases names
    | final =>
      cases names
      exact canonicalText _
    | intermediate =>
      cases names
      exact canonicalText _

theorem Sends.last (sends : Sends input version release sent) (read : goals input.desired = .ok (version, release))
    {text : String} (carries : sent.2 = some text) :
    input.desired.releaseVersion = some text ∧ ∃ goal, version.or release = some goal ∧
      LastStep input.desired input.observed.version sent.1 goal := by
  cases sends with
  | resting => cases carries
  | @moving goal _ chosen approach =>
    have asked := goalsOk read chosen
    cases approach with
    | unseen unseen =>
      refine ⟨carries, goal, chosen, asked, fun target named => ?_, fun _ shown seen => ?_⟩
      · obtain ⟨v, rfl, rfl⟩ := Option.map_eq_some_iff.mp named
        cases chosen
        rfl
      · cases unseen.symm.trans seen
    | reached known =>
      refine ⟨carries, goal, chosen, asked, nofun, fun _ shown seen => ?_⟩
      rw [seen] at known
      exact Option.some.inj known
    | final => exact ⟨carries, goal, chosen, asked, fun target named => (Option.some.inj named).symm, nofun⟩
    | intermediate => cases carries

end

theorem issuedMade {config : Config} {answers : Answers Spec} {desired : Desired Spec} {observed : Observed Spec}
    {u : VersionUpdate} (issued : binding.Issues config answers desired observed (.version u)) :
    versionUpdate (binding.input desired observed.spec) = .ok u := by
  cases binding.issuedOnce config answers desired observed groupsPlanned issued with
  | version made => exact made

/- A release goes with the version it belongs to, so with the last step only. One that is declared empty stands for
none while the goal is read, and goes along like any other. -/
theorem releasesFit (config : Config) (answers : Answers Spec) (desired : Desired Spec) (observed : Observed Spec)
    {u : VersionUpdate} (issued : binding.Issues config answers desired observed (.version u)) {text : String}
    (carries : u.releaseVersion = some text) :
    desired.spec.releaseVersion = some text ∧ ∃ goal,
      LastStep desired.spec observed.spec.version u.version goal ∧ (text ≠ "" → parseRelease text = .ok goal) := by
  obtain ⟨version, release, read, sends⟩ := updateSends (issuedMade issued)
  obtain ⟨declared, goal, chosen, last⟩ := sends.last read carries
  change desired.spec.releaseVersion = some text at declared
  refine ⟨declared, goal, last, fun filled => releaseRead read chosen ?_⟩
  change given desired.spec.releaseVersion = some text
  rw [declared]
  simpa [given] using filled

theorem releaseOnLastStep :
    let answers : Answers Spec := ⟨.ok none, .ok none, fun _ => none, none, .ok .empty, none, none⟩
    let spec : Spec := { name := "workers", clusterName := "main" }
    let asked : Spec := { spec with version := some "1.28", releaseVersion := some "1.28.5-20240531" }
    let observed : Observed Spec := ⟨{ spec with version := some "1.27" }, some "ACTIVE", none, some .empty⟩
    let u : VersionUpdate := ⟨"main", "workers", some "1.28", some "1.28.5-20240531", none, false⟩
    binding.Issues .default answers ⟨asked, .empty, none⟩ observed (.version u) ∧
      ∃ goal, LastStep asked (some "1.27") u.version goal ∧ parseRelease "1.28.5-20240531" = .ok goal := by
  intro answers spec asked observed u
  have issued : binding.Issues .default answers ⟨asked, .empty, none⟩ observed (.version u) := .inl (by decide +kernel)
  obtain ⟨_, goal, last, fits⟩ := releasesFit .default answers ⟨asked, .empty, none⟩ observed issued rfl
  exact ⟨issued, goal, last, fits (by decide)⟩

theorem emptyReleaseSent :
    let answers : Answers Spec := ⟨.ok none, .ok none, fun _ => none, none, .ok .empty, none, none⟩
    let spec : Spec := { name := "workers", clusterName := "main" }
    let desired : Desired Spec := ⟨{ spec with version := some "1.28", releaseVersion := some "" }, .empty, none⟩
    let observed : Observed Spec := ⟨{ spec with version := some "1.27" }, some "ACTIVE", none, some .empty⟩
    (binding.remediate .default answers desired observed).sent =
        [.version ⟨"main", "workers", some "1.28", some "", none, false⟩] ∧
      ∀ minor, parseRelease "" ≠ .ok minor := by
  refine ⟨by decide +kernel, fun minor => ?_⟩
  have missing : parseRelease "" = .error ⟨"", .notARelease⟩ := by decide +kernel
  rw [missing]
  nofun

end Nodegroup

namespace Versioning
variable {σ υ : Type}

structure Screens (v : Versioning σ υ) (b : Binding σ υ) (g : UpdateGroup σ υ) (config : Config) (answers : Answers σ)
    (desired : Desired σ) (observed : Observed σ) : Prop where
  canonical : ∀ u, b.Issues config answers desired observed u → ∀ target, v.target? u = some target → Canonical target
  malformed : (b.input desired observed.spec).delta.differsAt "version" = true → ∀ text bad,
    v.observed desired.spec = some text → parse text = .error bad →
      ∃ reason, g.plan (b.input desired observed.spec) = .terminal reason

end Versioning

namespace Cluster

/- Where no version is shown the declared text is all there is, and nothing reads it. -/
structure Unscreened (config : Config) (answers : Answers Spec) (desired : Desired Spec) (observed : Observed Spec) :
    Prop where
  verbatim : ∀ u, binding.Issues config answers desired observed u → ∀ target, versioning.target? u = some target →
    given desired.spec.version = some target
  unread : ∀ text, given desired.spec.version = some text →
    versions.plan (binding.input desired observed.spec) = .calls [.version desired.spec.name text]

section
variable (config : Config) (answers : Answers Spec) {desired : Desired Spec} {observed : Observed Spec}

theorem versionIssued {u : Update} (issued : binding.Issues config answers desired observed u) {target : String}
    (names : versioning.target? u = some target) :
    planVersion (binding.input desired observed.spec) = .calls [.version desired.spec.name target] := by
  cases binding.issuedOnce config answers desired observed groupsPlanned issued with
  | config => cases names
  | encryption => cases names
  | version planned =>
    cases names
    exact planned

theorem screened (shown : given observed.spec.version ≠ none) :
    versioning.Screens binding versions config answers desired observed := by
  obtain ⟨seen, shown⟩ := Option.ne_none_iff_exists'.mp shown
  refine ⟨fun u issued target names => ?_, fun differs text bad declared misread => ?_⟩
  · have planned := versionIssued config answers issued names
    obtain ⟨_, _, next, _, _, _, rfl⟩ :=
      versionsCareful _ _ seen planned shown _ List.mem_cons_self target rfl
    exact canonicalText next
  · obtain ⟨text', declared', asked⟩ := Nodegroup.givenDeclared (Kind.cluster.rowDeclared differs rfl rfl)
    obtain rfl : text = text' := Option.some.inj (declared.symm.trans declared')
    have refused : planVersion (binding.input desired observed.spec) =
        .terminal s!"failed to compare the desired and observed versions: {bad.message}" := by
      unfold planVersion
      dsimp only [Binding.input]
      rw [shown, show given desired.spec.version = some text from asked]
      dsimp only
      unfold readVersions
      rw [misread]
      rfl
    exact ⟨_, refused⟩

theorem unscreened (hidden : given observed.spec.version = none) : Unscreened config answers desired observed := by
  have plans {text : String} (asked : given desired.spec.version = some text) :
      planVersion (binding.input desired observed.spec) = .calls [.version desired.spec.name text] := by
    unfold planVersion
    dsimp only [Binding.input]
    rw [asked, hidden]
  refine ⟨fun u issued target names => ?_, fun text asked => plans asked⟩
  have planned := versionIssued config answers issued names
  cases asked : given desired.spec.version with
  | none =>
    unfold planVersion at planned
    dsimp only [Binding.input] at planned
    rw [asked] at planned
    cases planned
  | some text =>
    cases (plans asked).symm.trans planned
    rfl

end

end Cluster

namespace Nodegroup

theorem screened (config : Config) (answers : Answers Spec) (desired : Desired Spec) (observed : Observed Spec) :
    versioning.Screens binding versions config answers desired observed := by
  refine ⟨fun u issued target names => ?_, fun differs text bad declared misread => ?_⟩
  · cases u with
    | config => cases names
    | version u =>
      obtain ⟨_, _, _, sends⟩ := updateSends (issuedMade issued)
      exact sends.canonical names
  · obtain ⟨text', declared', asked⟩ := givenDeclared (Kind.nodegroup.rowDeclared differs rfl rfl)
    obtain rfl : text = text' := Option.some.inj (declared.symm.trans declared')
    change ∃ reason, planVersion _ = .terminal reason
    unfold planVersion versionUpdate
    dsimp only [Binding.input]
    cases read : goals desired.spec with
    | error reason => exact ⟨reason, rfl⟩
    | ok pair =>
      have versioned := (goalsRead read).1
      rw [show given desired.spec.version = some text from asked, Option.map_some, misread] at versioned
      cases found : pair.1 with
      | none => rw [found] at versioned; cases versioned
      | some v => rw [found] at versioned; cases versioned

end Nodegroup

/- Of a nodegroup, and of a cluster that shows its version, only versions are sent. A cluster that shows none is sent
what it declares. -/
theorem onlyVersionsLeave (config : Config) :
    (∀ (answers : Answers Cluster.Spec) (desired : Desired Cluster.Spec) (observed : Observed Cluster.Spec),
      (given observed.spec.version ≠ none →
        Cluster.versioning.Screens Cluster.binding Cluster.versions config answers desired observed) ∧
      (given observed.spec.version = none → Cluster.Unscreened config answers desired observed)) ∧
    ∀ (answers : Answers Nodegroup.Spec) (desired : Desired Nodegroup.Spec) (observed : Observed Nodegroup.Spec),
      Nodegroup.versioning.Screens Nodegroup.binding Nodegroup.versions config answers desired observed :=
  ⟨fun answers _ _ => ⟨Cluster.screened config answers, Cluster.unscreened config answers⟩, Nodegroup.screened config⟩

theorem misspelledVersionsScreened :
    let answers (σ : Type) : Answers σ := ⟨.ok none, .ok none, fun _ => none, none, .ok .empty, none, none⟩
    let workers (version : Option String) : Nodegroup.Spec := { name := "workers", clusterName := "main", version }
    let prod (version : Option String) : Cluster.Spec := { name := "prod", version }
    let u : Nodegroup.VersionUpdate := ⟨"main", "workers", some "1.28", none, none, false⟩
    Nodegroup.binding.Issues .default (answers _) ⟨workers (some "01.28"), .empty, none⟩
        ⟨workers none, some "ACTIVE", none, some .empty⟩ (.version u) ∧
      Canonical "1.28" ∧
      (∃ reason, Cluster.versions.plan (Cluster.binding.input ⟨prod (some "latest"), .empty, none⟩
        (prod (some "1.27"))) = .terminal reason) ∧
      Cluster.versions.plan (Cluster.binding.input ⟨prod (some "1.28"), .empty, none⟩ (prod none)) =
        .calls [.version "prod" "1.28"] := by
  intro answers workers prod u
  have issued : Nodegroup.binding.Issues .default (answers _) ⟨workers (some "01.28"), .empty, none⟩
      ⟨workers none, some "ACTIVE", none, some .empty⟩ (.version u) := .inl (by decide +kernel)
  have nodegroup := (onlyVersionsLeave .default).2 (answers _) ⟨workers (some "01.28"), .empty, none⟩
    ⟨workers none, some "ACTIVE", none, some .empty⟩
  have shown := ((onlyVersionsLeave .default).1 (answers _) ⟨prod (some "latest"), .empty, none⟩
    ⟨prod (some "1.27"), some "ACTIVE", none, some .empty⟩).1 (by decide +kernel)
  have hidden := ((onlyVersionsLeave .default).1 (answers _) ⟨prod (some "1.28"), .empty, none⟩
    ⟨prod none, some "ACTIVE", none, some .empty⟩).2 (by decide +kernel)
  have misread : parse "latest" = .error ⟨"latest", .notMajorMinor⟩ := by decide +kernel
  exact ⟨issued, nodegroup.canonical _ issued "1.28" rfl, shown.malformed (by decide +kernel) "latest" _ rfl misread,
    hidden.unread "1.28" (by decide +kernel)⟩

theorem unreadVersionSent :
    let answers : Answers Cluster.Spec := ⟨.ok none, .ok none, fun _ => none, none, .ok .empty, none, none⟩
    let desired : Desired Cluster.Spec := ⟨{ name := "prod", version := some "latest" }, .empty, none⟩
    let observed : Observed Cluster.Spec := ⟨{ name := "prod" }, some "ACTIVE", none, some .empty⟩
    (Cluster.binding.remediate .default answers desired observed).sent = [.version "prod" "latest"] ∧
      ¬ Canonical "latest" := by
  refine ⟨by decide +kernel, ?_⟩
  rintro ⟨v, read, _⟩
  have misread : parse "latest" = .error ⟨"latest", .notMajorMinor⟩ := by decide +kernel
  cases misread.symm.trans read

end DesiredState
