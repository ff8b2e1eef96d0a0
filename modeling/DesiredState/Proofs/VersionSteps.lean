import DesiredState.Kinds.Cluster
import DesiredState.Kinds.Nodegroup
import DesiredState.Proofs.SingleCategory
import DesiredState.Proofs.Texts

/-!
Where an update may take a version. From a version that is known a step leads to the next minor of the same major, and
only while the goal is not passed; any other goal ends the plan before a call names a version. -/
namespace DesiredState

namespace MinorVersion
variable {v w current goal : MinorVersion}

theorem belowIff : compare v w = .lt ↔ v.major < w.major ∨ v.major = w.major ∧ v.minor < w.minor := by
  change (compare v.major w.major).then (compare v.minor w.minor) = .lt ↔ _
  rw [Ordering.then_eq_lt, Std.compare_eq_lt, Std.compare_eq_lt, Std.compare_eq_iff_eq]

theorem aboveIff : compare v w = .gt ↔ w.major < v.major ∨ v.major = w.major ∧ w.minor < v.minor := by
  change (compare v.major w.major).then (compare v.minor w.minor) = .gt ↔ _
  rw [Ordering.then_eq_gt, Std.compare_eq_gt, Std.compare_eq_gt, Std.compare_eq_iff_eq]

theorem sameIff : compare v w = .eq ↔ v = w := by
  change (compare v.major w.major).then (compare v.minor w.minor) = .eq ↔ _
  rw [Ordering.then_eq_eq, Std.compare_eq_iff_eq, Std.compare_eq_iff_eq]
  cases v
  cases w
  simp

def Follows (next current : MinorVersion) : Prop :=
  next.major = current.major ∧ next.minor.toNat = current.minor.toNat + 1

theorem nextFollows (below : v.minor < w.minor) : ∃ next, v.next = .ok next ∧ next.Follows v := by
  have room : v.minor.toNat + 1 < UInt32.size :=
    Nat.lt_of_le_of_lt (UInt32.lt_iff_toNat_lt.mp below) w.minor.toNat_lt
  refine ⟨⟨v.major, v.minor + 1⟩, if_pos room, rfl, ?_⟩
  change (v.minor + 1).toNat = _
  rw [UInt32.toNat_add]
  exact Nat.mod_eq_of_lt room

/- What a call may ask for, given where the resource is and where it is to go. -/
structure Advances (current goal next : MinorVersion) : Prop where
  follows : next.Follows current
  reachable : compare next goal ≠ .gt
  major : goal.major = current.major

theorem Advances.ahead {next : MinorVersion} (advances : Advances current goal next) : current.minor < goal.minor := by
  obtain ⟨⟨same, step⟩, reachable, major⟩ := advances
  rw [ne_eq, aboveIff, not_or, not_and] at reachable
  have short := reachable.2 (same.trans major.symm)
  rw [UInt32.not_lt, UInt32.le_iff_toNat_le, step] at short
  exact UInt32.lt_iff_toNat_lt.mpr short

theorem Advances.apart {next : MinorVersion} (advances : Advances current goal next) : current ≠ goal := by
  rintro rfl
  exact UInt32.lt_irrefl _ advances.ahead

end MinorVersion

namespace VersionStep
open MinorVersion
variable {observed desired : MinorVersion}

/- All that a comparison may come to. That a version has no successor is not among it. -/
inductive Leads (observed desired : MinorVersion) : Except BadVersion VersionStep → Prop where
  | reached (same : desired = observed) : Leads observed desired (.ok .reached)
  | downgrade (below : compare desired observed = .lt) : Leads observed desired (.ok .downgrade)
  | final (advances : Advances observed desired desired) : Leads observed desired (.ok (.final desired))
  | intermediate {next} (advances : Advances observed desired next) :
      Leads observed desired (.ok (.intermediate next))
  | otherMajor (above : observed.major < desired.major) :
      Leads observed desired (.error ⟨desired.text, .otherMajor observed.major desired.major⟩)

theorem betweenLeads (observed desired : MinorVersion) : Leads observed desired (between observed desired) := by
  unfold between
  split
  · rename_i same
    exact .reached (sameIff.mp same)
  · rename_i below
    exact .downgrade below
  · rename_i above
    rw [aboveIff] at above
    split
    · rename_i apart
      exact .otherMajor (above.resolve_right fun same => apart same.1)
    · rename_i same
      have same := Classical.not_not.mp same
      have ahead := (above.resolve_left fun less => absurd same.symm (UInt32.ne_of_lt less)).2
      obtain ⟨next, found, follows⟩ := nextFollows ahead
      rw [found]
      change Leads observed desired (.ok (if next = desired then .final desired else .intermediate next))
      split
      · rename_i last
        subst last
        exact .final ⟨follows, by rw [sameIff.mpr rfl]; nofun, same⟩
      · refine .intermediate ⟨follows, fun passed => ?_, same⟩
        rcases aboveIff.mp passed with less | ⟨_, less⟩
        · exact absurd (follows.1.trans same.symm).symm (UInt32.ne_of_lt less)
        · rw [UInt32.lt_iff_toNat_lt, follows.2] at less
          exact absurd (UInt32.lt_iff_toNat_lt.mp ahead) (Nat.not_lt.mpr (Nat.le_of_lt_succ less))

def target? : VersionStep → Option MinorVersion
  | .final v => some v
  | .intermediate v => some v
  | _ => none

theorem betweenTarget {step : VersionStep} {next : MinorVersion} (stepped : between observed desired = .ok step)
    (moves : step.target? = some next) : Advances observed desired next := by
  have leads := betweenLeads observed desired
  rw [stepped] at leads
  cases leads with
  | reached => cases moves
  | downgrade => cases moves
  | final advances => cases moves; exact advances
  | intermediate advances => cases moves; exact advances

end VersionStep

open MinorVersion

/- Where a kind keeps versions: the one that is seen, the one that is asked for, and the one that an update names. -/
structure Versioning (σ υ : Type) where
  observed : σ → Option String
  goal? : σ → Option (Except BadVersion MinorVersion)
  target? : υ → Option String

namespace Versioning
variable {σ υ : Type} (v : Versioning σ υ)

def Justified (desired : σ) (seen target : String) : Prop :=
  ∃ current goal next, parse seen = .ok current ∧ v.goal? desired = some (.ok goal) ∧
    Advances current goal next ∧ target = next.text

def Silent (sent : List υ) : Prop := ∀ u ∈ sent, v.target? u = none

structure MovesForward (desired observed : σ) (sent : List υ) : Prop where
  justified : ∀ seen, given (v.observed observed) = some seen → ∀ u ∈ sent, ∀ target,
    v.target? u = some target → v.Justified desired seen target
  malformed : ∀ seen, given (v.observed observed) = some seen → ∀ bad, v.goal? desired = some (.error bad) →
    v.Silent sent
  astray : ∀ seen, given (v.observed observed) = some seen → ∀ current goal, parse seen = .ok current →
    v.goal? desired = some (.ok goal) → compare goal current = .lt ∨ goal.major ≠ current.major → v.Silent sent

variable {v}

theorem silentUnless {sent : List υ} (never : ∀ u ∈ sent, ∀ target, v.target? u ≠ some target) : v.Silent sent :=
  fun u member => Option.eq_none_iff_forall_ne_some.mpr (never u member)

theorem movesForward {desired observed : σ} {sent : List υ}
    (justified : ∀ seen, given (v.observed observed) = some seen → ∀ u ∈ sent, ∀ target,
      v.target? u = some target → v.Justified desired seen target) : v.MovesForward desired observed sent where
  justified := justified
  malformed seen set bad wrong := silentUnless fun u member target names => by
    obtain ⟨_, goal, _, _, right, _⟩ := justified seen set u member target names
    cases wrong.symm.trans right
  astray seen set current goal read asked off := silentUnless fun u member target names => by
    obtain ⟨current', goal', next, read', asked', advances, _⟩ := justified seen set u member target names
    cases read.symm.trans read'
    cases asked.symm.trans asked'
    rcases off with below | other
    · rcases belowIff.mp below with less | ⟨_, less⟩
      · exact absurd advances.major (UInt32.ne_of_lt less)
      · exact UInt32.lt_irrefl _ (UInt32.lt_trans less advances.ahead)
    · exact other advances.major

variable (v)

def Careful (g : UpdateGroup σ υ) : Prop :=
  ∀ input calls seen, g.plan input = .calls calls → given (v.observed input.observed) = some seen → ∀ u ∈ calls,
    ∀ target, v.target? u = some target → v.Justified input.desired seen target

end Versioning

namespace Binding
variable {σ υ : Type}

section
variable {b : Binding σ υ} {v : Versioning σ υ} (careful : ∀ g ∈ b.groups, v.Careful g) (config : Config)
  (answers : Answers σ) (desired : Desired σ) (observed : Observed σ)
include careful

theorem remediateForward :
    v.MovesForward desired.spec observed.spec (b.remediate config answers desired observed).sent := by
  refine Versioning.movesForward fun seen set u member target names => ?_
  rcases b.sentOfOneGroup config answers desired observed with nothing | ⟨g, calls, decides, plan, issued⟩
  · rw [nothing] at member
    cases member
  · exact careful g decides.listed _ calls seen plan set u (issued.subset member) target names

theorem passesForward :
    let moves := v.MovesForward desired.spec observed.spec
    moves (b.remediate config answers desired observed).sent ∧
      (answers.describe = .ok (some observed) → moves (b.reconcile config answers desired).sent) := by
  have forward := remediateForward careful config answers desired observed
  exact ⟨forward, fun found => b.reconciledSent config answers desired observed found ▸ forward⟩

end

end Binding

namespace Cluster

def versioning : Versioning Spec Update where
  observed s := s.version
  goal? s := (given s.version).map parse
  target? u :=
    match u with
    | .version _ target => some target
    | _ => none

def versions : UpdateGroup Spec Update := ⟨"version", ["version"], planVersion⟩

theorem readVersionsOk {desired observed : String} {want current : MinorVersion} :
    readVersions desired observed = .ok (want, current) ↔ parse desired = .ok want ∧ parse observed = .ok current := by
  unfold readVersions
  rw [boundOk]
  constructor
  · rintro ⟨w, wanted, rest⟩
    obtain ⟨c, seen, same⟩ := boundOk.mp rest
    cases same
    exact ⟨wanted, seen⟩
  · rintro ⟨wanted, seen⟩
    exact ⟨want, wanted, boundOk.mpr ⟨current, seen, rfl⟩⟩

section
variable {input : PlanInput Spec} {calls : List Update}

theorem upgradeGiven (planned : planUpgradePolicy input = .calls calls) :
    ∃ policy, calls = [.config { name := input.desired.name, upgradePolicy := some policy }] := by
  unfold planUpgradePolicy at planned
  split at planned
  · cases planned
    exact ⟨_, rfl⟩
  · cases planned

theorem encryptionGiven (planned : planEncryption input = .calls calls) :
    ∃ encryption, calls = [.associateEncryption input.desired.name encryption] := by
  unfold planEncryption at planned
  split at planned <;> cases planned
  exact ⟨_, rfl⟩

theorem versionGiven (planned : planVersion input = .calls calls) :
    ∃ target, calls = [.version input.desired.name target] := by
  unfold planVersion at planned
  split at planned
  · cases planned
  · cases planned
    exact ⟨_, rfl⟩
  · split at planned
    · cases planned
    · split at planned <;> cases planned
      · exact ⟨_, rfl⟩
      · exact ⟨_, rfl⟩

end

theorem versionsCareful : versioning.Careful versions := by
  intro input calls seen plan set u member target names
  change planVersion input = _ at plan
  change given input.observed.version = some seen at set
  unfold planVersion at plan
  rw [set] at plan
  split at plan
  · cases plan
  · rename_i none'
    cases none'
  · rename_i asked known
    cases known
    split at plan
    · cases plan
    · rename_i want current read
      obtain ⟨wanted, current'⟩ := readVersionsOk.mp read
      have goal : versioning.goal? input.desired = some (.ok want) := by
        change (given input.desired.version).map parse = _
        rw [asked, Option.map_some, wanted]
      have sends {next : MinorVersion} {step : VersionStep} (stepped : VersionStep.between current want = .ok step)
          (moves : step.target? = some next) (calls' : calls = [.version input.desired.name next.text]) :
          versioning.Justified input.desired seen target := by
        subst calls'
        cases List.mem_singleton.mp member
        cases names
        exact ⟨current, want, next, current', goal, VersionStep.betweenTarget stepped moves, rfl⟩
      split at plan
      · cases plan
      · rename_i stepped
        exact sends stepped rfl (GroupPlan.calls.inj plan).symm
      · rename_i stepped
        exact sends stepped rfl (GroupPlan.calls.inj plan).symm
      · cases plan
      · cases plan

inductive Planned (input : PlanInput Spec) : Update → Prop where
  | config {u : ConfigUpdate} (named : u.name = input.desired.name) : Planned input (.config u)
  | encryption {e : EncryptionConfig}
      (planned : planEncryption input = .calls [.associateEncryption input.desired.name e]) :
      Planned input (.associateEncryption input.desired.name e)
  | version {target : String} (planned : planVersion input = .calls [.version input.desired.name target]) :
      Planned input (.version input.desired.name target)

theorem groupsPlanned : ∀ g ∈ binding.groups, ∀ input calls, g.plan input = .calls calls →
    ∃ u, calls = [u] ∧ Planned input u := by
  have configures {make : PlanInput Spec → ConfigUpdate} (named : ∀ input, (make input).name = input.desired.name)
      (input : PlanInput Spec) (calls : List Update)
      (planned : GroupPlan.calls [.config (make input)] = .calls calls) : ∃ u, calls = [u] ∧ Planned input u :=
    ⟨_, (GroupPlan.calls.inj planned).symm, .config (named input)⟩
  simp only [binding, groups, List.forall_mem_cons]
  refine ⟨configures fun _ => rfl, configures fun _ => rfl, configures fun _ => rfl, configures fun _ => rfl,
    fun input calls planned => ?upgrade, fun input calls planned => ?encryption, fun input calls planned => ?version,
    configures fun _ => rfl, configures fun _ => rfl, configures fun _ => rfl, List.forall_mem_nil _⟩
  case upgrade =>
    obtain ⟨policy, rfl⟩ := upgradeGiven planned
    exact ⟨_, rfl, .config rfl⟩
  case encryption =>
    obtain ⟨e, rfl⟩ := encryptionGiven planned
    exact ⟨_, rfl, .encryption planned⟩
  case version =>
    obtain ⟨target, rfl⟩ := versionGiven planned
    exact ⟨_, rfl, .version planned⟩

theorem groupsCareful : ∀ g ∈ binding.groups, versioning.Careful g := by
  intro g listed input calls seen planned set u member target names
  obtain ⟨u', rfl, made⟩ := groupsPlanned g listed input calls planned
  cases List.mem_singleton.mp member
  cases made with
  | config => cases names
  | encryption => cases names
  | version plans => exact versionsCareful input _ seen plans set _ member target names

end Cluster

namespace Nodegroup

def versioning : Versioning Spec Update where
  observed s := s.version
  goal? s :=
    match given s.version with
    | some version => some (parse version)
    | none => (given s.releaseVersion).map parseRelease
  target? u :=
    match u with
    | .version u => u.version
    | .config _ => none

def versions : UpdateGroup Spec Update := ⟨"version", ["version", "releaseVersion", "launchTemplate"], planVersion⟩

theorem readGivenOk {read : String → Except BadVersion MinorVersion} {raw : Option String} {o : Option MinorVersion} :
    readGiven read raw = .ok o ↔ (given raw).map read = o.map .ok := by
  unfold readGiven
  cases given raw with
  | none => cases o <;> simp
  | some text =>
    dsimp only
    rw [relabeledOk]
    cases found : read text <;> cases o <;> simp [found, Except.map]

theorem goalsRead {d : Spec} {version release : Option MinorVersion} (read : goals d = .ok (version, release)) :
    (given d.version).map parse = version.map .ok ∧ (given d.releaseVersion).map parseRelease = release.map .ok := by
  unfold goals at read
  obtain ⟨r, released, read⟩ := boundOk.mp read
  obtain ⟨v, versioned, read⟩ := boundOk.mp read
  rw [readGivenOk] at released versioned
  split at read
  · split at read
    · cases read
      exact ⟨versioned, released⟩
    · cases read
  · cases read
    exact ⟨versioned, released⟩

theorem goalsOk {d : Spec} {version release : Option MinorVersion} (read : goals d = .ok (version, release))
    {goal : MinorVersion} (chosen : version.or release = some goal) : versioning.goal? d = some (.ok goal) := by
  obtain ⟨versioned, released⟩ := goalsRead read
  change (match given d.version with
    | some version => some (parse version)
    | none => (given d.releaseVersion).map parseRelease) = _
  cases set : given d.version with
  | some text =>
    rw [set] at versioned
    cases version with
    | none => cases versioned
    | some found =>
      cases chosen
      exact versioned
  | none =>
    rw [set] at versioned
    cases version with
    | some found => cases versioned
    | none =>
      change release = some goal at chosen
      rw [chosen] at released
      exact released

inductive Approach (d : Spec) (observed : Option String) (version : Option MinorVersion) (goal : MinorVersion) :
    Option String × Option String → Prop where
  | unseen (unseen : given observed = none) : Approach d observed version goal (version.map text, d.releaseVersion)
  | reached (seen : (given observed).map parse = some (.ok goal)) :
      Approach d observed version goal (none, d.releaseVersion)
  | final {current} (seen : (given observed).map parse = some (.ok current)) (advances : Advances current goal goal) :
      Approach d observed version goal (some goal.text, d.releaseVersion)
  | intermediate {current next} (seen : (given observed).map parse = some (.ok current))
      (advances : Advances current goal next) : Approach d observed version goal (some next.text, none)

theorem advanceSends {d : Spec} {observed : Option String} {version : Option MinorVersion} {goal : MinorVersion}
    {sent : Option String × Option String} (advanced : advance d observed version goal = .ok sent) :
    Approach d observed version goal sent := by
  unfold advance at advanced
  obtain ⟨found, read, advanced⟩ := boundOk.mp advanced
  rw [readGivenOk] at read
  cases found with
  | none =>
    cases advanced
    exact .unseen (Option.map_eq_none_iff.mp read)
  | some current =>
    obtain ⟨step, stepped, advanced⟩ := boundOk.mp advanced
    rw [relabeledOk] at stepped
    have leads := VersionStep.betweenLeads current goal
    rw [stepped] at leads
    cases leads with
    | reached same =>
      cases advanced
      exact .reached (same ▸ read)
    | downgrade => cases advanced
    | final advances =>
      cases advanced
      exact .final read advances
    | intermediate advances =>
      cases advanced
      exact .intermediate read advances

theorem Approach.advances {d : Spec} {observed : Option String} {version : Option MinorVersion} {goal : MinorVersion}
    {sent : Option String × Option String} (approach : Approach d observed version goal sent) {seen target : String}
    (set : given observed = some seen) (names : sent.1 = some target) :
    ∃ current next, parse seen = .ok current ∧ Advances current goal next ∧ target = next.text := by
  have known {current : MinorVersion} (read : (given observed).map parse = some (.ok current)) :
      parse seen = .ok current := by
    rw [set] at read
    exact Option.some.inj read
  cases approach with
  | unseen unseen => cases set.symm.trans unseen
  | reached => cases names
  | final read advances =>
    cases names
    exact ⟨_, _, known read, advances, rfl⟩
  | intermediate read advances =>
    cases names
    exact ⟨_, _, known read, advances, rfl⟩

inductive Sends (input : PlanInput Spec) (version release : Option MinorVersion) :
    Option String × Option String → Prop where
  | resting
      (still : (input.delta.differsAt "version" || input.delta.differsAt "releaseVersion") = false ∨
        version.or release = none) : Sends input version release (none, none)
  | moving {goal sent} (chosen : version.or release = some goal)
      (approach : Approach input.desired input.observed.version version goal sent) : Sends input version release sent

theorem updateSends {input : PlanInput Spec} {u : VersionUpdate} (made : versionUpdate input = .ok u) :
    ∃ version release, goals input.desired = .ok (version, release) ∧
      Sends input version release (u.version, u.releaseVersion) := by
  unfold versionUpdate at made
  obtain ⟨⟨version, release⟩, read, made⟩ := boundOk.mp made
  refine ⟨version, release, read, ?_⟩
  dsimp only at made
  split at made
  · rename_i goal _ chosen
    obtain ⟨sent, advanced, made⟩ := boundOk.mp made
    cases made
    exact .moving chosen (advanceSends advanced)
  · rename_i resting
    cases made
    refine .resting ?_
    cases changed : input.delta.differsAt "version" || input.delta.differsAt "releaseVersion" with
    | false => exact .inl rfl
    | true => exact .inr (Option.eq_none_iff_forall_ne_some.mpr fun goal chosen => resting goal changed chosen)

theorem updateJustified {input : PlanInput Spec} {u : VersionUpdate} (made : versionUpdate input = .ok u)
    {seen target : String} (set : given input.observed.version = some seen) (names : u.version = some target) :
    versioning.Justified input.desired seen target := by
  obtain ⟨version, release, read, sends⟩ := updateSends made
  change (u.version, u.releaseVersion).1 = _ at names
  generalize (u.version, u.releaseVersion) = sent at sends names
  cases sends with
  | resting => cases names
  | moving chosen approach =>
    obtain ⟨current, next, known, advances, same⟩ := approach.advances set names
    exact ⟨current, _, next, known, goalsOk read chosen, advances, same⟩

theorem configGiven {input : PlanInput Spec} {calls : List Update} (planned : planConfig input = .calls calls) :
    calls = [.config
      { clusterName := input.desired.clusterName
        nodegroupName := input.desired.name
        labels := labelsChange? input.desired input.observed
        taints := taintsChange? input.desired input.observed
        scalingConfig := scaling? input.desired input.observed input.annotations
        updateConfig := input.desired.updateConfig
        nodeRepairConfig := input.desired.nodeRepairConfig }] := by
  unfold planConfig at planned
  dsimp only at planned
  split at planned <;> cases planned
  rfl

theorem versionPlanned {input : PlanInput Spec} {calls : List Update} (planned : planVersion input = .calls calls) :
    ∃ u, calls = [.version u] ∧ versionUpdate input = .ok u := by
  unfold planVersion at planned
  split at planned
  · cases planned
  · rename_i u made
    split at planned <;> cases planned
    exact ⟨u, rfl, made⟩

inductive Planned (input : PlanInput Spec) : Update → Prop where
  | config {u : ConfigUpdate} (planned : planConfig input = .calls [.config u]) : Planned input (.config u)
  | version {u : VersionUpdate} (made : versionUpdate input = .ok u) : Planned input (.version u)

theorem groupsPlanned : ∀ g ∈ binding.groups, ∀ input calls, g.plan input = .calls calls →
    ∃ u, calls = [u] ∧ Planned input u := by
  simp only [binding, groups, List.forall_mem_cons]
  refine ⟨fun input calls planned => ?config, fun input calls planned => ?version, List.forall_mem_nil _⟩
  case config =>
    obtain rfl := configGiven planned
    exact ⟨_, rfl, .config planned⟩
  case version =>
    obtain ⟨u, rfl, made⟩ := versionPlanned planned
    exact ⟨_, rfl, .version made⟩

theorem groupsCareful : ∀ g ∈ binding.groups, versioning.Careful g := by
  intro g listed input calls seen planned set u member target names
  obtain ⟨u', rfl, made⟩ := groupsPlanned g listed input calls planned
  cases List.mem_singleton.mp member
  cases made with
  | config => cases names
  | version made => exact updateJustified made set names

end Nodegroup

/- Every pass over a cluster or a nodegroup whose version is seen, whatever is asked for. -/
theorem versionsMoveForward (config : Config) :
    (∀ (answers : Answers Cluster.Spec) (desired : Desired Cluster.Spec) (observed : Observed Cluster.Spec),
      let moves := Cluster.versioning.MovesForward desired.spec observed.spec
      moves (Cluster.binding.remediate config answers desired observed).sent ∧
        (answers.describe = .ok (some observed) → moves (Cluster.binding.reconcile config answers desired).sent)) ∧
    ∀ (answers : Answers Nodegroup.Spec) (desired : Desired Nodegroup.Spec) (observed : Observed Nodegroup.Spec),
      let moves := Nodegroup.versioning.MovesForward desired.spec observed.spec
      moves (Nodegroup.binding.remediate config answers desired observed).sent ∧
        (answers.describe = .ok (some observed) → moves (Nodegroup.binding.reconcile config answers desired).sent) :=
  ⟨Binding.passesForward Cluster.groupsCareful config, Binding.passesForward Nodegroup.groupsCareful config⟩

theorem releaseTwoMinorsAhead :
    let spec : Nodegroup.Spec := { name := "workers", clusterName := "main" }
    let answers : Answers Nodegroup.Spec := ⟨.ok none, .ok none, fun _ => none, none, .ok .empty, none, none⟩
    let desired : Desired Nodegroup.Spec := ⟨{ spec with releaseVersion := some "1.30.4-20240817" }, .empty, none⟩
    let observed : Observed Nodegroup.Spec := ⟨{ spec with version := some "1.28" }, some "ACTIVE", none, some .empty⟩
    (Nodegroup.binding.remediate .default answers desired observed).sent =
        [.version ⟨"main", "workers", some "1.29", none, none, false⟩] ∧
      Nodegroup.versioning.Justified desired.spec "1.28" "1.29" := by
  intro spec answers desired observed
  have sent : (Nodegroup.binding.remediate .default answers desired observed).sent =
      [.version ⟨"main", "workers", some "1.29", none, none, false⟩] := by decide +kernel
  have moves := ((versionsMoveForward .default).2 answers desired observed).1
  rw [sent] at moves
  exact ⟨sent, moves.justified "1.28" rfl _ List.mem_cons_self "1.29" rfl⟩

end DesiredState
