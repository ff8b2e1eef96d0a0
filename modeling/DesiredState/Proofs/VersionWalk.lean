import DesiredState.Proofs.Readings
import DesiredState.Proofs.TagSync
import DesiredState.Proofs.VersionSteps
import DesiredState.Proofs.VersionTexts

/-!
Upgrades over several passes. While everything but the version agrees, each pass asks for the next minor, until the
goal is seen; the pass after that, and all that follow, find nothing to do, however the version is written. -/
namespace DesiredState
open MinorVersion

namespace MinorVersion
variable {current goal next : MinorVersion}

def successor (v : MinorVersion) : MinorVersion := ⟨v.major, v.minor + 1⟩

theorem Follows.successor (follows : next.Follows current) : next = current.successor := by
  have minor : next.minor = current.minor + 1 := by
    apply UInt32.toNat.inj
    rw [UInt32.toNat_add, UInt32.toNat_one, ← follows.2]
    exact (Nat.mod_eq_of_lt next.minor.toNat_lt).symm
  cases next
  exact congr (congrArg _ follows.1) minor

theorem givenParsed {raw : String} {v : MinorVersion} (read : parse raw = .ok v) : given (some raw) = some raw := by
  have shown : raw.isEmpty = false := by
    rw [← Bool.not_eq_true, String.isEmpty_iff]
    rintro rfl
    cases read
  unfold given
  rw [Option.filter_some, shown]
  rfl

structure Onward (current goal : MinorVersion) : Prop where
  major : current.major = goal.major
  minor : current.minor ≤ goal.minor

theorem Onward.further (onward : Onward current goal) (short : current ≠ goal) :
    current.successor.Follows current ∧ Onward current.successor goal := by
  have ahead : current.minor < goal.minor := by
    refine UInt32.lt_of_le_of_ne onward.minor fun same => short ?_
    cases current
    cases goal
    exact congr (congrArg _ onward.major) same
  obtain ⟨next, _, follows⟩ := nextFollows ahead
  obtain rfl := follows.successor
  refine ⟨follows, onward.major, ?_⟩
  rw [UInt32.le_iff_toNat_le, follows.2]
  exact UInt32.lt_iff_toNat_lt.mp ahead

theorem Onward.between (onward : Onward current goal) :
    if current = goal then VersionStep.between current goal = .ok .reached
    else VersionStep.between current goal = .ok (.final current.successor) ∨
      VersionStep.between current goal = .ok (.intermediate current.successor) := by
  have leads := VersionStep.betweenLeads current goal
  generalize VersionStep.between current goal = stepped at leads
  have apart {v : MinorVersion} (advances : Advances current goal v) : current ≠ goal := by
    rintro rfl
    exact UInt32.lt_irrefl _ advances.ahead
  cases leads with
  | reached same => rw [if_pos same.symm]
  | downgrade below =>
    rcases belowIff.mp below with less | ⟨_, less⟩
    · exact absurd onward.major.symm (UInt32.ne_of_lt less)
    · exact absurd less (UInt32.not_lt.mpr onward.minor)
  | final advances =>
    rw [if_neg (apart advances)]
    exact .inl (congrArg (fun v => Except.ok (VersionStep.final v)) advances.follows.successor)
  | intermediate advances =>
    rw [if_neg (apart advances)]
    exact .inr (congrArg (fun v => Except.ok (VersionStep.intermediate v)) advances.follows.successor)
  | otherMajor above => exact absurd onward.major (UInt32.ne_of_lt above)

end MinorVersion

structure Upgrade (σ υ : Type) extends Versioning σ υ where
  seeing : σ → String → σ
  call : Desired σ → String → υ
  sees : ∀ s version, observed (seeing s version) = some version
  names : ∀ desired version, target? (call desired version) = some version

structure Round (σ : Type) where
  config : Config
  answers : Answers σ
  seen : Observed σ

namespace Upgrade
variable {σ υ : Type} (b : Binding σ υ) (up : Upgrade σ υ) (desired : Desired σ)

def shown (r : Round σ) (version : String) : Observed σ := { r.seen with spec := up.seeing r.seen.spec version }

def pass (version : String) (r : Round σ) : Pass σ υ Fault (Remediation σ) :=
  b.remediate r.config r.answers desired (up.shown r version)

def after (version : String) (r : Round σ) : String :=
  ((up.pass b desired version r).sent.filterMap up.target?).getLast?.getD version

/- A round in which everything but the version is as it is asked for, and a call is answered. -/
structure Steady (asked : String) (r : Round σ) : Prop where
  active : StatusRules.isActive ((b.rules r.config).classify r.seen.status) = true
  tags : r.seen.tags = some (b.wanted desired)
  agrees : (b.delta desired (up.seeing r.seen.spec asked)).isEmpty = true
  answered : r.answers.update 0 = none

def Climbs (asked : String) (goal : MinorVersion) : Prop :=
  ∀ o, (b.delta desired (up.seeing o asked)).isEmpty = true → ∀ version current, parse version = .ok current →
    Onward current goal → b.choice (b.input desired (up.seeing o version)) =
      if current = goal then .nothing else .send "version" [up.call desired current.successor.text]

/- The pass with this number in a walk: one call before the goal, none from there on. -/
def Outcome (start goal : MinorVersion) (i : Nat) (p : Pass σ υ Fault (Remediation σ)) : Prop :=
  if i < goal.minor.toNat - start.minor.toNat then
    p.verdict? = some (.applied "version") ∧ p.attempts =
      [⟨.update (b.resourceId desired.spec) (up.call desired s!"{start.major}.{start.minor.toNat + i + 1}"), none⟩]
  else p.verdict? = some .converged ∧ p.attempts = []

def Walks (asked : String) : Prop :=
  ∀ seen start goal, parse seen = .ok start → parse asked = .ok goal → start.major = goal.major →
    start.minor ≤ goal.minor → ∀ (before : List (Round σ)) (r : Round σ),
      (∀ x ∈ before ++ [r], up.Steady b desired asked x) →
        up.Outcome b desired start goal before.length (up.pass b desired (before.foldl (up.after b desired) seen) r)

end Upgrade

namespace Binding
variable {σ υ : Type} (b : Binding σ υ) (config : Config) (answers : Answers σ) (desired : Desired σ)
  (observed : Observed σ)

theorem singleCall (here : b.inactive? config observed.status = none)
    (settled : observed.tags = some (b.wanted desired)) {category : String} {u : υ}
    (chosen : b.choice (b.input desired observed.spec) = .send category [u]) (answered : answers.update 0 = none) :
    let pass := b.remediate config answers desired observed
    pass.verdict? = some (.applied category) ∧
      pass.attempts = [⟨.update (b.resourceId desired.spec) u, none⟩] := by
  dsimp only
  rw [b.remediateSettled config answers desired observed here settled,
    b.applyFirstAnswered config answers desired observed chosen answered]
  exact ⟨rfl, rfl⟩

theorem noCall (here : b.inactive? config observed.status = none)
    (settled : observed.tags = some (b.wanted desired)) (chosen : b.choice (b.input desired observed.spec) = .nothing) :
    let pass := b.remediate config answers desired observed
    pass.verdict? = some .converged ∧ pass.attempts = [] := by
  have tagged : (b.syncTags answers desired observed).result = .ok none := by
    rw [b.syncSettledTags answers desired observed settled]
    rfl
  exact ⟨(b.convergedIff config answers desired observed here tagged).mpr chosen,
    b.silentPass config answers desired observed here settled chosen⟩

end Binding

namespace Upgrade
variable {σ υ : Type} {b : Binding σ υ} {up : Upgrade σ υ} {desired : Desired σ} {asked version : String}
  {current goal : MinorVersion} {r : Round σ}

section
variable (climbs : up.Climbs b desired asked goal) (steady : up.Steady b desired asked r)
  (read : parse version = .ok current) (onward : Onward current goal)
include climbs steady read onward

theorem arrived (same : current = goal) :
    let pass := up.pass b desired version r
    (pass.verdict? = some .converged ∧ pass.attempts = []) ∧ up.after b desired version r = version := by
  have chosen := climbs r.seen.spec steady.agrees version current read onward
  rw [if_pos same] at chosen
  have here := (b.activeHere r.config r.seen steady.active).1
  have quiet := b.noCall r.config r.answers desired (up.shown r version) here steady.tags chosen
  refine ⟨quiet, ?_⟩
  unfold after Pass.sent Pass.updates pass
  rw [quiet.2]
  rfl

theorem climbed (short : current ≠ goal) :
    let pass := up.pass b desired version r
    (pass.verdict? = some (.applied "version") ∧ pass.attempts =
      [⟨.update (b.resourceId desired.spec) (up.call desired current.successor.text), none⟩]) ∧
      up.after b desired version r = current.successor.text := by
  have chosen := climbs r.seen.spec steady.agrees version current read onward
  rw [if_neg short] at chosen
  have here := (b.activeHere r.config r.seen steady.active).1
  have sends := b.singleCall r.config r.answers desired (up.shown r version) here steady.tags chosen
    steady.answered
  refine ⟨sends, ?_⟩
  unfold after Pass.sent Pass.updates pass
  rw [sends.2]
  simp [Attempt.update?, up.names]

end

theorem walks (climbs : ∀ goal, parse asked = .ok goal → up.Climbs b desired asked goal) :
    up.Walks b desired asked := by
  intro seen start goal read wanted major minor before r steady
  have onward : Onward start goal := ⟨major, minor⟩
  clear major minor
  have climbs := climbs goal wanted
  unfold Outcome
  induction before generalizing seen start with
  | nil =>
    have now := steady r List.mem_cons_self
    by_cases same : start = goal
    · have none' : ¬0 < goal.minor.toNat - start.minor.toNat := by
        subst same
        omega
      rw [List.length_nil, if_neg none']
      exact (arrived climbs now read onward same).1
    · obtain ⟨follows, further⟩ := onward.further same
      have some' : 0 < goal.minor.toNat - start.minor.toNat := by
        have reached := UInt32.le_iff_toNat_le.mp further.minor
        rw [follows.2] at reached
        omega
      rw [List.length_nil, if_pos some', ← follows.2]
      exact (climbed climbs now read onward same).1
  | cons x before ih =>
    obtain ⟨now, later⟩ := List.forall_mem_cons.mp steady
    rw [List.length_cons, List.foldl_cons]
    by_cases same : start = goal
    · rw [(arrived climbs now read onward same).2]
      have rest := ih seen start read later onward
      have none' (k : Nat) : ¬k < goal.minor.toNat - start.minor.toNat := by
        subst same
        omega
      rw [if_neg (none' _)] at rest ⊢
      exact rest
    · obtain ⟨follows, further⟩ := onward.further same
      rw [(climbed climbs now read onward same).2]
      have rest := ih start.successor.text start.successor (parseText _) later further
      rw [follows.1, follows.2] at rest
      have reached := UInt32.le_iff_toNat_le.mp further.minor
      rw [follows.2] at reached
      have count : before.length < goal.minor.toNat - (start.minor.toNat + 1) ↔
          before.length + 1 < goal.minor.toNat - start.minor.toNat := by omega
      have same : start.minor.toNat + 1 + before.length = start.minor.toNat + (before.length + 1) := by omega
      rw [same] at rest
      simpa only [count] using rest

end Upgrade
end DesiredState
