import DesiredState.Proofs.CarriedMembers
import DesiredState.Proofs.FixedPoint
import DesiredState.Proofs.Runs
import DesiredState.Proofs.VersionWalk

/-!
Updates that are made again. A kind with one update restates in it what is declared and leaves out what is not, and
the remote keeps what it is told nothing about. So a declared member agrees after one update, and a member that only
the remote has is reported, and answered with the same update, by every pass from then on. -/
namespace DesiredState

def Difference.undeclared (x : Difference) : Bool := x.desired = .null

namespace Field
variable {σ : Type} {f : Field σ} {desired observed next : σ}

def Takes (f : Field σ) (desired observed next : σ) : Prop :=
  (f.render desired = .null → f.render next = f.render observed) ∧
    (f.render desired ≠ .null → f.render next = f.render desired)

theorem takesOptional {path : String} {rule : Rule} {τ : Type} (write : τ → Json) (shown : ∀ v, write v ≠ .null)
    (get : σ → Option τ) (told : get next = (get desired).or (get observed)) :
    (Field.always path rule fun s => .ofOption write (get s)).Takes desired observed next := by
  unfold Takes always
  dsimp only
  rw [told]
  cases get desired with
  | none => exact ⟨fun _ => rfl, fun declared => absurd rfl declared⟩
  | some v => exact ⟨fun undeclared => absurd undeclared (shown v), fun _ => rfl⟩

theorem takesListed {path : String} {rule : Rule} {τ : Type} (c : Codec τ) (get : σ → List τ)
    (told : get next = get desired) :
    (Field.always path rule fun s => c.list.write (get s)).Takes desired observed next := by
  unfold Takes always
  dsimp only
  rw [told]
  exact ⟨fun undeclared => absurd undeclared (Json.listShown _), fun _ => rfl⟩

theorem differencesShown (same : f.render next = f.render observed) :
    f.differences desired next = f.differences desired observed := by
  unfold differences
  rw [same]

theorem Takes.remaining (takes : f.Takes desired observed next) (whole : f.rule ≠ .nested) :
    f.differences desired next = (f.differences desired observed).filter Difference.undeclared := by
  by_cases undeclared : f.render desired = .null
  · rw [differencesShown (takes.1 undeclared), leafOfWhole whole]
    cases f.differs desired observed <;> simp [Rule.leaf, Difference.undeclared, undeclared]
  · have agreed : f.differences desired next = [] :=
      (differencesShown (takes.2 undeclared)).trans (f.differencesSelf desired)
    rw [agreed, leafOfWhole whole]
    cases f.differs desired observed <;> simp [Rule.leaf, Difference.undeclared, undeclared]

end Field

namespace Pass
variable {σ υ : Type}

def Reports (p : Pass σ υ Fault (Remediation σ)) (v : Verdict) (δ : Delta) : Prop :=
  ∃ resource, p.result = .ok ⟨v, δ, resource⟩

/- A pass over what an update left: it rests when that is nothing, and else makes the update again. -/
def Repeats (p : Pass σ υ Fault (Remediation σ)) (answers : Answers σ) (u : υ) (category : String)
    (left : List Difference) : Prop :=
  if left = [] then p.attempts = [] ∧ p.Reports .converged .empty
  else p.sent = [u] ∧ p.verdict? ≠ some .converged ∧ (answers.update 0 = none → p.Reports (.applied category) ⟨left⟩)

theorem Repeats.rests {p : Pass σ υ Fault (Remediation σ)} {answers : Answers σ} {u : υ} {category : String}
    {left : List Difference} (repeats : p.Repeats answers u category left) (nothing : left = []) :
    p.attempts = [] ∧ p.Reports .converged .empty := by
  unfold Repeats at repeats
  rwa [if_pos nothing] at repeats

end Pass

def Round.showing {σ : Type} (r : Round σ) (spec : σ) : Observed σ := { r.seen with spec := spec }

namespace Binding
variable {σ υ : Type} (b : Binding σ υ) (receive : σ → υ → σ) (desired : Desired σ)

def passOver (spec : σ) (r : Round σ) : Pass σ υ Fault (Remediation σ) :=
  b.remediate r.config r.answers desired (r.showing spec)

def specAfter (spec : σ) (r : Round σ) : σ :=
  ((b.passOver desired spec r).updates.filter fun e => e.2.isNone).foldl (fun s e => receive s e.1) spec

structure Ready (r : Round σ) : Prop where
  active : StatusRules.isActive ((b.rules r.config).classify r.seen.status) = true
  tags : r.seen.tags = some (b.wanted desired)

/- A kind whose one update is made of the declaration alone. A row belongs to the identity, which no update changes,
or to the update, which has the declared value. -/
structure Restates (g : UpdateGroup σ υ) (identity : List String) (update : σ → υ) : Prop where
  group : b.groups = [g]
  plans : ∀ input, g.plan input = .calls [update input.desired]
  rejects : ∀ input, b.rejects input = input.delta.immutableChanges? identity
  strict : ∀ u f, b.benign u f = false
  flat : b.table.Flat
  own : b.table.handovers = []
  rows : ∀ f ∈ b.table.fields,
    (f.path ∈ identity ∧ ∀ d o, f.render (receive o (update d)) = f.render o) ∨
      (f.path ∈ g.paths ∧ ∀ d o, f.Takes d o (receive o (update d)))
  again : ∀ o u, receive (receive o u) u = receive o u

namespace Restates
variable {b receive desired} {g : UpdateGroup σ υ} {identity : List String} {update : σ → υ} {spec : σ}
  (restates : b.Restates receive g identity update)
include restates

theorem deltaRaw (spec : σ) : b.delta desired spec = b.table.raw desired.spec spec := by
  unfold delta FieldTable.compute
  rw [restates.own]
  rfl

theorem deltaRows (spec : σ) :
    (b.delta desired spec).differences = b.table.fields.flatMap fun f => f.differences desired.spec spec := by
  rw [restates.deltaRaw, restates.flat.rawRows]

theorem admittedIff : b.rejects (b.input desired spec) = none ↔
    ∀ top ∈ identity, (b.delta desired spec).differsAt top = false := by
  rw [restates.rejects]
  exact Delta.admittedIff

theorem sends (differs : (b.delta desired spec).isEmpty = false) (admitted : b.rejects (b.input desired spec) = none) :
    b.choice (b.input desired spec) = .send g.category [update desired.spec] := by
  have touched : g.matches (b.delta desired spec) = true := by
    obtain ⟨x, listed⟩ := List.isEmpty_eq_false_iff_exists_mem.mp differs
    have found : x.path ∈ (b.delta desired spec).paths := List.mem_map_of_mem listed
    rw [restates.deltaRaw] at found
    obtain ⟨f, row, _, different⟩ := restates.flat.memPaths.mp found
    have here : (b.delta desired spec).differsAt f.path = true := by
      rw [restates.deltaRaw, restates.flat.differsAtRow row, different]
    rcases restates.rows f row with ⟨fixed, _⟩ | ⟨asked, _⟩
    · cases (restates.admittedIff.mp admitted f.path fixed).symm.trans here
    · exact List.any_eq_true.mpr ⟨f.path, asked, here⟩
  rw [choiceOfGroups differs admitted, restates.group]
  unfold firstPlan
  rw [show g.matches (b.input desired spec).delta = true from touched, restates.plans]
  rfl

section
variable (admitted : b.rejects (b.input desired spec) = none)
include admitted

theorem remaining : b.delta desired (receive spec (update desired.spec)) =
    ⟨(b.delta desired spec).differences.filter Difference.undeclared⟩ := by
  have rows : (b.delta desired (receive spec (update desired.spec))).differences =
      (b.delta desired spec).differences.filter Difference.undeclared := by
    rw [restates.deltaRows, restates.deltaRows, List.filter_flatMap]
    refine List.flatMap_congr fun f row => ?_
    rcases restates.rows f row with ⟨fixed, kept⟩ | ⟨_, takes⟩
    · have same : f.differs desired.spec spec = false := by
        rw [← restates.flat.differsAtRow row, ← restates.deltaRaw]
        exact restates.admittedIff.mp admitted f.path fixed
      have agreed : f.differences desired.spec spec = [] := by
        rw [Field.leafOfWhole (restates.flat.whole f row), same]
        rfl
      rw [Field.differencesShown (kept desired.spec spec), agreed]
      rfl
    · exact (takes desired.spec spec).remaining (restates.flat.whole f row)
  exact congrArg Delta.mk rows

theorem admittedAfter : b.rejects (b.input desired (receive spec (update desired.spec))) = none := by
  refine restates.admittedIff.mpr fun top fixed => Bool.eq_false_iff.mpr fun differs => ?_
  rw [restates.remaining admitted] at differs
  obtain ⟨p, found, under⟩ := Delta.differsAtIff.mp differs
  obtain ⟨x, listed, rfl⟩ := List.mem_map.mp found
  have before : (b.delta desired spec).differsAt top = true :=
    Delta.differsAtIff.mpr ⟨x.path, List.mem_map_of_mem (List.mem_of_mem_filter listed), under⟩
  cases (restates.admittedIff.mp admitted top fixed).symm.trans before

theorem passAfter {r : Round σ} (ready : b.Ready desired r) :
    let next := receive spec (update desired.spec)
    let left := (b.delta desired spec).differences.filter Difference.undeclared
    (b.passOver desired next r).Repeats r.answers (update desired.spec) g.category left ∧
      b.specAfter receive desired next r = next := by
  intro next left
  have here := (b.activeHere r.config (r.showing next) ready.active).1
  have settled : (r.showing next).tags = some (b.wanted desired) := ready.tags
  have delta : b.delta desired next = ⟨left⟩ := restates.remaining admitted
  have pass : b.passOver desired next r =
      b.applyFirst r.config r.answers desired (r.showing next) (b.delta desired next) :=
    b.remediateSettled r.config r.answers desired (r.showing next) here settled
  unfold Pass.Repeats
  split
  · rename_i rests
    rw [rests] at delta
    have chosen : b.choice (b.input desired next) = .nothing :=
      if_pos (show (b.delta desired next).isEmpty = true by rw [delta]; rfl)
    rw [b.applyFirstNothing r.config r.answers desired (r.showing next) chosen, delta] at pass
    unfold specAfter
    rw [pass]
    exact ⟨⟨rfl, _, rfl⟩, rfl⟩
  · rename_i some'
    have differs : (b.delta desired next).isEmpty = false := by
      rw [delta]
      exact Bool.eq_false_iff.mpr fun none' => some' (List.isEmpty_iff.mp none')
    have chosen := restates.sends differs (restates.admittedAfter admitted)
    have tagged : (b.syncTags r.answers desired (r.showing next)).result = .ok none := by
      rw [b.syncSettledTags r.answers desired (r.showing next) settled]
      rfl
    have outcome := b.passOfChoice r.config r.answers desired (r.showing next) here tagged
    rw [show b.choice (b.input desired (r.showing next).spec) = _ from chosen] at outcome
    obtain ⟨⟨_, sending⟩, _⟩ := outcome
    have updates : (b.passOver desired next r).updates = [(update desired.spec, r.answers.update 0)] := sending.alone
    refine ⟨⟨?_, fun converged => ?_, fun answered => ?_⟩, ?_⟩
    · unfold Pass.sent
      rw [updates]
      rfl
    · have nothing := (b.convergedIff r.config r.answers desired (r.showing next) here tagged).mp converged
      cases chosen.symm.trans nothing
    · rw [b.applyFirstAnswered r.config r.answers desired (r.showing next) chosen answered, delta] at pass
      rw [pass]
      exact ⟨_, rfl⟩
    · unfold specAfter
      rw [updates]
      cases r.answers.update 0 with
      | none => exact restates.again spec (update desired.spec)
      | some f => rfl

theorem runAfter {rounds : List (Round σ)} (ready : ∀ r ∈ rounds, b.Ready desired r) :
    let next := receive spec (update desired.spec)
    let left := (b.delta desired spec).differences.filter Difference.undeclared
    Throughout (b.specAfter receive desired)
      (fun s r => s = next ∧ (b.passOver desired s r).Repeats r.answers (update desired.spec) g.category left)
      next rounds := by
  intro next left
  induction rounds with
  | nil => exact throughoutNil
  | cons r rounds ih =>
    obtain ⟨now, later⟩ := List.forall_mem_cons.mp ready
    obtain ⟨repeats, same⟩ := restates.passAfter admitted now
    rw [throughoutCons, same]
    exact ⟨⟨rfl, repeats⟩, ih later⟩

end

theorem applied {r : Round σ} {category : String}
    (applied : (b.passOver desired spec r).verdict? = some (.applied category)) :
    category = g.category ∧ b.rejects (b.input desired spec) = none ∧
      (b.passOver desired spec r).sent = [update desired.spec] ∧
      b.specAfter receive desired spec r = receive spec (update desired.spec) := by
  obtain ⟨calls, chosen, updates, fine⟩ := b.appliedSends r.config r.answers desired (r.showing spec) applied
  change b.choice (b.input desired spec) = _ at chosen
  change (b.passOver desired spec r).updates = _ at updates
  change ∀ e ∈ (b.passOver desired spec r).updates, _ at fine
  obtain ⟨differs, admitted⟩ := sendAdmits chosen
  cases (restates.sends differs admitted).symm.trans chosen
  change _ = [(update desired.spec, r.answers.update 0)] at updates
  have answered : r.answers.update 0 = none := by
    rw [updates] at fine
    have accepted : (r.answers.update 0).all (b.benign (update desired.spec)) = true := fine _ List.mem_cons_self
    cases answer : r.answers.update 0 with
    | none => rfl
    | some f =>
      rw [answer] at accepted
      cases (restates.strict _ f).symm.trans accepted
  refine ⟨rfl, admitted, ?_, ?_⟩
  · unfold Pass.sent
    rw [updates]
    rfl
  · unfold specAfter
    rw [updates, answered]
    rfl

end Restates
end Binding

namespace Addon

def receive (s : Spec) (u : Update) : Spec :=
  { s with
    addonVersion := u.addonVersion.or s.addonVersion
    configurationValues := u.configurationValues.or s.configurationValues
    serviceAccountRoleArn := u.serviceAccountRoleArn.or s.serviceAccountRoleArn
    resolveConflicts := u.resolveConflicts.or s.resolveConflicts
    podIdentityAssociations := u.podIdentityAssociations }

def restatement (d : Spec) : Update :=
  ⟨d.clusterName, d.name, d.addonVersion, d.configurationValues, d.serviceAccountRoleArn, d.resolveConflicts,
    d.podIdentityAssociations⟩

theorem restates : binding.Restates receive
    ⟨"addon", ["addonVersion", "configurationValues", "serviceAccountRoleArn", "podIdentityAssociations"], planAddon⟩
    immutable restatement where
  group := rfl
  plans _ := rfl
  rejects _ := rfl
  strict _ _ := rfl
  flat := ⟨by simp [binding, table, Field.always], by decide⟩
  own := rfl
  rows := by
    simp only [binding, table, List.forall_mem_cons]
    refine ⟨.inl ⟨by decide, fun _ _ => rfl⟩, .inl ⟨by decide, fun _ _ => rfl⟩, .inr ⟨by decide, fun d o => ?_⟩,
      .inr ⟨by decide, fun d o => ?_⟩, .inr ⟨by decide, fun d o => ?_⟩, .inr ⟨by decide, fun d o => ?_⟩,
      List.forall_mem_nil _⟩
    · exact Field.takesOptional .text Json.textShown Spec.addonVersion rfl
    · exact Field.takesOptional .text Json.textShown Spec.configurationValues rfl
    · exact Field.takesOptional .text Json.textShown Spec.serviceAccountRoleArn rfl
    · exact Field.takesListed PodRole.record.codec Spec.podIdentityAssociations rfl
  again o u := by
    simp only [receive, ← Option.or_assoc, Option.or_self]

end Addon

namespace PodIdentityAssociation

def receive (s : Spec) (u : Update) : Spec :=
  { s with
    roleArn := u.roleArn.or s.roleArn
    targetRoleArn := u.targetRoleArn.or s.targetRoleArn
    disableSessionTags := u.disableSessionTags.or s.disableSessionTags }

def restatement (d : Spec) : Update :=
  ⟨d.clusterName, d.nameSpace, d.serviceAccount, d.roleArn, d.targetRoleArn, d.disableSessionTags⟩

theorem restates : binding.Restates receive
    ⟨"association", ["roleArn", "targetRoleArn", "disableSessionTags"], planAssociation⟩ immutable restatement where
  group := rfl
  plans _ := rfl
  rejects _ := rfl
  strict _ _ := rfl
  flat := ⟨by simp [binding, table, Field.always], by decide⟩
  own := rfl
  rows := by
    simp only [binding, table, List.forall_mem_cons]
    refine ⟨.inl ⟨by decide, fun _ _ => rfl⟩, .inl ⟨by decide, fun _ _ => rfl⟩, .inl ⟨by decide, fun _ _ => rfl⟩,
      .inr ⟨by decide, fun d o => ?_⟩, .inr ⟨by decide, fun d o => ?_⟩, .inr ⟨by decide, fun d o => ?_⟩,
      List.forall_mem_nil _⟩
    · exact Field.takesOptional .text Json.textShown Spec.roleArn rfl
    · exact Field.takesOptional .text Json.textShown Spec.targetRoleArn rfl
    · exact Field.takesOptional .bool Json.boolShown Spec.disableSessionTags rfl
  again o u := by
    simp only [receive, ← Option.or_assoc, Option.or_self]

end PodIdentityAssociation

namespace Kind

/- The kinds that have one update for all that may change, with a remote that does what the update says. -/
inductive Faithful : (k : Kind) → (k.Spec → k.Update → k.Spec) → Prop where
  | addon : Faithful .addon Addon.receive
  | association : Faithful .podIdentityAssociation PodIdentityAssociation.receive

theorem Faithful.restates {k : Kind} {receive : k.Spec → k.Update → k.Spec} (faithful : k.Faithful receive) :
    ∃ g identity update, k.binding.Restates receive g identity update := by
  cases faithful with
  | addon => exact ⟨_, _, _, Addon.restates⟩
  | association => exact ⟨_, _, _, PodIdentityAssociation.restates⟩

/- After one update, the declared members agree. What is left are the differences with nothing declared: none, and
every later pass rests; some, and every later pass makes the same update for them again. -/
theorem undeclaredRepeats {k : Kind} {receive : k.Spec → k.Update → k.Spec} (faithful : k.Faithful receive)
    (desired : Desired k.Spec) (seen : k.Spec) (first : Round k.Spec) {category : String}
    (applied : (k.binding.passOver desired seen first).verdict? = some (.applied category)) :
    ∃ u, (k.binding.passOver desired seen first).sent = [u] ∧
      let next := k.binding.specAfter receive desired seen first
      let left := (k.binding.delta desired seen).differences.filter Difference.undeclared
      next = receive seen u ∧ k.binding.delta desired next = ⟨left⟩ ∧
        ∀ rounds : List (Round k.Spec), (∀ r ∈ rounds, k.binding.Ready desired r) →
          Throughout (k.binding.specAfter receive desired)
            (fun s r => s = next ∧ (k.binding.passOver desired s r).Repeats r.answers u category left) next rounds := by
  obtain ⟨g, identity, update, restates⟩ := faithful.restates
  obtain ⟨rfl, admitted, sent, next⟩ := restates.applied applied
  refine ⟨update desired.spec, sent, next, ?_, fun rounds ready => ?_⟩
  · rw [next]
    exact restates.remaining admitted
  · rw [next]
    exact restates.runAfter admitted ready

theorem newVersionRests :
    let spec : Addon.Spec := { name := "coredns", clusterName := "prod", configurationValues := some "x" }
    let seen : Addon.Spec := { spec with addonVersion := some "v1" }
    let desired : Desired Addon.Spec := ⟨{ spec with addonVersion := some "v2" }, .empty, none⟩
    let answers : Answers Addon.Spec := ⟨.ok none, .ok none, fun _ => none, none, .ok .empty, none, none⟩
    let round : Round Addon.Spec := ⟨.default, answers, ⟨seen, some "ACTIVE", none, some .empty⟩⟩
    let next := Addon.binding.specAfter Addon.receive desired seen round
    (Addon.binding.passOver desired seen round).verdict? = some (.applied "addon") ∧ next = desired.spec ∧
      (Addon.binding.passOver desired next round).Reports .converged .empty := by
  intro spec seen desired answers round next
  have applied : (Addon.binding.passOver desired seen round).verdict? = some (.applied "addon") := by decide +kernel
  obtain ⟨u, sent, received, _, runs⟩ := undeclaredRepeats .addon desired seen round applied
  have ready : ∀ r ∈ [round], Addon.binding.Ready desired r := List.forall_mem_singleton.mpr ⟨by decide, rfl⟩
  have nothing : (Addon.binding.delta desired seen).differences.filter Difference.undeclared = [] := by decide +kernel
  have rests := (throughoutCons.mp (runs [round] ready)).1.2.rests nothing
  exact ⟨applied, by decide +kernel, rests.2⟩

theorem undeclaredVersionAppliedAgain :
    let spec : Addon.Spec := { name := "coredns", clusterName := "prod" }
    let seen : Addon.Spec := { spec with addonVersion := some "v1" }
    let desired : Desired Addon.Spec := ⟨spec, .empty, none⟩
    let answers : Answers Addon.Spec := ⟨.ok none, .ok none, fun _ => none, none, .ok .empty, none, none⟩
    let round : Round Addon.Spec := ⟨.default, answers, ⟨seen, some "ACTIVE", none, some .empty⟩⟩
    let next := Addon.binding.specAfter Addon.receive desired seen round
    (Addon.binding.passOver desired seen round).verdict? = some (.applied "addon") ∧
      (Addon.binding.passOver desired next round).verdict? = some (.applied "addon") ∧
      ¬ ((Addon.binding.passOver desired next round).verdict? = some .converged ∧
        (Addon.binding.delta desired next).isEmpty = true) := by
  decide +kernel

end Kind
end DesiredState
