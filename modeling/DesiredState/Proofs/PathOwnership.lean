import DesiredState.Kind
import DesiredState.Proofs.AccessEntryPlans
import DesiredState.Proofs.Segments
import DesiredState.Proofs.Walks

/-!
Every difference has one owner. A table finds differences at known places and below them; the paths that are
refused and those that the groups answer for divide the places, and what lies below a place goes with it. -/
namespace DesiredState

namespace Rule
open Json

theorem leafUnder {differs : Bool} {path : String} {d o : Json} {x : Difference} (found : x ∈ leaf differs path d o) :
    pathUnder x.path path = true := by
  unfold leaf at found
  split at found
  · rw [List.mem_singleton.mp found]
    exact underSelf path
  · cases found

theorem belowUnder {path : String} {d o : Json} (walked : ∀ x ∈ walk path d o, pathUnder x.path path = true)
    {x : Difference} (found : x ∈ below path d o) : pathUnder x.path path = true := by
  unfold below at found
  split at found
  · exact walked x found
  · split at found
    · exact leafUnder found
    · exact leafUnder found

theorem walkUnder (path : String) (d o : Json) : ∀ x ∈ walk path d o, pathUnder x.path path = true := by
  intro x found
  cases left : d.members? with
  | none =>
    rw [walkLeaf path (.inl left)] at found
    exact leafUnder found
  | some l =>
    cases right : o.members? with
    | none =>
      rw [walkLeaf path (.inr right)] at found
      exact leafUnder found
    | some r =>
      rw [walkNames left right] at found
      obtain ⟨k, named, inside⟩ := List.mem_flatMap.mp found
      have smaller := sizeMembersLt left right (memNameUnion named)
      exact underTrans (belowUnder (walkUnder _ _ _) inside) (underMember path k)
termination_by d.size + o.size

theorem differencesUnder (rule : Rule) {path : String} {d o : Json} {x : Difference}
    (found : x ∈ rule.differences path d o) : pathUnder x.path path = true := by
  cases rule with
  | nested => exact walkUnder path d o x found
  | _ => exact leafUnder found

theorem walkMember {path : String} {d o : Json} {l r : List (String × Json)} (left : d.members? = some l)
    (right : o.members? = some r) {x : Difference} (found : x ∈ walk path d o) :
    ∃ k ∈ names l ++ names r, pathUnder x.path s!"{path}.{k}" = true := by
  rw [walkNames left right] at found
  obtain ⟨k, named, inside⟩ := List.mem_flatMap.mp found
  exact ⟨k, memNameUnion named, belowUnder (walkUnder _ _ _) inside⟩

end Rule

namespace Field
variable {σ : Type} {f : Field σ} {places : List String}

def Within (f : Field σ) (places : List String) : Prop :=
  ∀ d o, ∀ x ∈ f.differences d o, ∃ q ∈ places, pathUnder x.path q = true

theorem ruleOfDifference {d o : σ} {x : Difference} (found : x ∈ f.differences d o) :
    x ∈ f.rule.differences f.path (f.render d) (f.render o) := by
  unfold differences at found
  dsimp only at found
  split at found
  · cases found
  · exact found

theorem withinPath (listed : f.path ∈ places) : f.Within places :=
  fun _ _ _ found => ⟨f.path, listed, f.rule.differencesUnder (ruleOfDifference found)⟩

theorem withinMembers {τ : Type} {rec : Record τ τ} {blank : τ} {get : σ → Option τ} (nested : f.rule = .nested)
    (shown : f.render = fun s => .ofOption rec.codec.write (get s)) (empty : rec.document blank = [])
    (listed : ∀ k ∈ rec.names, s!"{f.path}.{k}" ∈ places) : f.Within places := by
  intro d o x found
  have walked := ruleOfDifference found
  rw [nested, shown] at walked
  obtain ⟨k, named, under⟩ := Rule.walkMember (Record.shownMembers empty _) (Record.shownMembers empty _) walked
  refine ⟨_, listed k ?_, under⟩
  exact (List.mem_append.mp named).elim Record.writtenNames Record.writtenNames

end Field

namespace FieldTable
variable {σ : Type} {t : FieldTable σ} {places : List String}

theorem rawWithin (rows : ∀ f ∈ t.fields, f.Within places) {d o : σ} {p : String} (found : p ∈ (t.raw d o).paths) :
    ∃ q ∈ places, pathUnder p q = true := by
  obtain ⟨f, row, inside⟩ := memPathsRaw.mp found
  obtain ⟨x, differs, rfl⟩ := List.mem_map.mp inside
  exact rows f row d o x differs

theorem keptInOrder (hs : List Handover) (annotations : Annotations) (δ : Delta) :
    (hs.foldl (fun δ h => h.apply annotations δ) δ).differences.Sublist δ.differences := by
  induction hs generalizing δ with
  | nil => exact List.Sublist.refl _
  | cons h hs ih =>
    have here : (h.apply annotations δ).differences.Sublist δ.differences := by
      unfold Handover.apply
      split
      · exact List.filter_sublist
      · exact List.Sublist.refl _
    exact (ih _).trans here

theorem keptByHandovers {hs : List Handover} {annotations : Annotations} {δ : Delta} {x : Difference}
    (kept : x ∈ (hs.foldl (fun δ h => h.apply annotations δ) δ).differences) : x ∈ δ.differences :=
  (keptInOrder hs annotations δ).subset kept

theorem computedRaw {d o : σ} {annotations : Annotations} {x : Difference}
    (found : x ∈ (t.compute d o annotations).differences) : x.path ∈ (t.raw d o).paths :=
  List.mem_map_of_mem (keptByHandovers found)

end FieldTable

namespace UpdateGroup
variable {σ υ : Type} (g : UpdateGroup σ υ)

def answersFor (p : String) : Bool := g.paths.any fun top => pathUnder p top

theorem matchesPaths (δ : Delta) : g.matches δ = δ.paths.any g.answersFor := by
  rw [Bool.eq_iff_iff]
  simp only [UpdateGroup.matches, answersFor, List.any_eq_true, Delta.differsAtIff]
  constructor
  · rintro ⟨top, listed, p, found, under⟩
    exact ⟨p, found, top, listed, under⟩
  · rintro ⟨p, found, top, listed, under⟩
    exact ⟨top, listed, p, found, under⟩

theorem matchesOne (x : Difference) : g.matches ⟨[x]⟩ = g.answersFor x.path := by
  rw [matchesPaths]
  exact Bool.or_false _

end UpdateGroup

/- Below this place no refused path and no path of a group begins, and the place has one owner. -/
def Divided {σ υ : Type} (immutable : List String) (groups : List (UpdateGroup σ υ)) (q : String) : Prop :=
  (∀ top ∈ immutable ++ groups.flatMap UpdateGroup.paths, pathUnder top q = true → pathUnder q top = true) ∧
    (groups.filter fun g => g.answersFor q).length = if immutable.any (fun top => pathUnder q top) then 0 else 1

instance {σ υ : Type} (immutable : List String) (groups : List (UpdateGroup σ υ)) (q : String) :
    Decidable (Divided immutable groups q) := inferInstanceAs (Decidable (_ ∧ _))

theorem Divided.below {σ υ : Type} {immutable : List String} {groups : List (UpdateGroup σ υ)} {p q : String}
    (divided : Divided immutable groups q) (under : pathUnder p q = true) :
    (groups.filter fun g => g.answersFor p).length = if immutable.any (fun top => pathUnder p top) then 0 else 1 := by
  obtain ⟨shallow, owner⟩ := divided
  have alike {tops : List String} (listed : tops ⊆ immutable ++ groups.flatMap UpdateGroup.paths) :
      (tops.any fun top => pathUnder p top) = tops.any fun top => pathUnder q top := by
    rw [Bool.eq_iff_iff, List.any_eq_true, List.any_eq_true]
    refine exists_congr fun top => and_congr_right fun inside => ⟨fun here => ?_, underTrans under⟩
    exact (underEither under here).elim id (shallow top (listed inside))
  have owned (g : UpdateGroup σ υ) (asked : g ∈ groups) : g.answersFor p = g.answersFor q :=
    alike fun top inside => List.mem_append_right _ (List.mem_flatMap_of_mem asked inside)
  rw [List.filter_congr owned, alike fun top inside => List.mem_append_left _ inside]
  exact owner

namespace Binding
variable {σ υ : Type} (b : Binding σ υ)

def refuses (input : PlanInput σ) (x : Difference) : Bool := (b.rejects { input with delta := ⟨[x]⟩ }).isSome

def owners (x : Difference) : List (UpdateGroup σ υ) := b.groups.filter fun g => g.matches ⟨[x]⟩

/- What is refused is a matter of single paths, and what a table finds has one owner unless it is refused. -/
structure Owns (refused : String → Bool) : Prop where
  rejects : ∀ input, (b.rejects input).isSome = input.delta.paths.any refused
  owner : ∀ d o, ∀ p ∈ (b.table.raw d o).paths,
    (b.groups.filter fun g => g.answersFor p).length = if refused p then 0 else 1

variable {b}

theorem ownsDivided {immutable places : List String}
    (rejects : ∀ input, b.rejects input = input.delta.immutableChanges? immutable)
    (rows : ∀ f ∈ b.table.fields, f.Within places) (divided : ∀ q ∈ places, Divided immutable b.groups q) :
    b.Owns fun p => immutable.any fun top => pathUnder p top where
  rejects input := by
    rw [rejects, Bool.eq_iff_iff, Option.isSome_iff_ne_none, ne_eq, Delta.admittedIff]
    simp only [← Bool.not_eq_true, Delta.differsAtIff, List.any_eq_true]
    constructor
    · intro some'
      simp only [not_forall, not_not] at some'
      obtain ⟨top, listed, p, found, under⟩ := some'
      exact ⟨p, found, top, listed, under⟩
    · rintro ⟨p, found, top, listed, under⟩ none'
      exact none' top listed ⟨p, found, under⟩
  owner d o p found := by
    obtain ⟨q, place, under⟩ := FieldTable.rawWithin rows found
    exact (divided q place).below under

theorem ownsFrozen {refusal : String}
    (rejects : ∀ input, b.rejects input = if input.delta.isEmpty then none else some refusal)
    (frozen : b.groups = []) : b.Owns fun _ => true where
  rejects input := by
    rw [rejects]
    unfold Delta.isEmpty Delta.paths
    cases input.delta.differences <;> rfl
  owner d o p _ := by rw [frozen]; rfl

section
variable {refused : String → Bool} (owns : b.Owns refused) (desired : Desired σ) (observed : σ)
include owns

theorem Owns.refuses (input : PlanInput σ) (x : Difference) : b.refuses input x = refused x.path := by
  unfold Binding.refuses
  rw [owns.rejects]
  exact Bool.or_false _

theorem Owns.owners {x : Difference} (found : x ∈ (b.input desired observed).delta.differences) :
    (b.owners x).length = if b.refuses (b.input desired observed) x then 0 else 1 := by
  rw [owns.refuses, ← owns.owner desired.spec observed x.path (FieldTable.computedRaw found)]
  unfold Binding.owners
  simp only [UpdateGroup.matchesOne]

theorem Owns.rejectsIff (input : PlanInput σ) :
    (b.rejects input).isSome = true ↔ ∃ x ∈ input.delta.differences, b.refuses input x = true := by
  rw [owns.rejects]
  simp only [owns.refuses, Delta.paths, List.any_map, List.any_eq_true, Function.comp_apply]

end

theorem matchesIff {b : Binding σ υ} {g : UpdateGroup σ υ} (asked : g ∈ b.groups) (δ : Delta) :
    g.matches δ = true ↔ ∃ x ∈ δ.differences, g ∈ b.owners x := by
  rw [UpdateGroup.matchesPaths]
  simp [Delta.paths, owners, asked, UpdateGroup.matchesOne]

end Binding

namespace Cluster

def places : List String :=
  table.paths.erase "resourcesVpcConfig" ++ VpcConfig.record.names.map fun name => s!"resourcesVpcConfig.{name}"

theorem networkRow : ∀ f ∈ table.fields, f.path = "resourcesVpcConfig" →
    f = .always "resourcesVpcConfig" .nested fun s => .ofOption VpcConfig.record.codec.write s.resourcesVpcConfig := by
  simp [table, Field.always, Field.whenSet]

theorem rowsWithin : ∀ f ∈ table.fields, f.Within places := by
  intro f row
  by_cases network : f.path = "resourcesVpcConfig"
  · obtain rfl := networkRow f row network
    have unset : VpcConfig.record.document {} = [] := rfl
    exact Field.withinMembers rfl rfl unset fun k named => List.mem_append_right _ (List.mem_map_of_mem named)
  · exact Field.withinPath (List.mem_append_left _ ((List.mem_erase_of_ne network).mpr (List.mem_map_of_mem row)))

theorem owns : binding.Owns fun p => immutable.any fun top => pathUnder p top :=
  Binding.ownsDivided (fun _ => rfl) rowsWithin (by decide)

end Cluster

namespace Kind

theorem owns (k : Kind) : ∃ refused, k.binding.Owns refused := by
  have rows {σ : Type} (t : FieldTable σ) : ∀ f ∈ t.fields, f.Within t.paths :=
    fun _ row => Field.withinPath (List.mem_map_of_mem row)
  cases k with
  | cluster => exact ⟨_, Cluster.owns⟩
  | nodegroup => exact ⟨_, Binding.ownsDivided (fun _ => rfl) (rows Nodegroup.table) (by decide)⟩
  | addon => exact ⟨_, Binding.ownsDivided (fun _ => rfl) (rows Addon.table) (by decide)⟩
  | accessEntry => exact ⟨_, Binding.ownsDivided (fun _ => rfl) (rows AccessEntry.table) (by decide)⟩
  | capability => exact ⟨_, Binding.ownsDivided (fun _ => rfl) (rows Capability.table) (by decide)⟩
  | podIdentityAssociation =>
    exact ⟨_, Binding.ownsDivided (fun _ => rfl) (rows PodIdentityAssociation.table) (by decide)⟩
  | fargateProfile => exact ⟨_, Binding.ownsFrozen (fun _ => rfl) rfl⟩
  | identityProviderConfig => exact ⟨_, Binding.ownsFrozen (fun _ => rfl) rfl⟩

/- Each difference is refused or has exactly one group, never both; refusal and groups look at nothing else. So a
pass that has something to do and converges was left to groups that skip. -/
theorem everyDifferenceOwned (k : Kind) (config : Config) (answers : Answers k.Spec) (desired : Desired k.Spec)
    (observed : Observed k.Spec) :
    let b := k.binding
    let input := b.input desired observed.spec
    ((∀ x ∈ input.delta.differences,
        (b.refuses input x = true ∧ b.owners x = []) ∨ (b.refuses input x = false ∧ ∃ g, b.owners x = [g])) ∧
      ((b.rejects input).isSome = true ↔ ∃ x ∈ input.delta.differences, b.refuses input x = true) ∧
      ∀ g ∈ b.groups, g.matches input.delta = true ↔ ∃ x ∈ input.delta.differences, g ∈ b.owners x) ∧
    (StatusRules.isActive ((b.rules config).classify observed.status) = true →
      ∀ synced, (b.syncTags answers desired observed).result = .ok synced → input.delta.isEmpty = false →
        (b.remediate config answers desired observed).verdict? = some .converged →
          b.rejects input = none ∧ Binding.Idle input b.groups) := by
  intro b input
  obtain ⟨refused, owns⟩ := k.owns
  refine ⟨⟨fun x found => ?_, owns.rejectsIff input, fun g asked => Binding.matchesIff asked _⟩, ?_⟩
  · have count := owns.owners desired observed.spec found
    cases refusal : b.refuses input x with
    | true =>
      rw [refusal] at count
      exact .inl ⟨rfl, List.length_eq_zero_iff.mp count⟩
    | false =>
      rw [refusal] at count
      exact .inr ⟨rfl, List.length_eq_one_iff.mp count⟩
  · intro isActive synced tagged differs converged
    obtain ⟨here, _⟩ := b.activeHere config observed isActive
    exact Binding.choiceNothing differs ((b.convergedIff config answers desired observed here tagged).mp converged)

theorem repeatedPolicySkipped :
    let policy : AccessEntry.AccessPolicy := ⟨"view", {}⟩
    let spec (policies : List AccessEntry.AccessPolicy) : AccessEntry.Spec :=
      { clusterName := "main", principalArn := "p", accessPolicies := policies }
    let desired : Desired AccessEntry.Spec := ⟨spec [policy, policy], .empty, none⟩
    let input := AccessEntry.binding.input desired (spec [policy])
    input.delta.isEmpty = false ∧ Binding.Idle input AccessEntry.groups := by
  intro policy spec desired input
  let answers : Answers AccessEntry.Spec := ⟨.ok none, .ok none, fun _ => none, none, .ok .empty, none, none⟩
  let observed : Observed AccessEntry.Spec := ⟨spec [policy], none, none, some .empty⟩
  have differs : input.delta.isEmpty = false := by
    have apart : (AccessEntry.table.raw desired.spec observed.spec).differsAt "accessPolicies" = true :=
      AccessEntry.policiesDiffer.mpr fun perm => absurd perm.length_eq (by decide)
    obtain ⟨p, found, _⟩ := Delta.differsAtIff.mp apart
    exact List.isEmpty_eq_false_iff_exists_mem.mpr ⟨_, (List.mem_map.mp found).choose_spec.1⟩
  have tagged : (AccessEntry.binding.syncTags answers desired observed).result = .ok none := by
    rw [AccessEntry.binding.syncSettledTags answers desired observed rfl]
    rfl
  have once : KeyedPlan.index AccessEntry.AccessPolicy.policyArn [policy, policy] =
      KeyedPlan.index AccessEntry.AccessPolicy.policyArn [policy] := by decide
  have planned : (AccessEntry.policyPlan [policy, policy] [policy]).steps = [] := by
    unfold AccessEntry.policyPlan KeyedPlan.reconcile
    rw [once]
    exact AccessEntry.settledPolicies (d := spec [policy]) (o := spec [policy]) (by decide) (.refl _)
  have chosen : AccessEntry.binding.choice input = .nothing := by
    have distinct : ([policy].map AccessEntry.AccessPolicy.policyArn).Nodup := by decide
    refine (AccessEntry.choiceAt (d := desired) (o := spec [policy]) ⟨rfl, rfl, .inl rfl⟩ distinct).trans ?_
    rw [if_pos (by decide)]
    unfold AccessEntry.sendPolicies
    rw [planned]
    rfl
  have here : AccessEntry.binding.inactive? .default observed.status = none := by decide
  have converged := (AccessEntry.binding.convergedIff .default answers desired observed here tagged).mpr chosen
  exact ⟨differs, ((everyDifferenceOwned .accessEntry .default answers desired observed).2 (by decide) none tagged
    differs converged).2⟩

end Kind
end DesiredState
