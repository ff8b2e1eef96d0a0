import DesiredState.Proofs.Places
import DesiredState.Proofs.Strictness

/-!
What a table reports, in order. The differences of a row lie depth first, and names beside each other come in the order
of their bytes. Where no name has a dot a path tells the names on the way down, so no two differences have one path, and
a table whose rows lie apart reports all that its rows find, one row after the other. -/
namespace DesiredState
open Text

namespace Json

def Dotless (a : Json) : Prop := ∀ v ∈ parts a, ∀ k ∈ names (v.members?.getD []), '.' ∉ k.toList

instance (a : Json) : Decidable (Dotless a) :=
  inferInstanceAs (Decidable (∀ v ∈ parts a, ∀ k ∈ names (v.members?.getD []), '.' ∉ k.toList))

variable {a : Json} {ms : List (String × Json)}

theorem Dotless.inside (dotless : Dotless a) (shown : a.members? = some ms) (k : String) : Dotless (member ms k) :=
  everyPart (p := fun v => ∀ k ∈ names (v.members?.getD []), '.' ∉ k.toList) nofun shown dotless k

theorem Dotless.lead (dotless : Dotless a) {names : List String} (found : (a.descend names).isZero = false) :
    ∀ k ∈ names, '.' ∉ k.toList := by
  induction names generalizing a with
  | nil => exact nofun
  | cons k names ih =>
    have inner : a.descend (k :: names) = (member (a.members?.getD []) k).descend names := rfl
    have named : k ∈ Json.names (a.members?.getD []) := by
      by_contra missing
      rw [inner, memberMissing missing, descendNull] at found
      cases found
    cases shown : a.members? with
    | none =>
      rw [shown] at named
      cases named
    | some ms =>
      rw [descendMember shown] at found
      exact List.forall_mem_cons.mpr ⟨dotless a (partsSelf a) k named, ih (dotless.inside shown k) found⟩

end Json

theorem splitJoined (path : String) {names : List String} (dotless : ∀ k ∈ names, '.' ∉ k.toList) :
    (".".intercalate (path :: names)).toList.splitOn '.' = path.toList.splitOn '.' ++ names.map String.toList := by
  induction names generalizing path with
  | nil => rw [String.intercalate_singleton, List.map_nil, List.append_nil]
  | cons k names ih =>
    obtain ⟨here, later⟩ := List.forall_mem_cons.mp dotless
    have member : (".".intercalate [path, k]).toList = path.toList ++ '.' :: k.toList := by
      simp [String.intercalate_cons_cons]
    have joined := joinBelow (List.cons_ne_nil path [k]) names
    rw [List.cons_append, List.singleton_append] at joined
    rw [← joined, ih _ later, member, List.splitOn_append_cons_self, List.splitOn_eq_singleton here, List.append_assoc,
      List.singleton_append, List.map_cons]

namespace Walked
variable {path : String} {d o : Json} {places : List (List String)} {ds : List Difference}

theorem joined (walked : Walked path d o places ds) :
    ds.map Difference.path = places.map fun names => ".".intercalate (path :: names) := by
  have located := walked.located
  clear walked
  induction located with
  | nil => rfl
  | cons here _ ih => rw [List.map_cons, List.map_cons, here.path, ih]

theorem dotless (walked : Walked path d o places ds) (left : d.Dotless) (right : o.Dotless) :
    ∀ names ∈ places, ∀ k ∈ names, '.' ∉ k.toList := by
  intro names inside
  obtain ⟨x, -, located⟩ := relatedRight walked.located.flip names inside
  have apart := located.apart
  rw [located.desired, located.observed, Bool.and_eq_false_iff] at apart
  exact apart.elim left.lead right.lead

theorem distinct (walked : Walked path d o places ds) (left : d.Dotless) (right : o.Dotless) :
    (ds.map Difference.path).Nodup := by
  have apart : places.Nodup := by
    refine walked.depthFirst.imp fun before same => ?_
    subst same
    exact List.lex_irrefl (fun k => List.lt_irrefl (bytes k)) _ before
  have dotless := walked.dotless left right
  rw [walked.joined]
  refine List.Nodup.map_on (fun names inside names' inside' same => ?_) apart
  have split := splitJoined path (dotless names inside)
  rw [same, splitJoined path (dotless names' inside')] at split
  exact (List.map_injective_iff.mpr (fun _ _ => String.toList_injective) (List.append_cancel_left split)).symm

end Walked

theorem Field.inOrder {σ : Type} (f : Field σ) (d o : σ) :
    ∃ places, Walked f.path (f.render d) (f.render o) places (f.differences d o) := by
  unfold Field.differences
  dsimp only
  split
  · exact ⟨[], .nil, .nil⟩
  · exact (f.rule.differencesInOrder f.path _ _).imp fun _ => And.left

namespace FieldTable
variable {σ : Type} {t : FieldTable σ} {d o : σ}

theorem Apart.distinct (apart : t.Apart) (each : ∀ f ∈ t.fields, ((f.differences d o).map Difference.path).Nodup) :
    ((t.fields.flatMap fun f => f.differences d o).map Difference.path).Nodup := by
  rw [List.map_flatMap, List.nodup_flatMap]
  refine ⟨each, (List.pairwise_map.mp apart).imp fun {f g} apart p here there => ?_⟩
  obtain ⟨x, inside, rfl⟩ := List.mem_map.mp here
  obtain ⟨y, inside', same⟩ := List.mem_map.mp there
  have lower := Rule.differencesUnder _ (Field.ruleOfDifference inside)
  have lower' := Rule.differencesUnder _ (Field.ruleOfDifference inside')
  rw [same] at lower'
  rcases underEither lower lower' with under | under
  · rw [apart.1] at under
    cases under
  · rw [apart.2] at under
    cases under

/- What a table reports of two states: all that its rows find in turn, each path once, every row in order. -/
structure Complete (t : FieldTable σ) (d o : σ) : Prop where
  inTurn : (t.raw d o).differences = t.fields.flatMap fun f => f.differences d o
  once : (t.raw d o).paths.Nodup
  inOrder : ∀ f ∈ t.fields, ∃ places, Walked f.path (f.render d) (f.render o) places (f.differences d o)
  kept : ∀ handovers annotations,
    ({ t with handovers }.compute d o annotations).differences.Sublist (t.raw d o).differences

theorem nothingLost (apart : t.Apart) (dotless : ∀ f ∈ t.fields, (f.render d).Dotless ∧ (f.render o).Dotless) :
    t.Complete d o := by
  have distinct : ((t.fields.flatMap fun f => f.differences d o).map Difference.path).Nodup := by
    refine apart.distinct fun f row => ?_
    obtain ⟨places, walked⟩ := f.inOrder d o
    exact walked.distinct (dotless f row).1 (dotless f row).2
  have inTurn := rawRows distinct
  refine ⟨inTurn, ?_, fun f _ => f.inOrder d o, fun handovers annotations => keptInOrder handovers annotations _⟩
  rw [Delta.paths, inTurn]
  exact distinct

theorem networkReportedInOrder :
    let d : Cluster.Spec :=
      { name := "prod", roleArn := some "role",
        resourcesVpcConfig := some { subnetIds := ["subnet"], endpointPublicAccess := some true },
        kubernetesNetworkConfig := some { elasticLoadBalancing := some ⟨some true⟩, ipFamily := some "ipv6" } }
    let o : Cluster.Spec := { name := "prod" }
    (Cluster.table.raw d o).paths =
        ["roleArn", "resourcesVpcConfig.endpointPublicAccess", "resourcesVpcConfig.subnetIds",
          "kubernetesNetworkConfig.elasticLoadBalancing.enabled", "kubernetesNetworkConfig.ipFamily"] ∧
      Cluster.table.Complete d o := by
  intro d o
  have dotless : ∀ f ∈ Cluster.table.fields, (f.render d).Dotless ∧ (f.render o).Dotless := by decide +kernel
  exact ⟨by decide +kernel, nothingLost (Kind.rowsApart .cluster) dotless⟩

/- A name with a dot may lead to the path of another place, and then one of the two differences is lost. -/
example :
    let t : FieldTable Json := { fields := [.always "labels" .nested id] }
    let d : Json := .object [("team.name", .text "core"), ("team", .object [("name", .text "edge")])]
    (t.raw d .null).paths = ["labels.team.name"] ∧
      (t.fields.flatMap fun f => f.differences d .null).map Difference.path =
        ["labels.team.name", "labels.team.name"] := by
  decide +kernel

end FieldTable
end DesiredState
