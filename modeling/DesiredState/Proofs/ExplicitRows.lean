import DesiredState.Proofs.Places

/-!
Rows that are compared only when the declaration sets them. The declaration is looked at as a whole: an unset rendering
finds nothing, and a rendering that is compared in one piece is one that was asked for. Inside of a nested row that is
set, the places that are left unset are compared as well. -/
namespace DesiredState

namespace Field
variable {σ : Type} {f : Field σ} {d o : σ} {x : Difference}

theorem explicitSet (explicit : f.explicitOnly = true) (found : x ∈ f.differences d o) :
    (f.render d).isZero = false := by
  unfold differences at found
  dsimp only at found
  rw [explicit, Bool.true_and] at found
  split at found
  · cases found
  · exact Bool.eq_false_iff.mpr ‹_›

def Asked (f : Field σ) : Prop := ∀ d o, ∀ x ∈ f.differences d o, x.desired.isZero = false

theorem askedWhole (explicit : f.explicitOnly = true) (whole : f.rule ≠ .nested) : f.Asked := by
  intro d o x found
  obtain ⟨names, located, shallow⟩ := f.located found
  obtain rfl := shallow.resolve_left whole
  rw [located.desired]
  exact explicitSet explicit found

end Field

namespace Capability

def networkRow : Field Spec :=
  .whenSet networkAccessPath .nested fun s =>
    .ofOption NetworkAccess.record.codec.write (s.argoCd.bind ArgoCd.networkAccess)

theorem networkRowAt : ∀ f ∈ table.fields, f.path = networkAccessPath → f = networkRow := by
  simp [table, networkRow, networkAccessPath, roleMappingsPath, Field.always, Field.whenSet]

theorem networkAsked : networkRow.Asked := by
  intro d o x found
  have set := Field.explicitSet rfl found
  have walked : x ∈ Rule.walk networkAccessPath _ _ := Field.ruleOfDifference found
  have plain : ∀ m ∈ NetworkAccess.record.members, ∀ a, (m.value a).isObject = false := by
    refine List.forall_mem_singleton.mpr fun a => ?_
    cases a with
    | mk vpceIds => cases vpceIds <;> rfl
  obtain ⟨m, row, rfl⟩ := Rule.walkRecord (rfl : NetworkAccess.record.document {} = []) (by decide) plain walked
  obtain rfl := List.mem_singleton.mp row
  change (Json.ofOption _ (d.argoCd.bind ArgoCd.networkAccess)).isZero = false at set
  cases access : d.argoCd.bind ArgoCd.networkAccess with
  | none =>
    rw [access] at set
    cases set
  | some access' =>
    rw [access] at set
    cases access' with
    | mk vpceIds =>
      cases vpceIds with
      | nil => cases set
      | cons => rfl

end Capability

namespace Kind

/- Nested rows that are compared when they are set, and whose members are optional texts. -/
def openRows : Kind → List String
  | .cluster => ["upgradePolicy", "kubernetesNetworkConfig"]
  | .capability => ["configuration.argoCd.awsIdc"]
  | _ => []

theorem asked (k : Kind) : ∀ f ∈ k.binding.table.fields, f.explicitOnly = true → f.path ∉ k.openRows → f.Asked := by
  have closed (k : Kind) : ∀ f ∈ k.binding.table.fields, f.explicitOnly = true → f.rule = .nested →
      f.path ∈ k.openRows ∨ k = .capability ∧ f.path = Capability.networkAccessPath := by
    cases k <;> decide
  intro f row explicit other
  by_cases nested : f.rule = .nested
  · obtain ⟨rfl, here⟩ := (closed k f row explicit nested).resolve_left other
    exact Capability.networkRowAt f row here ▸ Capability.networkAsked
  · exact f.askedWhole explicit nested

/- A difference at or below such a row: the declaration sets the field, and except for the open rows it sets what
differs. Whatever the row, both values are those found at the path, and one of them is set. -/
theorem explicitRowsAsked (k : Kind) (desired observed : k.Spec) :
    ∀ f ∈ k.binding.table.fields, f.explicitOnly = true →
      ∀ x ∈ (k.binding.table.raw desired observed).differences, pathUnder x.path f.path = true →
        (f.render desired).isZero = false ∧ (f.path ∉ k.openRows → x.desired.isZero = false) ∧
          ∃ names, Located f.path (f.render desired) (f.render observed) names x := by
  intro f row explicit x found under
  have inside := k.rowsApart.rowAbove row found under
  obtain ⟨names, located, _⟩ := f.located inside
  exact ⟨f.explicitSet explicit inside, fun closed => k.asked f row explicit closed desired observed x inside, names,
    located⟩

theorem newerVersionAsked :
    let spec : Nodegroup.Spec := { name := "workers", clusterName := "main" }
    let x : Difference := ⟨"version", .text "1.30", .text "1.29"⟩
    x ∈ (Nodegroup.table.raw { spec with version := some "1.30" } { spec with version := some "1.29" }).differences ∧
      x.desired.isZero = false := by
  intro spec x
  have found : x ∈
      (Nodegroup.table.raw { spec with version := some "1.30" } { spec with version := some "1.29" }).differences := by
    decide +kernel
  have row : Field.whenSet "version" .whole (fun s => .ofOption .text s.version) ∈ Nodegroup.table.fields :=
    List.mem_of_find?_eq_some (p := fun f => f.path == "version") rfl
  exact ⟨found, (explicitRowsAsked .nodegroup _ _ _ row rfl x found (by decide)).2.1 (by decide)⟩

theorem filledRangeReported :
    let network : Cluster.KubernetesNetworkConfig := { ipFamily := some "ipv4" }
    let desired : Cluster.Spec := { name := "prod", kubernetesNetworkConfig := some network }
    let filled := { network with serviceIpv4Cidr := some "10.100.0.0/16" }
    let observed : Cluster.Spec := { name := "prod", kubernetesNetworkConfig := some filled }
    ∃ f ∈ Cluster.table.fields, f.explicitOnly = true ∧
      ∃ x ∈ (Cluster.table.raw desired observed).differences, pathUnder x.path f.path = true ∧
        x = ⟨"kubernetesNetworkConfig.serviceIpv4Cidr", .null, .text "10.100.0.0/16"⟩ ∧ x.desired.isZero = true := by
  decide +kernel

end Kind
end DesiredState
