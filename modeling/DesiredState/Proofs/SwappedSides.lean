import DesiredState.Proofs.Places
import DesiredState.Proofs.SpecReadings

/-!
The two sides exchanged. Bags are matched from the desired side, which on arbitrary values may tell the sides apart.
What a spec renders reads the same from both, so in the rows that are always compared every difference comes at its
place, with its values exchanged. -/
namespace DesiredState

namespace Delta

def swapped (δ : Delta) : Delta := ⟨δ.differences.map Difference.swap⟩

theorem swappedAdd (δ : Delta) (x : Difference) : (δ.add x).swapped = δ.swapped.add x.swap := by
  have present : (δ.swapped.differences.any fun e => e.path == x.swap.path) =
      δ.differences.any fun e => e.path == x.path := List.any_map
  unfold add
  rw [present]
  split
  · rfl
  · simp [swapped]

theorem swappedAddAll (δ : Delta) (ds : List Difference) :
    (δ.addAll ds).swapped = δ.swapped.addAll (ds.map Difference.swap) := by
  unfold addAll
  induction ds generalizing δ with
  | nil => rfl
  | cons x ds ih => rw [List.foldl_cons, ih, swappedAdd, List.map_cons, List.foldl_cons]

end Delta

namespace FieldTable
variable {σ : Type} {t : FieldTable σ}

def always (t : FieldTable σ) : FieldTable σ := { t with fields := t.fields.filter fun f => !f.explicitOnly }

def underAlways (t : FieldTable σ) (path : String) : Bool := t.always.paths.any (pathUnder path)

theorem memAlways {f : Field σ} : f ∈ t.always.fields ↔ f ∈ t.fields ∧ f.explicitOnly = false := by
  simp [always]

theorem tracedRow {fields : List (Field σ)} {xs : List (Reading σ)} (rows : List.Forall₂ Field.Traced fields xs) :
    ∀ f ∈ fields, ∃ x, f.Traced x := by
  induction rows with
  | nil => simp
  | cons row _ ih => exact List.forall_mem_cons.mpr ⟨⟨_, row⟩, ih⟩

theorem rawSwapped (traced : ∀ f ∈ t.fields, ∃ x, f.Traced x) (d o : σ) :
    t.always.raw o d = (t.always.raw d o).swapped := by
  rw [rawInTurn, rawInTurn, Delta.swappedAddAll, List.map_flatMap]
  refine congrArg _ (List.flatMap_congr fun f row => ?_)
  obtain ⟨listed, always⟩ := memAlways.mp row
  obtain ⟨x, traces⟩ := traced f listed
  exact traces.swapped always d o

theorem Apart.rawAlways (apart : t.Apart) (d o : σ) : (t.raw d o).keeping t.underAlways = t.always.raw d o := by
  have kept : ∀ f ∈ t.fields, ∀ x ∈ f.differences d o, t.underAlways x.path = !f.explicitOnly := by
    intro f row x found
    have under := Rule.differencesUnder _ (Field.ruleOfDifference found)
    rw [Bool.eq_iff_iff, underAlways, List.any_eq_true, Bool.not_eq_true']
    constructor
    · rintro ⟨_, listed, above⟩
      obtain ⟨g, always, rfl⟩ := List.mem_map.mp listed
      obtain ⟨other, set⟩ := memAlways.mp always
      have rows := List.pairwise_map.mp apart
      rcases underEither under above with lower | upper
      · exact differentRow rows row other lower ▸ set
      · exact (differentRow rows other row upper) ▸ set
    · intro always
      exact ⟨f.path, List.mem_map_of_mem (memAlways.mpr ⟨row, always⟩), under⟩
  rw [keepingRaw, rawInTurn, always]
  refine congrArg _ ?_
  generalize t.fields = fields at kept
  induction fields with
  | nil => rfl
  | cons f fields ih =>
    obtain ⟨here, later⟩ := List.forall_mem_cons.mp kept
    rw [List.flatMap_cons, ih later, List.filter_congr here, List.filter_cons]
    cases f.explicitOnly <;> simp

end FieldTable

namespace Kind

theorem traced (k : Kind) : ∀ f ∈ k.binding.table.fields, ∃ x, f.Traced x :=
  match k with
  | .cluster => FieldTable.tracedRow Cluster.rows
  | .nodegroup => FieldTable.tracedRow Nodegroup.rows
  | .addon => FieldTable.tracedRow Addon.rows
  | .accessEntry => FieldTable.tracedRow AccessEntry.rows
  | .fargateProfile => FieldTable.tracedRow FargateProfile.rows
  | .capability => FieldTable.tracedRow Capability.rows
  | .podIdentityAssociation => FieldTable.tracedRow PodIdentityAssociation.rows
  | .identityProviderConfig => FieldTable.tracedRow IdentityProviderConfig.rows

/- The rows that are always compared, taken as a table of their own or found among all that a delta reports. -/
theorem sidesSwap (k : Kind) (a b : k.Spec) :
    k.binding.table.always.raw b a = (k.binding.table.always.raw a b).swapped ∧
      (k.binding.table.raw b a).keeping k.binding.table.underAlways =
        ((k.binding.table.raw a b).keeping k.binding.table.underAlways).swapped := by
  have swapped := FieldTable.rawSwapped k.traced a b
  rw [k.rowsApart.rawAlways, k.rowsApart.rawAlways]
  exact ⟨swapped, swapped⟩

/- A version that is declared but not observed is reported; one that is observed but not declared is not. -/
example :
    let a : Nodegroup.Spec := { name := "workers", clusterName := "main", version := some "1.31" }
    let b : Nodegroup.Spec := { name := "workers", clusterName := "main" }
    (Nodegroup.table.raw a b).paths = ["version"] ∧ (Nodegroup.table.raw b a).paths = [] := by
  decide +kernel

end Kind
end DesiredState
