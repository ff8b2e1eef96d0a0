import DesiredState.Proofs.AddressedPaths
import DesiredState.Proofs.KeyedAmendments
import DesiredState.Proofs.SpecReadings

/-!
The role mappings of a capability. Where every role is listed once, the mappings differ exactly when the plan for them
does something, and that is when some role is granted to other identities. The change that is sent then turns the
mappings that are seen into the declared ones and leaves the other roles alone. -/
namespace DesiredState.Capability
open KeyedPlan

def granted (mappings : List RoleMapping) (role : String) : Option (Multiset Identity) :=
  (first RoleMapping.role mappings role).map fun m => m.identities

def mappingsPlan (asked held : List RoleMapping) : KeyedPlan RoleMapping String :=
  reconcile RoleMapping.role (fun want held => want.sortedIdentities == held.sortedIdentities) .inPlace asked held

structure MappingsArrive (asked held : List RoleMapping) (change : MappingsChange) : Prop where
  reached : ((amend RoleMapping.role held (change.remove.map RoleMapping.role) change.addOrUpdate).values.map
    RoleMapping.reading).Perm (asked.map RoleMapping.reading)
  untouched : ∀ role, granted asked role = granted held role →
    role ∉ change.remove.map RoleMapping.role ∧ role ∉ change.addOrUpdate.map RoleMapping.role

theorem sameIdentities (m n : RoleMapping) :
    (m.sortedIdentities == n.sortedIdentities) = true ↔ (m.identities : Multiset Identity) = n.identities := by
  unfold RoleMapping.sortedIdentities
  rw [beq_iff_eq, sortedIff Identity.order, Multiset.coe_eq_coe]

theorem planIdleIff {asked held : List RoleMapping} :
    (mappingsPlan asked held).isEmpty = true ↔ ∀ role, granted asked role = granted held role := by
  refine (nothingIff (fun m : RoleMapping => (m.identities : Multiset Identity)) sameIdentities).trans ?_
  simp only [getIndex]
  rfl

theorem readAlike {asked held : List RoleMapping} {role : String} :
    (first RoleMapping.role asked role).map RoleMapping.reading =
        (first RoleMapping.role held role).map RoleMapping.reading ↔
      granted asked role = granted held role := by
  unfold granted
  cases wanted : first RoleMapping.role asked role with
  | none => simp only [Option.map_none, eq_comm (a := none), Option.map_eq_none_iff]
  | some want =>
    cases present : first RoleMapping.role held role with
    | none => simp
    | some old =>
      have own : want.role = old.role := (firstKey wanted).trans (firstKey present).symm
      simp [RoleMapping.reading, own]

theorem mappingsDiffer (desired : Desired Spec) (observed : Spec) {asked : List RoleMapping}
    (declared : desired.spec.roleMappings = some asked) (listed : asked ≠ []) :
    roleMappingsPath ∈ (binding.input desired observed).delta.paths ↔
      ¬ (asked.map RoleMapping.reading).Perm ((observed.roleMappings.getD []).map RoleMapping.reading) := by
  have traced : Field.Traced (.whenSet roleMappingsPath .multiset fun s : Spec =>
      .ofOption (fun ms => RoleMapping.record.codec.list.write (ms.map RoleMapping.sorted)) s.roleMappings)
      ⟨fun s => ((s.roleMappings.getD []).map RoleMapping.reading : Multiset (String × Multiset Identity))⟩ :=
    Field.tracedBag rfl (fun _ => shownMappings _) RoleMapping.reads
  rw [← Multiset.coe_eq_coe]
  refine (Kind.capability.tracedPath rfl (by decide) traced (by decide) desired observed).trans ?_
  dsimp only
  rw [declared]
  refine and_iff_right (Bool.eq_false_iff.mpr fun unset => listed ?_)
  have zero := (zeroMappings desired.spec.roleMappings).mp unset
  rwa [declared] at zero

theorem changeArrives {asked held : List RoleMapping} {change : MappingsChange}
    (wanted : (asked.map RoleMapping.role).Nodup) (sent : mappingsChange? asked held = some change) :
    MappingsArrive asked held change := by
  unfold mappingsChange? at sent
  dsimp only at sent
  split at sent <;> cases sent
  have told (want held : RoleMapping) (same : (want.sortedIdentities == held.sortedIdentities) = true)
      (own : want.role = held.role) : held.reading = want.reading :=
    Prod.ext own.symm ((sameIdentities want held).mp same).symm
  constructor
  case reached => exact valuesUpToOrder wanted (reachedInPlace told fun _ => removedItems)
  case untouched =>
    intro role unchanged
    constructor
    · intro removed
      obtain ⟨present, unwanted⟩ := removedItems.mp removed
      rw [granted, firstNone.mpr unwanted, Option.map_none, eq_comm, granted, Option.map_eq_none_iff] at unchanged
      exact firstNone.mp unchanged present
    · intro written
      obtain ⟨item, member, rfl⟩ := List.mem_map.mp written
      obtain ⟨declared, rejected⟩ := writtenInPlace.mp member
      rw [granted, declared, Option.map_some, eq_comm, granted, Option.map_eq_some_iff] at unchanged
      obtain ⟨old, seen, same⟩ := unchanged
      have accepted := (sameIdentities item old).mpr same.symm
      rw [rejected old seen] at accepted
      cases accepted

/- That the mappings differ, that the plan does something and that some role is granted otherwise are one and the same;
the call that is then planned brings the declared mappings about. -/
theorem mappingsReconciled (desired : Desired Spec) (observed : Spec) {asked : List RoleMapping}
    (declared : desired.spec.roleMappings = some asked) (listed : asked ≠ [])
    (wanted : (asked.map RoleMapping.role).Nodup)
    (present : ((observed.roleMappings.getD []).map RoleMapping.role).Nodup) :
    let input := binding.input desired observed
    let held := observed.roleMappings.getD []
    (roleMappingsPath ∈ input.delta.paths ↔ (mappingsPlan asked held).isEmpty = false) ∧
    ((mappingsPlan asked held).isEmpty = false ↔ ∃ role, granted asked role ≠ granted held role) ∧
    (roleMappingsPath ∈ input.delta.paths → ∃ u change, planCapability input = .calls [u] ∧
      u.rbacRoleMappings = some change ∧ MappingsArrive asked held change) := by
  intro input held
  have busy : (mappingsPlan asked held).isEmpty = false ↔ ∃ role, granted asked role ≠ granted held role := by
    rw [← Bool.not_eq_true, planIdleIff, Classical.not_forall]
  have differs : roleMappingsPath ∈ input.delta.paths ↔ ∃ role, granted asked role ≠ granted held role := by
    have told (m n : RoleMapping) (same : m.reading = n.reading) : m.role = n.role := congrArg Prod.fst same
    rw [mappingsDiffer desired observed declared listed, sameUpToOrder told wanted present, Classical.not_forall]
    exact exists_congr fun role => not_congr readAlike
  refine ⟨differs.trans busy.symm, busy, fun found => ?_⟩
  have changed := Delta.differsAtIff.mpr ⟨_, found, underSelf _⟩
  have sent : mappingsChange? asked held = some _ := if_neg (Bool.eq_false_iff.mp (busy.mpr (differs.mp found)))
  exact ⟨_, _, rfl, (mappingsSent rfl changed declared).trans sent, changeArrives wanted sent⟩

theorem editorsNarrowed :
    let ann : Identity := ⟨"ann", "SSO_USER"⟩
    let bob : Identity := ⟨"bob", "SSO_USER"⟩
    let asked : List RoleMapping := [⟨"ADMIN", [ann, bob]⟩, ⟨"EDITOR", [ann]⟩, ⟨"VIEWER", [bob]⟩]
    let held : List RoleMapping := [⟨"GUEST", [bob]⟩, ⟨"EDITOR", [bob, ann]⟩, ⟨"ADMIN", [bob, ann]⟩]
    let argo (mappings : List RoleMapping) : Spec :=
      { name := "argocd", clusterName := "prod"
        configuration := some { argoCd := some { rbacRoleMappings := some mappings } } }
    let desired : Desired Spec := ⟨argo asked, .empty, none⟩
    let input := binding.input desired (argo held)
    roleMappingsPath ∈ input.delta.paths ∧ ∃ u change, planCapability input = .calls [u] ∧
      u.rbacRoleMappings = some change ∧ MappingsArrive asked held change ∧
      "ADMIN" ∉ change.addOrUpdate.map RoleMapping.role := by
  intro ann bob asked held argo desired input
  obtain ⟨differs, busy, sent⟩ := mappingsReconciled desired (argo held) rfl (by decide) (by decide) (by decide)
  have found := differs.mpr (busy.mpr ⟨"EDITOR", by decide⟩)
  obtain ⟨u, change, planned, said, arrives⟩ := sent found
  exact ⟨found, u, change, planned, said, arrives, (arrives.untouched "ADMIN" (by decide)).2⟩

end DesiredState.Capability
