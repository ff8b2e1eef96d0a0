import DesiredState.Proofs.Matching
import DesiredState.Proofs.Places
import DesiredState.Proofs.SpecReadings

/-!
Maps inside of records. The labels of a selector and the claims of an identity provider are compared as members of the
record that holds them, where an empty text is as good as unset. So an empty delta tells these maps up to entries with
an empty text, while the labels of a nodegroup, a row of their own, are told exactly. -/
namespace DesiredState

namespace SortedMap
variable {m n : StringMap}

def Alike (m n : StringMap) : Prop := ∀ k, (m.get? k).getD "" = (n.get? k).getD ""

def Overlooked (m n : StringMap) : Prop :=
  ∃ k, m.get? k = some "" ∧ n.get? k = none ∨ m.get? k = none ∧ n.get? k = some ""

theorem overlookedIff : Overlooked m n ↔
    ∃ k ∈ m.keys ++ n.keys, m.get? k = some "" ∧ n.get? k = none ∨ m.get? k = none ∧ n.get? k = some "" := by
  refine exists_congr fun k => (and_iff_right_of_imp fun either => ?_).symm
  rw [List.mem_append, ← containsIff, ← containsIff, contains, contains]
  rcases either with ⟨left, _⟩ | ⟨_, right⟩
  · simp [left]
  · simp [right]

instance (m n : StringMap) : Decidable (Overlooked m n) := decidable_of_iff _ overlookedIff.symm

instance (m n : StringMap) : Decidable (Alike m n) := decidable_of_iff _ filledEqIff

theorem Alike.same (alike : Alike m n) : m = n ↔ ¬Overlooked m n := by
  constructor
  · rintro rfl ⟨k, ⟨there, missing⟩ | ⟨missing, there⟩⟩
    · cases missing.symm.trans there
    · cases missing.symm.trans there
  · intro seen
    refine extLookup fun k => ?_
    have here := alike k
    cases left : m.get? k with
    | none =>
      cases right : n.get? k with
      | none => rfl
      | some w =>
        rw [left, right] at here
        obtain rfl : "" = w := here
        exact absurd ⟨k, .inr ⟨left, right⟩⟩ seen
    | some v =>
      cases right : n.get? k with
      | none =>
        rw [left, right] at here
        obtain rfl : v = "" := here
        exact absurd ⟨k, .inl ⟨left, right⟩⟩ seen
      | some w =>
        rw [left, right] at here
        exact congrArg some here

section
open Json Rule

theorem keyReported (path : String) (a b : Option StringMap) (k : String) :
    s!"{path}.{k}" ∈ paths (walk path (ofOption Codec.strings.write a) (ofOption Codec.strings.write b)) ↔
      ((a.getD .empty).get? k).getD "" ≠ ((b.getD .empty).get? k).getD "" := by
  have plain (v : Option String) : (ofOption .text v).isObject = false ∧ (ofOption .text v).isList = false :=
    plainOptional (fun _ => ⟨rfl, rfl⟩) v
  have each (l : String) : paths (below s!"{path}.{l}"
      (member ((a.getD .empty).entries.map fun e => (e.1, Json.text e.2)) l)
      (member ((b.getD .empty).entries.map fun e => (e.1, Json.text e.2)) l)) =
        if ((a.getD .empty).get? l).getD "" = ((b.getD .empty).get? l).getD "" then [] else [s!"{path}.{l}"] := by
    rw [textMember, textMember, belowPlain (plain _) (plain _), pathsLeaf]
    exact if_congr (readsOptionalText _ _) rfl rfl
  constructor
  · intro found
    obtain ⟨x, inside, same⟩ := List.mem_map.mp found
    obtain ⟨l, here⟩ := (memWalk (shownTexts a) (shownTexts b)).mp inside
    have reported := List.mem_map_of_mem (f := Difference.path) here
    rw [same, ← paths, each] at reported
    split at reported
    · cases reported
    · rename_i differs
      exact memberPathInj (List.mem_singleton.mp reported) ▸ differs
  · intro differs
    have reported := (each k).trans (if_neg differs) ▸ List.mem_singleton_self s!"{path}.{k}"
    obtain ⟨x, here, same⟩ := List.mem_map.mp reported
    exact same ▸ List.mem_map_of_mem ((memWalk (shownTexts a) (shownTexts b)).mpr ⟨k, here⟩)

end

end SortedMap

namespace FargateProfile

@[mk_iff]
structure Selector.Matched (same : StringMap → StringMap → Prop) (p q : Selector) : Prop where
  nameSpace : p.nameSpace = q.nameSpace
  labels : same (p.labels.getD .empty) (q.labels.getD .empty)

instance (same : StringMap → StringMap → Prop) [DecidableRel same] (p q : Selector) :
    Decidable (Selector.Matched same p q) :=
  decidable_of_iff _ (Selector.matched_iff same p q).symm

theorem Selector.matchedReading (p q : Selector) : Matched SortedMap.Alike p q ↔ p.reading = q.reading := by
  rw [Selector.matched_iff, reading, reading, Prod.mk.injEq, SortedMap.filledEqIff]
  rfl

theorem selectorsReported (d o : Spec) (annotations : Annotations) :
    "selectors" ∈ (table.compute d o annotations).paths ↔
      ¬Paired (Selector.Matched SortedMap.Alike) d.selectors o.selectors := by
  have traced : Field.Traced (.always "selectors" .multiset fun s : Spec => Selector.record.codec.list.write s.selectors)
      ⟨fun s => (s.selectors.map Selector.reading : Multiset (String × StringMap))⟩ :=
    Field.tracedBag rfl (fun _ => rfl) Selector.reads
  rw [Paired.congr Selector.matchedReading, Paired.readings, ← Multiset.coe_eq_coe]
  have told : "selectors" ∈ (binding.input ⟨d, annotations, none⟩ o).delta.paths ↔ _ :=
    Kind.fargateProfile.tracedPath rfl (by decide) traced (by decide) ⟨d, annotations, none⟩ o
  exact told.trans (and_iff_right rfl)

structure SelectorsTold (δ : Delta) (d o : Spec) : Prop where
  reported : "selectors" ∈ δ.paths ↔ ¬Paired (Selector.Matched SortedMap.Alike) d.selectors o.selectors
  alike : δ.isEmpty = true → Paired (Selector.Matched SortedMap.Alike) d.selectors o.selectors
  same : δ.isEmpty = true → (∀ p ∈ d.selectors, ∀ q ∈ o.selectors, Selector.Matched SortedMap.Alike p q →
    ¬SortedMap.Overlooked (p.labels.getD .empty) (q.labels.getD .empty)) →
      Paired (Selector.Matched Eq) d.selectors o.selectors

theorem selectorsTold (d o : Spec) (annotations : Annotations) :
    SelectorsTold (table.compute d o annotations) d o := by
  have reported := selectorsReported d o annotations
  have alike (silent : (table.compute d o annotations).isEmpty = true) :
      Paired (Selector.Matched SortedMap.Alike) d.selectors o.selectors :=
    Classical.not_not.mp (mt reported.mpr (Delta.emptyIffNowhere.mp silent _))
  refine ⟨reported, alike, fun silent seen => (alike silent).weaken fun p left q right matched => ?_⟩
  exact ⟨matched.nameSpace, matched.labels.same.mpr (seen p left q right matched)⟩

end FargateProfile

namespace IdentityProviderConfig
open Json Rule

def Spec.claims (s : Spec) : StringMap := s.oidc.requiredClaims.getD .empty

def claimsPath : String := "oidc.requiredClaims"

theorem claimReported (d o : Spec) (k : String) : s!"{claimsPath}.{k}" ∈ (table.raw d o).paths ↔
    (d.claims.get? k).getD "" ≠ (o.claims.get? k).getD "" := by
  let row : Field Spec := .always "oidc" .nested fun s => Oidc.record.codec.write s.oidc
  let m : Member Oidc := ⟨"requiredClaims", fun o => o.requiredClaims.map Codec.strings.write⟩
  have listed : row ∈ table.fields := List.mem_of_find?_eq_some (p := fun f => f.path == "oidc") rfl
  have member' : m ∈ Oidc.record.members := List.mem_of_find?_eq_some (p := fun m => m.name == "requiredClaims") rfl
  have alone : ∀ name ∈ Oidc.record.names, pathUnder s!"oidc.{name}" claimsPath = true ∨
      pathUnder claimsPath s!"oidc.{name}" = true → name = "requiredClaims" := by decide +kernel
  have walked {x : Difference} (under : pathUnder x.path claimsPath = true) : x ∈ row.differences d o ↔
      x ∈ walk claimsPath (ofOption Codec.strings.write d.oidc.requiredClaims)
          (ofOption Codec.strings.write o.oidc.requiredClaims) := by
    have value (o : Oidc) : m.value o = ofOption Codec.strings.write o.requiredClaims := Record.optionalValue _ _ _ o
    rw [← belowMembers (SortedMap.shownTexts _) (SortedMap.shownTexts _), ← value, ← value]
    exact walkMemberAt (by decide) member' under alone d.oidc o.oidc
  rw [Spec.claims, Spec.claims, ← SortedMap.keyReported claimsPath]
  constructor
  · intro found
    obtain ⟨x, inside, same⟩ := List.mem_map.mp found
    have under : pathUnder x.path claimsPath = true := same ▸ underMember claimsPath k
    have reported := Kind.identityProviderConfig.rowsApart.rowAbove listed inside (underTrans under (by decide))
    exact same ▸ List.mem_map_of_mem ((walked under).mp reported)
  · intro found
    obtain ⟨x, inside, same⟩ := List.mem_map.mp found
    have reported := (walked (walkUnder _ _ _ x inside)).mpr inside
    exact FieldTable.memPathsRaw.mpr ⟨row, listed, same ▸ List.mem_map_of_mem reported⟩

structure ClaimsTold (δ : Delta) (d o : Spec) : Prop where
  reported : ∀ k, s!"{claimsPath}.{k}" ∈ δ.paths ↔ (d.claims.get? k).getD "" ≠ (o.claims.get? k).getD ""
  alike : δ.isEmpty = true → SortedMap.Alike d.claims o.claims
  same : δ.isEmpty = true → (d.claims = o.claims ↔ ¬SortedMap.Overlooked d.claims o.claims)

theorem claimsTold (d o : Spec) (annotations : Annotations) : ClaimsTold (table.compute d o annotations) d o := by
  have alike (silent : (table.compute d o annotations).isEmpty = true) : SortedMap.Alike d.claims o.claims :=
    fun k => Classical.not_not.mp (mt (claimReported d o k).mpr (Delta.emptyIffNowhere.mp silent _))
  exact ⟨claimReported d o, alike, fun silent => (alike silent).same⟩

end IdentityProviderConfig

namespace Kind

/- Selectors and claims are told up to entries with an empty text, whatever the annotations are. They are the same
unless a key with an empty text is overlooked. -/
theorem mapsUpToEmptyTexts (annotations : Annotations) :
    (∀ d o : FargateProfile.Spec, FargateProfile.SelectorsTold (FargateProfile.table.compute d o annotations) d o) ∧
      ∀ d o : IdentityProviderConfig.Spec,
        IdentityProviderConfig.ClaimsTold (IdentityProviderConfig.table.compute d o annotations) d o :=
  ⟨fun d o => FargateProfile.selectorsTold d o annotations,
    fun d o => IdentityProviderConfig.claimsTold d o annotations⟩

theorem selectorsPairedAcross :
    let core : FargateProfile.Selector := { nameSpace := "core" }
    let jobs : FargateProfile.Selector :=
      { nameSpace := "jobs", labels := some (.ofList [("team", "infra"), ("x", "")]) }
    let profile (selectors : List FargateProfile.Selector) : FargateProfile.Spec :=
      { name := "batch", clusterName := "main", selectors }
    let d := profile [core, jobs]
    let o := profile [jobs, { core with labels := some .empty }]
    Paired (FargateProfile.Selector.Matched Eq) d.selectors o.selectors := by
  intro core jobs profile d o
  have silent : (FargateProfile.table.compute d o .empty).isEmpty = true := by decide +kernel
  exact ((mapsUpToEmptyTexts .empty).1 d o).same silent (by decide +kernel)

theorem emptyTextsUnnoticed :
    let filled : Option StringMap := some (.ofList [("team", "")])
    let profile (labels : Option StringMap) : FargateProfile.Spec :=
      { name := "batch", clusterName := "main", selectors := [{ nameSpace := "core", labels }] }
    let provider (requiredClaims : Option StringMap) : IdentityProviderConfig.Spec :=
      { clusterName := "main", oidc := { identityProviderConfigName := "corp", requiredClaims } }
    ((FargateProfile.table.compute (profile filled) (profile none) .empty).isEmpty = true ∧
        ¬Paired (FargateProfile.Selector.Matched Eq) (profile filled).selectors (profile none).selectors) ∧
      (IdentityProviderConfig.table.compute (provider filled) (provider none) .empty).isEmpty = true ∧
        (provider filled).claims.contains "team" = true ∧ (provider none).claims.contains "team" = false := by
  intro filled profile provider
  refine ⟨⟨by decide +kernel, ?_⟩, by decide +kernel⟩
  rintro ⟨pair, pairs⟩
  have only : (profile none).selectors[pair ⟨0, by decide⟩] = { nameSpace := "core" } :=
    List.mem_singleton.mp (List.getElem_mem _)
  have labels := (pairs ⟨0, by decide⟩).labels
  rw [only] at labels
  exact absurd labels (by decide +kernel)

end Kind
end DesiredState
