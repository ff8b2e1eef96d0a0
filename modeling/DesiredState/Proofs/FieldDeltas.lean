import DesiredState.Delta.Table
import Mathlib.Data.List.Nodup

/-!
Which paths a delta has. A table of rows that are compared as a whole, none under another, differs at the
path of a row exactly when the row does. -/
namespace DesiredState

namespace Delta
variable {δ : Delta} {p : String}

theorem emptyIffNowhere : δ.isEmpty = true ↔ ∀ p, p ∉ δ.paths := by
  unfold isEmpty paths
  rw [List.isEmpty_iff, ← List.eq_nil_iff_forall_not_mem, List.map_eq_nil_iff]

theorem addFresh {d : Difference} (fresh : d.path ∉ δ.paths) : δ.add d = ⟨δ.differences ++ [d]⟩ := by
  refine if_neg fun present => fresh ?_
  obtain ⟨e, inside, same⟩ := List.any_eq_true.mp present
  exact List.mem_map.mpr ⟨e, inside, beq_iff_eq.mp same⟩

theorem addAllFresh {ds : List Difference} (distinct : (ds.map Difference.path).Nodup)
    (fresh : ∀ x ∈ ds, x.path ∉ δ.paths) : (δ.addAll ds).differences = δ.differences ++ ds := by
  unfold addAll
  induction ds generalizing δ with
  | nil => exact (List.append_nil _).symm
  | cons x ds ih =>
    obtain ⟨first, later⟩ := List.nodup_cons.mp distinct
    obtain ⟨here, others⟩ := List.forall_mem_cons.mp fresh
    rw [List.foldl_cons, addFresh here, ih later, List.append_assoc, List.singleton_append]
    intro y inside present
    rw [paths, List.map_append, List.mem_append] at present
    rcases present with old | new
    · exact others y inside old
    · exact first (List.mem_singleton.mp new ▸ List.mem_map_of_mem inside)

theorem memPathsAdd {d : Difference} : p ∈ (δ.add d).paths ↔ p ∈ δ.paths ∨ p = d.path := by
  unfold add
  split
  · rename_i present
    obtain ⟨e, inside, same⟩ := List.any_eq_true.mp present
    have known : d.path ∈ δ.paths := List.mem_map.mpr ⟨e, inside, beq_iff_eq.mp same⟩
    exact ⟨.inl, fun either => either.elim id fun here => here ▸ known⟩
  · simp [paths]

theorem memPathsAddAll {ds : List Difference} :
    p ∈ (δ.addAll ds).paths ↔ p ∈ δ.paths ∨ p ∈ ds.map Difference.path := by
  unfold addAll
  induction ds generalizing δ with
  | nil => simp
  | cons d ds ih => rw [List.foldl_cons, ih, memPathsAdd, List.map_cons, List.mem_cons, or_assoc]

def keeping (wanted : String → Bool) (δ : Delta) : Delta := ⟨δ.differences.filter fun x => wanted x.path⟩

theorem keepingAdd (wanted : String → Bool) (δ : Delta) (x : Difference) :
    (δ.add x).keeping wanted = if wanted x.path then (δ.keeping wanted).add x else δ.keeping wanted := by
  have present (kept : wanted x.path = true) :
      ((δ.keeping wanted).differences.any fun e => e.path == x.path) = δ.differences.any fun e => e.path == x.path := by
    rw [keeping, List.any_filter]
    refine List.any_congr rfl fun e => ?_
    by_cases same : e.path = x.path
    · simp [same, kept]
    · simp [same]
  cases kept : wanted x.path with
  | true =>
    rw [if_pos rfl]
    unfold add
    rw [present kept]
    split
    · rfl
    · simp [keeping, kept]
  | false =>
    rw [if_neg Bool.false_ne_true]
    unfold add
    split
    · rfl
    · simp [keeping, kept]

theorem keepingAddAll (wanted : String → Bool) (δ : Delta) (ds : List Difference) :
    (δ.addAll ds).keeping wanted = (δ.keeping wanted).addAll (ds.filter fun x => wanted x.path) := by
  unfold addAll
  induction ds generalizing δ with
  | nil => rfl
  | cons x ds ih =>
    rw [List.foldl_cons, ih, keepingAdd, List.filter_cons]
    split <;> rfl

theorem differsAtIff {top : String} : δ.differsAt top = true ↔ ∃ p ∈ δ.paths, pathUnder p top = true := by
  have paths : δ.differsAt top = δ.paths.any fun p => pathUnder p top := by
    unfold differsAt paths
    rw [List.any_map]
    rfl
  rw [paths, List.any_eq_true]

theorem memPathsUnder {top : String} : p ∈ δ.pathsUnder top ↔ p ∈ δ.paths ∧ pathUnder p top = true := by
  unfold pathsUnder paths
  rw [List.mem_map, List.mem_map]
  constructor
  · rintro ⟨d, member, rfl⟩
    obtain ⟨inside, under⟩ := List.mem_filter.mp member
    exact ⟨⟨d, inside, rfl⟩, under⟩
  · rintro ⟨⟨d, inside, rfl⟩, under⟩
    exact ⟨d, List.mem_filter.mpr ⟨inside, under⟩, rfl⟩

theorem memPathsStrip {top : String} : p ∈ (δ.strip top).paths ↔ p ∈ δ.paths ∧ pathUnder p top = false := by
  simp only [strip, paths, List.mem_map, List.mem_filter, Bool.not_eq_true']
  constructor
  · rintro ⟨d, ⟨inside, apart⟩, rfl⟩
    exact ⟨⟨d, inside, rfl⟩, apart⟩
  · rintro ⟨⟨d, inside, rfl⟩, apart⟩
    exact ⟨d, ⟨inside, apart⟩, rfl⟩

theorem admittedIff {immutable : List String} :
    δ.immutableChanges? immutable = none ↔ ∀ top ∈ immutable, δ.differsAt top = false := by
  have complaint : δ.immutableChanges? immutable = none ↔ immutable.flatMap δ.pathsUnder = [] := by
    unfold immutableChanges?
    split
    · rename_i clear
      exact iff_of_true rfl clear
    · rename_i some' differs
      exact iff_of_false (by simp) differs
  rw [complaint, List.flatMap_eq_nil_iff]
  refine forall_congr' fun top => imp_congr_right fun _ => ?_
  rw [List.eq_nil_iff_forall_not_mem, ← Bool.not_eq_true, differsAtIff]
  constructor
  · rintro none' ⟨p, inside, under⟩
    exact none' p (memPathsUnder.mpr ⟨inside, under⟩)
  · intro none' p member
    exact none' ⟨p, memPathsUnder.mp member⟩

end Delta

namespace FieldTable
variable {σ : Type} {t : FieldTable σ} {desired observed : σ} {p : String}

/- The rows report one after the other, and a path that is there already is left as it is. -/
theorem rawInTurn (t : FieldTable σ) (desired observed : σ) :
    t.raw desired observed = Delta.empty.addAll (t.fields.flatMap fun f => f.differences desired observed) :=
  List.foldl_flatMap.symm

theorem rawRows (distinct : ((t.fields.flatMap fun f => f.differences desired observed).map Difference.path).Nodup) :
    (t.raw desired observed).differences = t.fields.flatMap fun f => f.differences desired observed := by
  rw [rawInTurn, Delta.addAllFresh distinct fun _ _ => List.not_mem_nil]
  rfl

theorem keepingRaw (wanted : String → Bool) (t : FieldTable σ) (desired observed : σ) :
    (t.raw desired observed).keeping wanted = Delta.empty.addAll
      (t.fields.flatMap fun f => (f.differences desired observed).filter fun x => wanted x.path) := by
  rw [rawInTurn, Delta.keepingAddAll, List.filter_flatMap]
  rfl

theorem memPathsRaw :
    p ∈ (t.raw desired observed).paths ↔ ∃ f ∈ t.fields, p ∈ (f.differences desired observed).map Difference.path := by
  rw [rawInTurn, Delta.memPathsAddAll, List.map_flatMap, List.mem_flatMap]
  simp [Delta.empty, Delta.paths]

def keeps (t : FieldTable σ) (annotations : Annotations) (p : String) : Prop :=
  ∀ h ∈ t.handovers, h.owner annotations = .external → pathUnder p h.path = false

theorem memPathsComputed {annotations : Annotations} :
    p ∈ (t.compute desired observed annotations).paths ↔
      p ∈ (t.raw desired observed).paths ∧ t.keeps annotations p := by
  have shrinks (hs : List Handover) (δ : Delta) :
      p ∈ (hs.foldl (fun δ h => h.apply annotations δ) δ).paths ↔
        p ∈ δ.paths ∧ ∀ h ∈ hs, h.owner annotations = .external → pathUnder p h.path = false := by
    induction hs generalizing δ with
    | nil => simp
    | cons h hs ih =>
      rw [List.foldl_cons, ih, List.forall_mem_cons, ← and_assoc]
      refine and_congr_left fun _ => ?_
      unfold Handover.apply
      split
      · rename_i external
        rw [Delta.memPathsStrip]
        exact and_congr_right fun _ => ⟨fun apart _ => apart, fun apart => apart external⟩
      · rename_i own
        exact ⟨fun inside => ⟨inside, fun external => absurd external own⟩, And.left⟩
  exact shrinks t.handovers _

end FieldTable

theorem Rule.leafDiffers (differs : Bool) (path : String) (d o : Json) :
    (!(leaf differs path d o).isEmpty) = differs := by
  cases differs <;> rfl

namespace Field
variable {σ : Type} {desired observed : σ}

def differs (f : Field σ) (desired observed : σ) : Bool := !(f.differences desired observed).isEmpty

theorem differsWhole (path : String) (render : σ → Json) (explicitOnly : Bool) :
    (Field.mk path .whole render explicitOnly).differs desired observed = true ↔
      ¬(explicitOnly = true ∧ (render desired).isZero = true) ∧
        ¬ Json.agree (render desired) (render observed) = true := by
  unfold differs differences
  dsimp only
  split
  · rename_i unset
    exact iff_of_false Bool.false_ne_true fun both => both.1 (Bool.and_eq_true_iff.mp unset)
  · rename_i set
    rw [Rule.differences, Rule.leafDiffers, Bool.not_eq_true', Bool.not_eq_true]
    exact ⟨fun apart => ⟨fun both => set (Bool.and_eq_true_iff.mpr both), apart⟩, And.right⟩

theorem differsMultiset (path : String) (render : σ → Json) :
    (Field.always path .multiset render).differs desired observed = true ↔
      ¬ Json.agreeAsBags (render desired) (render observed) = true := by
  change (!(Rule.leaf (!Json.agreeAsBags (render desired) (render observed)) path _ _).isEmpty) = true ↔ _
  rw [Rule.leafDiffers, Bool.not_eq_true', Bool.not_eq_true]

theorem leafOfWhole {f : Field σ} (whole : f.rule ≠ .nested) :
    f.differences desired observed =
      Rule.leaf (f.differs desired observed) f.path (f.render desired) (f.render observed) := by
  have single (differs : Bool) (d o : Json) :
      Rule.leaf differs f.path d o = Rule.leaf (!(Rule.leaf differs f.path d o).isEmpty) f.path d o := by
    cases differs <;> rfl
  unfold differs differences
  dsimp only
  split
  · rfl
  · cases rule : f.rule with
    | nested => exact absurd rule whole
    | whole => exact single _ _ _
    | map => exact single _ _ _
    | multiset => exact single _ _ _

theorem pathOfWhole {f : Field σ} {p : String} (whole : f.rule ≠ .nested) :
    p ∈ (f.differences desired observed).map Difference.path ↔ p = f.path ∧ f.differs desired observed = true := by
  rw [leafOfWhole whole]
  cases f.differs desired observed <;> simp [Rule.leaf]

end Field

namespace FieldTable
variable {σ : Type}

structure Flat (t : FieldTable σ) : Prop where
  whole : ∀ f ∈ t.fields, f.rule ≠ .nested
  apart : t.fields.Pairwise fun f g => pathUnder f.path g.path = false ∧ pathUnder g.path f.path = false

variable {t : FieldTable σ} {desired observed : σ}

theorem Flat.memPaths (flat : t.Flat) {p : String} :
    p ∈ (t.raw desired observed).paths ↔ ∃ f ∈ t.fields, p = f.path ∧ f.differs desired observed = true := by
  rw [memPathsRaw]
  constructor
  · rintro ⟨f, row, member⟩
    exact ⟨f, row, (Field.pathOfWhole (flat.whole f row)).mp member⟩
  · rintro ⟨f, row, differs⟩
    exact ⟨f, row, (Field.pathOfWhole (flat.whole f row)).mpr differs⟩

theorem Flat.rawRows (flat : t.Flat) :
    (t.raw desired observed).differences = t.fields.flatMap fun f => f.differences desired observed := by
  refine FieldTable.rawRows ?_
  rw [List.map_flatMap, List.nodup_flatMap]
  constructor
  · intro f row
    rw [Field.leafOfWhole (flat.whole f row)]
    cases f.differs desired observed <;> simp [Rule.leaf]
  · refine flat.apart.imp_of_mem fun {f g} row row' apart p left right => ?_
    have here := (Field.pathOfWhole (flat.whole f row)).mp left
    have there := (Field.pathOfWhole (flat.whole g row')).mp right
    rw [← here.1, ← there.1] at apart
    simp [pathUnder] at apart

theorem differentRow {fields : List (Field σ)} {f g : Field σ}
    (apart : fields.Pairwise fun f g => pathUnder f.path g.path = false ∧ pathUnder g.path f.path = false)
    (left : f ∈ fields) (right : g ∈ fields) (under : pathUnder f.path g.path = true) : f = g := by
  induction fields with
  | nil => cases left
  | cons h fields ih =>
    obtain ⟨here, later⟩ := List.pairwise_cons.mp apart
    rcases List.mem_cons.mp left with rfl | first
    · rcases List.mem_cons.mp right with rfl | second
      · rfl
      · rw [(here g second).1] at under
        cases under
    · rcases List.mem_cons.mp right with rfl | second
      · rw [(here f first).2] at under
        cases under
      · exact ih later first second

theorem Flat.differsAtRow (flat : t.Flat) {f : Field σ} (row : f ∈ t.fields) :
    (t.raw desired observed).differsAt f.path = f.differs desired observed := by
  rw [Bool.eq_iff_iff, Delta.differsAtIff]
  constructor
  · rintro ⟨p, member, under⟩
    obtain ⟨g, other, rfl, differs⟩ := flat.memPaths.mp member
    exact differentRow flat.apart other row under ▸ differs
  · intro differs
    exact ⟨f.path, flat.memPaths.mpr ⟨f, row, rfl, differs⟩, by simp [pathUnder]⟩

theorem onlyRow {observed' : σ} {annotations : Annotations} {row : Field σ} (listed : row ∈ t.fields)
    (whole : row.rule ≠ .nested) (kept : t.keeps annotations row.path)
    (alike : ∀ f ∈ t.fields, f = row ∨ f.differences desired observed = f.differences desired observed')
    (agreed : (t.compute desired observed' annotations).isEmpty = true) {p : String} :
    p ∈ (t.compute desired observed annotations).paths ↔ p = row.path ∧ row.differs desired observed = true := by
  rw [memPathsComputed, memPathsRaw]
  constructor
  · rintro ⟨⟨f, member, found⟩, keeps⟩
    rcases alike f member with rfl | same
    · exact (Field.pathOfWhole whole).mp found
    · have known : p ∈ (t.compute desired observed' annotations).paths :=
        memPathsComputed.mpr ⟨memPathsRaw.mpr ⟨f, member, same ▸ found⟩, keeps⟩
      rw [Delta.paths, List.isEmpty_iff.mp agreed] at known
      cases known
  · rintro ⟨rfl, differs⟩
    exact ⟨⟨row, listed, (Field.pathOfWhole whole).mpr ⟨rfl, differs⟩⟩, kept⟩

end FieldTable
end DesiredState
