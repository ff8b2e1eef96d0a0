import DesiredState.Proofs.ByteOrder
import DesiredState.Proofs.PathOwnership

/-!
The place of a difference. A rule reports what both sides hold at one place at or below its row: the path is the row's
with the names on the way down, the two values are those under these names, and they are not both zero. The places are
visited depth first, and names beside each other in the order of their bytes. -/
namespace DesiredState
open Text

namespace Json

/- The value under these names, one inside the other. What is not there reads as null. -/
def descend (v : Json) (names : List String) : Json :=
  names.foldl (fun v name => member (v.members?.getD []) name) v

theorem descendMember {v : Json} {ms : List (String × Json)} (shown : v.members? = some ms) (k : String)
    (names : List String) : v.descend (k :: names) = (member ms k).descend names := by
  unfold descend
  rw [List.foldl_cons, shown]
  rfl

theorem descendAppend (v : Json) (upper lower : List String) :
    v.descend (upper ++ lower) = (v.descend upper).descend lower :=
  List.foldl_append

theorem descendNull (names : List String) : Json.null.descend names = .null := by
  induction names with
  | nil => rfl
  | cons k names ih => exact ih

theorem zeroMembers {v : Json} (zero : v.isZero = true) (k : String) : member (v.members?.getD []) k = .null := by
  cases shown : v.members? with
  | none => rfl
  | some ms =>
    obtain rfl := membersZero shown zero
    rfl

theorem descendZero {v : Json} (zero : v.isZero = true) (names : List String) : (v.descend names).isZero = true := by
  cases names with
  | nil => exact zero
  | cons k names =>
    have inner : v.descend (k :: names) = (member (v.members?.getD []) k).descend names := rfl
    rw [inner, zeroMembers zero, descendNull]
    rfl

theorem zerosAsMaps {a b : Json} (zeros : (a.isZero && b.isZero) = true) : agreeAsMaps a b = true := by
  obtain ⟨left, right⟩ := Bool.and_eq_true_iff.mp zeros
  unfold agreeAsMaps
  split
  · rename_i shown shown'
    rw [membersZero shown left, membersZero shown' right]
    rfl
  · exact agreeZeros zeros

theorem itemsZero {c : Json} {xs : List Json} (found : c.items? = some xs) (zero : c.isZero = true) : xs = [] := by
  cases c <;> cases found
  · rfl
  · exact List.isEmpty_iff.mp zero

theorem zerosAsBags {a b : Json} (zeros : (a.isZero && b.isZero) = true) : agreeAsBags a b = true := by
  obtain ⟨left, right⟩ := Bool.and_eq_true_iff.mp zeros
  unfold agreeAsBags
  split
  · rename_i shown shown'
    rw [itemsZero shown left, itemsZero shown' right]
    rfl
  · exact agreeZeros zeros

end Json

theorem joinBelow {names : List String} (some' : names ≠ []) (more : List String) :
    ".".intercalate (".".intercalate names :: more) = ".".intercalate (names ++ more) := by
  cases more with
  | nil => rw [String.intercalate_singleton, List.append_nil]
  | cons k more =>
    rw [String.intercalate_cons_cons, String.intercalate_append_of_ne_nil some' (List.cons_ne_nil k more)]

theorem joinMember (path k : String) : s!"{path}.{k}" = ".".intercalate [path, k] := by
  simp [String.intercalate_cons_cons, toString]

theorem memberPathInj {path k l : String} (same : s!"{path}.{k}" = s!"{path}.{l}") : k = l := by
  have lists := congrArg String.toList same
  simp [toString] at lists
  exact String.toList_inj.mp lists

/- What a rule reports of two renderings, by the names that lead down to it. -/
structure Located (path : String) (d o : Json) (names : List String) (x : Difference) : Prop where
  path : x.path = ".".intercalate (path :: names)
  desired : x.desired = d.descend names
  observed : x.observed = o.descend names
  apart : (x.desired.isZero && x.observed.isZero) = false

open Json in
theorem Located.inside {path : String} {d o : Json} {x : Difference} {l r : List (String × Json)}
    (left : d.members? = some l) (right : o.members? = some r) {k : String} {names : List String}
    (located : Located s!"{path}.{k}" (member l k) (member r k) names x) : Located path d o (k :: names) x where
  path := by rw [located.path, joinMember, joinBelow (List.cons_ne_nil _ _), List.cons_append, List.singleton_append]
  desired := located.desired.trans (descendMember left k names).symm
  observed := located.observed.trans (descendMember right k names).symm
  apart := located.apart

theorem relatedRight {α β : Type} {related : α → β → Prop} {xs : List α} {ys : List β}
    (each : List.Forall₂ related xs ys) : ∀ y ∈ ys, ∃ x ∈ xs, related x y := by
  induction each with
  | nil => exact nofun
  | cons here _ ih =>
    rw [List.forall_mem_cons]
    refine ⟨⟨_, List.mem_cons_self, here⟩, fun y inside => ?_⟩
    obtain ⟨x, inside', there⟩ := ih y inside
    exact ⟨x, List.mem_cons_of_mem _ inside', there⟩

structure Walked (path : String) (d o : Json) (places : List (List String)) (ds : List Difference) : Prop where
  depthFirst : places.Pairwise (List.Lex BytesBefore)
  located : List.Forall₂ (fun names x => Located path d o names x) places ds

namespace Walked
variable {path : String} {d o : Json} {places : List (List String)} {ds : List Difference}

theorem leaf {same : Bool} (zeros : (d.isZero && o.isZero) = true → same = true) :
    ∃ places, Walked path d o places (Rule.leaf (!same) path d o) ∧ ∀ names ∈ places, names = [] := by
  cases same with
  | true => exact ⟨[], ⟨.nil, .nil⟩, nofun⟩
  | false =>
    have apart : (d.isZero && o.isZero) = false := Bool.eq_false_iff.mpr fun both => Bool.false_ne_true (zeros both)
    have here : Located path d o [] ⟨path, d, o⟩ := ⟨rfl, rfl, rfl, apart⟩
    exact ⟨[[]], ⟨List.pairwise_singleton _ _, .cons here .nil⟩, by simp⟩

theorem inTurn {l r : List (String × Json)} (left : d.members? = some l) (right : o.members? = some r)
    {ks : List String} (ascending : ks.Pairwise fun a b => compare a b = .lt) {found : String → List Difference}
    (each : ∀ k ∈ ks, ∃ places, Walked s!"{path}.{k}" (Json.member l k) (Json.member r k) places (found k)) :
    ∃ places, Walked path d o places (ks.flatMap found) := by
  choose! places walked using each
  -- The names ascend, so whatever lies below one comes before all that lies below a later one.
  refine ⟨ks.flatMap fun k => (places k).map (k :: ·), ?_, ?_⟩
  · rw [List.pairwise_flatMap]
    constructor
    · intro k named
      exact List.pairwise_map.mpr ((walked k named).depthFirst.imp .cons)
    · refine ascending.imp fun less names inside names' inside' => ?_
      obtain ⟨_, _, rfl⟩ := List.mem_map.mp inside
      obtain ⟨_, _, rfl⟩ := List.mem_map.mp inside'
      exact .rel (bytesAscend less)
  · clear ascending
    induction ks with
    | nil => exact .nil
    | cons k ks ih =>
      obtain ⟨here, later⟩ := List.forall_mem_cons.mp walked
      refine List.rel_append ?_ (ih later)
      rw [List.forall₂_map_left_iff]
      exact here.located.imp fun _ _ located => located.inside left right

end Walked

namespace Rule
open Json
variable {path : String} {d o : Json} {x : Difference}

theorem walkInOrder (path : String) (d o : Json) : ∃ places, Walked path d o places (walk path d o) := by
  cases left : d.members? with
  | none =>
    rw [walkLeaf path (.inl left)]
    exact (Walked.leaf agreeZeros).imp fun _ => And.left
  | some l =>
    cases right : o.members? with
    | none =>
      rw [walkLeaf path (.inr right)]
      exact (Walked.leaf agreeZeros).imp fun _ => And.left
    | some r =>
      rw [walkNames left right]
      refine Walked.inTurn left right (ascendingUnion l r) fun k named => ?_
      have smaller := sizeMembersLt left right (memNameUnion named)
      unfold below
      split
      · exact walkInOrder _ _ _
      · split
        · exact (Walked.leaf zerosAsBags).imp fun _ => And.left
        · exact (Walked.leaf agreeZeros).imp fun _ => And.left
termination_by d.size + o.size

theorem differencesInOrder (rule : Rule) (path : String) (d o : Json) :
    ∃ places, Walked path d o places (rule.differences path d o) ∧
      (rule = .nested ∨ ∀ names ∈ places, names = []) := by
  cases rule with
  | nested =>
    obtain ⟨places, walked⟩ := walkInOrder path d o
    exact ⟨places, walked, .inl rfl⟩
  | whole => exact (Walked.leaf agreeZeros).imp fun _ => And.imp_right .inr
  | map => exact (Walked.leaf zerosAsMaps).imp fun _ => And.imp_right .inr
  | multiset => exact (Walked.leaf zerosAsBags).imp fun _ => And.imp_right .inr

theorem differencesLocated (rule : Rule) (found : x ∈ rule.differences path d o) :
    ∃ names, Located path d o names x ∧ (rule = .nested ∨ names = []) := by
  obtain ⟨places, walked, shallow⟩ := rule.differencesInOrder path d o
  obtain ⟨names, inside, located⟩ := relatedRight walked.located x found
  exact ⟨names, located, shallow.imp_right fun shallow => shallow names inside⟩

theorem walkAt {path name : String} {d o : Json} {l r : List (String × Json)} (left : d.members? = some l)
    (right : o.members? = some r) {x : Difference} (under : pathUnder x.path s!"{path}.{name}" = true)
    (alone : ∀ k ∈ names l ++ names r,
      pathUnder s!"{path}.{k}" s!"{path}.{name}" = true ∨ pathUnder s!"{path}.{name}" s!"{path}.{k}" = true → k = name) :
    x ∈ walk path d o ↔ x ∈ below s!"{path}.{name}" (member l name) (member r name) := by
  rw [memWalk left right]
  constructor
  · rintro ⟨k, here⟩
    have lies := belowUnder (walkUnder _ _ _) here
    have named := memNameUnion (belowNamed (List.ne_nil_of_mem here))
    exact alone k named (underEither lies under) ▸ here
  · intro here
    exact ⟨name, here⟩

theorem walkRecord {τ : Type} {rec : Record τ τ} {blank : τ} (empty : rec.document blank = [])
    (distinct : rec.names.Nodup) (flat : ∀ m ∈ rec.members, ∀ a, (m.value a).isObject = false) {a b : Option τ}
    (found : x ∈ walk path (.ofOption rec.codec.write a) (.ofOption rec.codec.write b)) :
    ∃ m ∈ rec.members, x = ⟨s!"{path}.{m.name}", m.value (a.getD blank), m.value (b.getD blank)⟩ := by
  rw [walkNames (Record.shownMembers empty a) (Record.shownMembers empty b)] at found
  obtain ⟨k, named, inside⟩ := List.mem_flatMap.mp found
  have listed : k ∈ rec.members.map Member.name :=
    (List.mem_append.mp (memNameUnion named)).elim Record.writtenNames Record.writtenNames
  obtain ⟨m, row, rfl⟩ := List.mem_map.mp listed
  have value (c : τ) : member (rec.document c) m.name = m.value c := Record.memberValue distinct row c
  refine ⟨m, row, ?_⟩
  have one {same : Bool} (found : x ∈ leaf same s!"{path}.{m.name}" (m.value (a.getD blank)) (m.value (b.getD blank))) :
      x = ⟨s!"{path}.{m.name}", m.value (a.getD blank), m.value (b.getD blank)⟩ := by
    unfold leaf at found
    split at found
    · exact List.mem_singleton.mp found
    · cases found
  rw [value, value] at inside
  unfold below at inside
  rw [flat m row, flat m row] at inside
  split at inside
  · contradiction
  · split at inside
    · exact one inside
    · exact one inside

theorem walkMemberAt {τ : Type} {rec : Record τ τ} (distinct : rec.names.Nodup) {m : Member τ} (row : m ∈ rec.members)
    (under : pathUnder x.path s!"{path}.{m.name}" = true)
    (alone : ∀ name ∈ rec.names, pathUnder s!"{path}.{name}" s!"{path}.{m.name}" = true ∨
      pathUnder s!"{path}.{m.name}" s!"{path}.{name}" = true → name = m.name) (a b : τ) :
    x ∈ walk path (rec.codec.write a) (rec.codec.write b) ↔ x ∈ below s!"{path}.{m.name}" (m.value a) (m.value b) := by
  have value (c : τ) : member (rec.document c) m.name = m.value c := Record.memberValue distinct row c
  rw [← value, ← value]
  refine walkAt rfl rfl under fun name named => alone name ?_
  exact (List.mem_append.mp named).elim Record.writtenNames Record.writtenNames

end Rule

namespace Delta
variable {δ : Delta} {x : Difference}

theorem memAddAll {ds : List Difference} (found : x ∈ (δ.addAll ds).differences) : x ∈ δ.differences ∨ x ∈ ds := by
  unfold addAll at found
  induction ds generalizing δ with
  | nil => exact .inl found
  | cons d ds ih =>
    rcases ih found with here | later
    · unfold add at here
      split at here
      · exact .inl here
      · exact (List.mem_append.mp here).imp_right fun last => List.mem_cons.mpr (.inl (List.mem_singleton.mp last))
    · exact .inr (List.mem_cons_of_mem _ later)

end Delta

namespace FieldTable
variable {σ : Type} {t : FieldTable σ} {d o : σ} {x : Difference}

theorem rowOfRaw (found : x ∈ (t.raw d o).differences) : ∃ f ∈ t.fields, x ∈ f.differences d o := by
  rw [rawInTurn] at found
  exact List.mem_flatMap.mp ((Delta.memAddAll found).resolve_left (by exact nofun))

def Apart (t : FieldTable σ) : Prop :=
  t.paths.Pairwise fun p q => pathUnder p q = false ∧ pathUnder q p = false

instance (t : FieldTable σ) : Decidable t.Apart := inferInstanceAs (Decidable (List.Pairwise _ _))

theorem Apart.rowAbove (apart : t.Apart) {f : Field σ} (row : f ∈ t.fields) (found : x ∈ (t.raw d o).differences)
    (under : pathUnder x.path f.path = true) : x ∈ f.differences d o := by
  obtain ⟨g, other, inside⟩ := rowOfRaw found
  have rows := List.pairwise_map.mp apart
  have same : f = g := by
    rcases underEither under (Rule.differencesUnder _ (Field.ruleOfDifference inside)) with lower | upper
    · exact differentRow rows row other lower
    · exact (differentRow rows other row upper).symm
  exact same ▸ inside

theorem Apart.rowPath (apart : t.Apart) {f : Field σ} (row : f ∈ t.fields) (whole : f.rule ≠ .nested)
    {annotations : Annotations} (kept : t.keeps annotations f.path) :
    f.path ∈ (t.compute d o annotations).paths ↔ f.differences d o ≠ [] := by
  constructor
  · intro found
    obtain ⟨x, inside, same⟩ := List.mem_map.mp found
    have under : pathUnder x.path f.path = true := same ▸ underSelf f.path
    exact List.ne_nil_of_mem (apart.rowAbove row (keptByHandovers inside) under)
  · intro some'
    have differs : f.differs d o = true := by simpa [Field.differs] using some'
    exact memPathsComputed.mpr ⟨memPathsRaw.mpr ⟨f, row, (Field.pathOfWhole whole).mpr ⟨rfl, differs⟩⟩, kept⟩

end FieldTable

theorem Field.located {σ : Type} {f : Field σ} {d o : σ} {x : Difference} (found : x ∈ f.differences d o) :
    ∃ names, Located f.path (f.render d) (f.render o) names x ∧ (f.rule = .nested ∨ names = []) :=
  f.rule.differencesLocated (ruleOfDifference found)

theorem Kind.rowsApart (k : Kind) : k.binding.table.Apart := by
  cases k <;> decide +kernel

/- The path of a row that does not look inside and that nobody else owns is there exactly when the row is not ignored
and the two sides read differently. -/
theorem Kind.tracedPath {k : Kind} {path : String} {f : Field k.Spec} {x : Reading k.Spec}
    (row : k.binding.table.fields.find? (fun f => f.path == path) = some f) (whole : f.rule ≠ .nested)
    (traced : f.Traced x) (free : ∀ h ∈ k.binding.table.handovers, pathUnder path h.path = false)
    (desired : Desired k.Spec) (observed : k.Spec) :
    path ∈ (k.binding.input desired observed).delta.paths ↔
      f.ignores desired.spec = false ∧ x.read desired.spec ≠ x.read observed := by
  have named := List.find?_some row
  obtain rfl : f.path = path := beq_iff_eq.mp named
  have listed := List.mem_of_find?_eq_some row
  refine (k.rowsApart.rowPath listed whole fun h handed _ => free h handed).trans ?_
  rw [Ne, traced.nothing, not_or, Bool.not_eq_true]

end DesiredState
