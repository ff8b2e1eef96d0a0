import DesiredState.Proofs.Readings

/-!
What a walk over two objects finds. Below every name it looks once, in ascending order; a place that neither side
has gives nothing, so the differences depend on the values under the names only. -/
namespace DesiredState

def Difference.swap (x : Difference) : Difference := ⟨x.path, x.observed, x.desired⟩

namespace Rule
open Json

def paths (ds : List Difference) : List String := ds.map Difference.path

def below (path : String) (d o : Json) : List Difference :=
  if d.isObject || o.isObject then walk path d o
  else if d.isList || o.isList then leaf (!agreeAsBags d o) path d o
  else leaf (!agree d o) path d o

theorem belowNothing (path : String) : below path .null .null = [] := by
  have same : agree .null .null = true := agreeZeros rfl
  change leaf (!agree .null .null) path .null .null = []
  rw [same]
  rfl

theorem leafNothing {same : Bool} {path : String} {d o : Json} : leaf (!same) path d o = [] ↔ same = true := by
  cases same <;> simp [leaf]

theorem pathsLeaf {same : Bool} {path : String} {d o : Json} :
    paths (leaf (!same) path d o) = if same then [] else [path] := by
  cases same <;> rfl

theorem leafSwapped {same same' : Bool} (alike : same' = same) (path : String) (d o : Json) :
    leaf (!same') path o d = (leaf (!same) path d o).map Difference.swap := by
  subst alike
  cases same' <;> rfl

theorem memNameUnionIff {k : String} {l r : List (String × Json)} : k ∈ nameUnion l r ↔ k ∈ names l ++ names r := by
  unfold nameUnion
  rw [← SortedMap.containsIff, SortedMap.contains, SortedMap.getOfList, Option.isSome_map, List.find?_isSome]
  simp

theorem ascendingUnion (l r : List (String × Json)) : (nameUnion l r).Pairwise fun a b => compare a b = .lt :=
  List.pairwise_map.mpr (SortedMap.ascending _)

theorem flatMapNonempty {γ : Type} (g : String → List γ) (ks : List String) :
    (ks.filter fun k => !(g k).isEmpty).flatMap g = ks.flatMap g := by
  induction ks with
  | nil => rfl
  | cons k ks ih =>
    rw [List.filter_cons, List.flatMap_cons]
    cases here : g k with
    | nil => simpa [here] using ih
    | cons x xs => simp [here, ih]

theorem flatMapInTurn {α β γ : Type} {g : α → List γ} {h : β → List γ} {xs : List α} {ys : List β}
    (each : List.Forall₂ (fun x y => g x = h y) xs ys) : xs.flatMap g = ys.flatMap h := by
  induction each with
  | nil => rfl
  | cons here _ ih => rw [List.flatMap_cons, List.flatMap_cons, here, ih]

theorem flatMapAscending {γ : Type} {g : String → List γ} {ks ls : List String}
    (left : ks.Pairwise fun a b => compare a b = .lt) (right : ls.Pairwise fun a b => compare a b = .lt)
    (same : ∀ k, g k ≠ [] → (k ∈ ks ↔ k ∈ ls)) : ks.flatMap g = ls.flatMap g := by
  -- Names that give nothing are left out, and then the two lists are one.
  have members (k : String) :
      k ∈ (ks.filter fun k => !(g k).isEmpty) ↔ k ∈ (ls.filter fun k => !(g k).isEmpty) := by
    rw [List.mem_filter, List.mem_filter]
    refine and_congr_left fun some' => same k ?_
    intro none'
    simp [none'] at some'
  have equal := SortedMap.sameOrder (fun _ _ => Std.OrientedCmp.not_lt_of_lt) (left.filter _) (right.filter _) members
  rw [← flatMapNonempty g ks, equal, flatMapNonempty]

theorem nameUnionComm (l r : List (String × Json)) : nameUnion r l = nameUnion l r := by
  refine SortedMap.sameOrder (fun _ _ => Std.OrientedCmp.not_lt_of_lt) (ascendingUnion r l) (ascendingUnion l r) ?_
  intro k
  rw [memNameUnionIff, memNameUnionIff, List.mem_append, List.mem_append, or_comm]

section
variable {d o d' o' : Json} {l r l' r' : List (String × Json)}
  (left : d.members? = some l) (right : o.members? = some r)
include left right

theorem walkNames (path : String) : walk path d o =
    (nameUnion l r).flatMap fun k => below s!"{path}.{k}" (member l k) (member r k) :=
  walkMembers path left right

omit left right in
theorem belowOther {k : String} (path : String) (other : k ∉ nameUnion l r) :
    below path (member l k) (member r k) = [] := by
  obtain ⟨notLeft, notRight⟩ := not_or.mp (mt (fun either => memNameUnionIff.mpr (List.mem_append.mpr either)) other)
  rw [memberMissing notLeft, memberMissing notRight, belowNothing]

omit left right in
theorem belowNamed {k path : String} (found : below path (member l k) (member r k) ≠ []) : k ∈ nameUnion l r :=
  Classical.not_not.mp fun other => found (belowOther path other)

theorem memWalk {path : String} {x : Difference} :
    x ∈ walk path d o ↔ ∃ k, x ∈ below s!"{path}.{k}" (member l k) (member r k) := by
  rw [walkNames left right, List.mem_flatMap]
  exact exists_congr fun k => and_iff_right_of_imp fun found => belowNamed (List.ne_nil_of_mem found)

theorem walkNothing (path : String) :
    walk path d o = [] ↔ ∀ k, below s!"{path}.{k}" (member l k) (member r k) = [] := by
  rw [walkNames left right, List.flatMap_eq_nil_iff]
  constructor
  · intro named k
    by_cases inside : k ∈ nameUnion l r
    · exact named k inside
    · exact belowOther _ inside
  · intro all k _
    exact all k

theorem walkPaths (left' : d'.members? = some l') (right' : o'.members? = some r') (path : String)
    (same : ∀ k, paths (below s!"{path}.{k}" (member l k) (member r k)) =
      paths (below s!"{path}.{k}" (member l' k) (member r' k))) :
    paths (walk path d o) = paths (walk path d' o') := by
  unfold paths at same ⊢
  rw [walkNames left right, walkNames left' right', List.map_flatMap, List.map_flatMap]
  have inside {l r : List (String × Json)} {k : String}
      (found : (below s!"{path}.{k}" (member l k) (member r k)).map Difference.path ≠ []) : k ∈ nameUnion l r :=
    belowNamed (mt List.map_eq_nil_iff.mpr found)
  refine (flatMapAscending (ascendingUnion l r) (ascendingUnion l' r') ?_).trans (List.flatMap_congr fun k _ => same k)
  intro k found
  exact iff_of_true (inside found) (inside (same k ▸ found))

theorem walkSwapped (path : String) (each : ∀ k,
    below s!"{path}.{k}" (member r k) (member l k) =
      (below s!"{path}.{k}" (member l k) (member r k)).map Difference.swap) :
    walk path o d = (walk path d o).map Difference.swap := by
  rw [walkNames right left, walkNames left right, nameUnionComm, List.map_flatMap]
  exact List.flatMap_congr fun k _ => each k

theorem belowMembers (path : String) : below path d o = walk path d o := by
  unfold below
  split
  · rfl
  · -- Neither side is an object, so both are null.
    have null {c : Json} {ms : List (String × Json)} (shown : c.members? = some ms) (plain : c.isObject = false) :
        c = .null := by
      cases c <;> cases shown
      · rfl
      · cases plain
    rename_i objects
    obtain ⟨plainLeft, plainRight⟩ := Bool.or_eq_false_iff.mp (Bool.eq_false_iff.mpr objects)
    obtain rfl := null left plainLeft
    obtain rfl := null right plainRight
    rw [(walkNothing left right path).mpr fun k => ?_]
    · exact belowNothing path
    · cases left
      cases right
      exact belowNothing _

end

/- A rule traces a rendering: it finds nothing exactly when both sides read alike, where it finds something is a
matter of the readings, and from the other side it finds the same, exchanged. -/
structure Traces {α ρ : Type} (rule : String → Json → Json → List Difference) (f : α → Json) (r : α → ρ) : Prop where
  nothing : ∀ path p q, rule path (f p) (f q) = [] ↔ r p = r q
  places : ∀ path p p' q q', r p = r p' → r q = r q' → paths (rule path (f p) (f q)) = paths (rule path (f p') (f q'))
  swapped : ∀ path p q, rule path (f q) (f p) = (rule path (f p) (f q)).map Difference.swap

section
variable {α β ρ : Type} {f : α → Json} {r : α → ρ} {rule : String → Json → Json → List Difference}

theorem Traces.of (traces : Traces rule f r) (get : β → α) : Traces rule (fun b => f (get b)) fun b => r (get b) where
  nothing path p q := traces.nothing path (get p) (get q)
  places path p p' q q' := traces.places path (get p) (get p') (get q) (get q')
  swapped path p q := traces.swapped path (get p) (get q)

theorem tracesLeaf {same : Json → Json → Bool} (reads : ∀ p q, same (f p) (f q) = true ↔ r p = r q) :
    Traces (fun path d o => leaf (!same d o) path d o) f r where
  nothing path p q := leafNothing.trans (reads p q)
  places path p p' q q' left right := by
    have alike : same (f p) (f q) = same (f p') (f q') := by
      rw [Bool.eq_iff_iff, reads, reads, left, right]
    rw [pathsLeaf, pathsLeaf, alike]
  swapped path p q := by
    refine leafSwapped ?_ path (f p) (f q)
    rw [Bool.eq_iff_iff, reads, reads, eq_comm]

theorem Traces.congr {rule' : String → Json → Json → List Difference} (traces : Traces rule f r)
    (same : ∀ path p q, rule' path (f p) (f q) = rule path (f p) (f q)) : Traces rule' f r where
  nothing path p q := by rw [same]; exact traces.nothing path p q
  places path p p' q q' := by rw [same, same]; exact traces.places path p p' q q'
  swapped path p q := by rw [same, same]; exact traces.swapped path p q

theorem belowItems {d o : Json} {xs ys : List Json} (left : d.items? = some xs) (right : o.items? = some ys)
    (path : String) : below path d o = leaf (!agreeAsBags d o) path d o := by
  cases d <;> cases left <;> cases o <;> cases right
  · exact belowNothing path
  · rfl
  · rfl
  · rfl

theorem tracesItems {items : β → List α} {g : β → Json} (shown : ∀ p, (g p).items? = some ((items p).map f))
    (reads : Reads f r) : Traces below g fun p => ((items p).map r : Multiset ρ) :=
  (tracesLeaf (bagsRead shown reads)).congr fun path p q => belowItems (shown p) (shown q) path

theorem belowPlain {d o : Json} (left : d.isObject = false ∧ d.isList = false)
    (right : o.isObject = false ∧ o.isList = false) (path : String) : below path d o = leaf (!agree d o) path d o := by
  unfold below
  rw [left.1, right.1, left.2, right.2]
  rfl

theorem tracesPlain (plain : ∀ p, (f p).isObject = false ∧ (f p).isList = false) (reads : Reads f r) :
    Traces below f r := by
  exact (tracesLeaf reads).congr fun path p q => belowPlain (plain p) (plain q) path

theorem plainOptional {write : α → Json} (plain : ∀ p, (write p).isObject = false ∧ (write p).isList = false)
    (o : Option α) : (ofOption write o).isObject = false ∧ (ofOption write o).isList = false := by
  cases o with
  | none => exact ⟨rfl, rfl⟩
  | some p => exact plain p

end
end Rule

namespace Record
open Json Rule
variable {σ ρ τ : Type}

structure Traces (ms : List (Member σ)) (r : σ → ρ) : Prop where
  nothing : ∀ (path : String → String) (p q : σ),
    (∀ m ∈ ms, below (path m.name) (m.value p) (m.value q) = []) ↔ r p = r q
  places : ∀ m ∈ ms, ∀ (path : String) (p p' q q' : σ), r p = r p' → r q = r q' →
    paths (below path (m.value p) (m.value q)) = paths (below path (m.value p') (m.value q'))
  swapped : ∀ m ∈ ms, ∀ (path : String) (p q : σ),
    below path (m.value q) (m.value p) = (below path (m.value p) (m.value q)).map Difference.swap

variable {r : σ → ρ} {s : σ → τ} {m : Member σ} {ms : List (Member σ)}

theorem tracesOne (traces : Rule.Traces below m.value r) : Traces [m] r where
  nothing path p q := by simpa using traces.nothing (path m.name) p q
  places n row path p p' q q' alike alike' := by
    obtain rfl := List.mem_singleton.mp row
    exact traces.places path p p' q q' alike alike'
  swapped n row path p q := by
    obtain rfl := List.mem_singleton.mp row
    exact traces.swapped path p q

theorem tracesMore (traces : Rule.Traces below m.value r) (rest : Traces ms s) :
    Traces (m :: ms) fun a => (r a, s a) where
  nothing path p q := by
    rw [List.forall_mem_cons, traces.nothing, rest.nothing, Prod.mk.injEq]
  places n row path p p' q q' alike alike' := by
    obtain ⟨first, second⟩ := Prod.mk.inj alike
    obtain ⟨first', second'⟩ := Prod.mk.inj alike'
    rcases List.mem_cons.mp row with rfl | later
    · exact traces.places path p p' q q' first first'
    · exact rest.places n later path p p' q q' second second'
  swapped n row path p q := by
    rcases List.mem_cons.mp row with rfl | later
    · exact traces.swapped path p q
    · exact rest.swapped n later path p q

section
variable {rec : Record σ σ} (distinct : rec.names.Nodup) (rows : Traces rec.members r)
include distinct rows

theorem tracesShown {g : τ → Json} {get : τ → σ} (shown : ∀ t, (g t).members? = some (rec.document (get t))) :
    Rule.Traces walk g fun t => r (get t) where
  nothing path p q := by
    rw [walkNothing (shown p) (shown q),
      everyMember distinct (fun k v w => below s!"{path}.{k}" v w = []) (fun k => belowNothing _),
      rows.nothing fun k => s!"{path}.{k}"]
  places path p p' q q' alike alike' := by
    refine walkPaths (shown p) (shown q) (shown p') (shown q') path fun k => ?_
    unfold document
    by_cases named : k ∈ rec.members.map Member.name
    · obtain ⟨m, row, rfl⟩ := List.mem_map.mp named
      simp only [memberValue distinct row]
      exact rows.places m row _ _ _ _ _ alike alike'
    · simp only [memberOther named]
  swapped path p q := by
    refine walkSwapped (shown p) (shown q) path fun k => ?_
    unfold document
    by_cases named : k ∈ rec.members.map Member.name
    · obtain ⟨m, row, rfl⟩ := List.mem_map.mp named
      simp only [memberValue distinct row]
      exact rows.swapped m row _ (get p) (get q)
    · simp only [memberOther named, belowNothing]
      rfl

theorem tracesRecord : Rule.Traces walk rec.codec.write r :=
  tracesShown distinct rows fun _ => rfl

theorem tracesOptionalRecord {blank : σ} (empty : rec.document blank = []) :
    Rule.Traces walk (ofOption rec.codec.write) fun o => r (o.getD blank) :=
  tracesShown distinct rows (shownMembers empty)

end

theorem walkInTurn {rec : Record τ τ} (blank : τ) (empty : rec.document blank = [])
    (ascending : rec.names.Pairwise fun a b => compare a b = .lt) (path : String) (a b : Option τ) :
    walk path (.ofOption rec.codec.write a) (.ofOption rec.codec.write b) =
      rec.members.flatMap fun m => below s!"{path}.{m.name}" (m.value (a.getD blank)) (m.value (b.getD blank)) := by
  have distinct : rec.names.Nodup := by
    refine ascending.imp fun {k l} less same => ?_
    have itself : compare l l = .eq := Std.ReflCmp.compare_self
    rw [same, itself] at less
    cases less
  rw [walkNames (shownMembers empty a) (shownMembers empty b)]
  have named (k : String) (found : below s!"{path}.{k}" (member (rec.document (a.getD blank)) k)
      (member (rec.document (b.getD blank)) k) ≠ []) :
      k ∈ nameUnion (rec.document (a.getD blank)) (rec.document (b.getD blank)) ↔ k ∈ rec.names := by
    have inside := memNameUnionIff.mp (belowNamed found)
    exact iff_of_true (belowNamed found) ((List.mem_append.mp inside).elim writtenNames writtenNames)
  rw [flatMapAscending (ascendingUnion _ _) ascending named, names, List.flatMap_map]
  refine List.flatMap_congr fun m row => ?_
  unfold document
  rw [memberValue distinct row, memberValue distinct row]

theorem tracesBelowRecord {rec : Record σ σ} {blank : σ} (distinct : rec.names.Nodup) (rows : Traces rec.members r)
    (empty : rec.document blank = []) : Rule.Traces below (ofOption rec.codec.write) fun o => r (o.getD blank) :=
  (tracesOptionalRecord distinct rows empty).congr fun path p q =>
    belowMembers (shownMembers empty p) (shownMembers empty q) path

theorem tracesOptionalMember {c : Codec τ} {s : Option τ → ρ} (traces : Rule.Traces below (ofOption c.write) s)
    (name : String) (get : σ → Option τ) :
    Rule.Traces below (Member.value ⟨name, fun a => (get a).map c.write⟩) fun a => s (get a) := by
  have shown := funext (optionalValue c name get)
  rw [shown]
  exact traces.of get

theorem tracesRequiredText (name : String) (get : σ → String) :
    Rule.Traces below (Member.value ⟨name, fun a => some (Codec.text.write (get a))⟩) get :=
  (tracesPlain (fun _ => ⟨rfl, rfl⟩) readsText).of get

theorem tracesOptionalText (name : String) (get : σ → Option String) :
    Rule.Traces below (Member.value ⟨name, fun a => (get a).map Codec.text.write⟩) fun a => (get a).getD "" :=
  tracesOptionalMember (c := Codec.text) (tracesPlain (plainOptional fun _ => ⟨rfl, rfl⟩) readsOptionalText) name get

theorem tracesOptionalBool (name : String) (get : σ → Option Bool) :
    Rule.Traces below (Member.value ⟨name, fun a => (get a).map Codec.bool.write⟩) fun a => (get a).getD false :=
  tracesOptionalMember (c := Codec.bool) (tracesPlain (plainOptional fun _ => ⟨rfl, rfl⟩) readsOptionalBool) name get

theorem tracesOptionalInt64 (name : String) (get : σ → Option Int64) :
    Rule.Traces below (Member.value ⟨name, fun a => (get a).map Codec.int64.write⟩) fun a => (get a).getD 0 :=
  tracesOptionalMember (c := Codec.int64) (tracesPlain (plainOptional fun _ => ⟨rfl, rfl⟩) readsOptionalInt64) name get

theorem tracesListed {c : Codec τ} {s : τ → ρ} (reads : Json.Reads c.write s) (name : String) (get : σ → List τ) :
    Rule.Traces below
      (Member.value ⟨name, fun a => if (get a).isEmpty then none else some (c.list.write (get a))⟩)
      fun a => ((get a).map s : Multiset ρ) :=
  tracesItems (listedItems c name get) reads

theorem pathsListed [DecidableEq ρ] {c : Codec τ} {s : τ → ρ} (reads : Json.Reads c.write s)
    (name : String) (get : σ → List τ) (path : String) (a b : σ) :
    let m : Member σ := ⟨name, fun a => if (get a).isEmpty then none else some (c.list.write (get a))⟩
    paths (below path (m.value a) (m.value b)) =
      if ((get a).map s : Multiset ρ) = (get b).map s then [] else [path] := by
  dsimp only
  rw [belowItems (listedItems c name get a) (listedItems c name get b), pathsLeaf]
  exact if_congr (bagsRead (listedItems c name get) reads a b) rfl rfl

theorem tracesListedTexts (name : String) (get : σ → List String) :
    Rule.Traces below
      (Member.value ⟨name, fun a => if (get a).isEmpty then none else some (Codec.text.list.write (get a))⟩)
      fun a => (get a : Multiset String) := by
  have traces := tracesListed (c := Codec.text) readsText name get
  simpa only [List.map_id'] using traces

end Record

namespace SortedMap
open Json Rule

theorem tracesTexts : Traces walk (ofOption Codec.strings.write) fun o => filled (o.getD .empty) := by
  have each (path : String) (p q : Option StringMap) (k : String) :
      below path (member ((p.getD .empty).entries.map fun e => (e.1, Json.text e.2)) k)
          (member ((q.getD .empty).entries.map fun e => (e.1, Json.text e.2)) k) =
        below path (ofOption .text ((p.getD .empty).get? k)) (ofOption .text ((q.getD .empty).get? k)) := by
    rw [textMember, textMember]
  have text := tracesPlain (plainOptional fun _ => ⟨rfl, rfl⟩) readsOptionalText
  constructor
  · intro path p q
    rw [walkNothing (shownTexts p) (shownTexts q), filledEqIff]
    refine forall_congr' fun k => ?_
    rw [each, text.nothing]
  · intro path p p' q q' alike alike'
    refine walkPaths (shownTexts p) (shownTexts q) (shownTexts p') (shownTexts q') path fun k => ?_
    rw [each, each]
    exact text.places _ _ _ _ _ (filledEqIff.mp alike k) (filledEqIff.mp alike' k)
  · intro path p q
    refine walkSwapped (shownTexts p) (shownTexts q) path fun k => ?_
    rw [each, each]
    exact text.swapped _ _ _

theorem tracesBelowTexts : Traces below (ofOption Codec.strings.write) fun o => filled (o.getD .empty) :=
  tracesTexts.congr fun path p q => belowMembers (shownTexts p) (shownTexts q) path

end SortedMap

namespace Delta

theorem pathsAddAll (δ : Delta) (ds : List Difference) : (δ.addAll ds).paths =
    (Rule.paths ds).foldl (fun ps p => if p ∈ ps then ps else ps ++ [p]) δ.paths := by
  unfold addAll Rule.paths
  induction ds generalizing δ with
  | nil => rfl
  | cons d ds ih =>
    have added : (δ.add d).paths = if d.path ∈ δ.paths then δ.paths else δ.paths ++ [d.path] := by
      have known : (δ.differences.any fun e => e.path == d.path) = true ↔ d.path ∈ δ.paths := by
        simp [paths]
      unfold add
      by_cases here : d.path ∈ δ.paths
      · rw [if_pos (known.mpr here), if_pos here]
      · rw [if_neg (mt known.mp here), if_neg here]
        simp [paths]
    rw [List.foldl_cons, ih, List.map_cons, List.foldl_cons, added]

end Delta

structure Reading (σ : Type) where
  {ρ : Type}
  read : σ → ρ

namespace Field
variable {σ : Type} {f : Field σ} {x : Reading σ}

def ignores (f : Field σ) (desired : σ) : Bool := f.explicitOnly && (f.render desired).isZero

def Traced (f : Field σ) (x : Reading σ) : Prop := Rule.Traces f.rule.differences f.render x.read

theorem tracedWhole (whole : f.rule = .whole) (reads : Json.Reads f.render x.read) : f.Traced x := by
  unfold Traced
  rw [whole]
  exact Rule.tracesLeaf reads

theorem tracedNested (nested : f.rule = .nested) (traces : Rule.Traces Rule.walk f.render x.read) : f.Traced x := by
  unfold Traced
  rw [nested]
  exact traces

theorem tracedRecord {τ ρ : Type} {rec : Record τ τ} {r : τ → ρ} {blank : τ} {path : String} {get : σ → Option τ}
    {explicitOnly : Bool} (distinct : rec.names.Nodup) (rows : Record.Traces rec.members r)
    (empty : rec.document blank = []) :
    (Field.mk path .nested (fun s => .ofOption rec.codec.write (get s)) explicitOnly).Traced
      ⟨fun s => r ((get s).getD blank)⟩ :=
  tracedNested rfl ((Record.tracesOptionalRecord distinct rows empty).of get)

theorem tracedMap (map : f.rule = .map)
    (same : ∀ p q, Json.agreeAsMaps (f.render p) (f.render q) = true ↔ x.read p = x.read q) : f.Traced x := by
  unfold Traced
  rw [map]
  exact Rule.tracesLeaf same

theorem tracedBag (bag : f.rule = .multiset) {α ρ : Type} {items : σ → List α} {g : α → Json} {r : α → ρ}
    (shown : ∀ s, (f.render s).items? = some ((items s).map g)) (reads : Json.Reads g r) :
    f.Traced ⟨fun s => ((items s).map r : Multiset ρ)⟩ := by
  unfold Traced
  rw [bag]
  exact Rule.tracesLeaf (Json.bagsRead shown reads)

theorem tracedTexts (bag : f.rule = .multiset) {items : σ → List String}
    (shown : ∀ s, (f.render s).items? = some ((items s).map Json.text)) :
    f.Traced ⟨fun s => (items s : Multiset String)⟩ := by
  have traced := tracedBag bag shown Json.readsText
  simpa only [List.map_id'] using traced

theorem Traced.nothing (traced : f.Traced x) (d o : σ) :
    f.differences d o = [] ↔ f.ignores d = true ∨ x.read d = x.read o := by
  unfold differences ignores
  dsimp only
  split
  · rename_i unset
    exact iff_of_true rfl (.inl unset)
  · rename_i set
    rw [Rule.Traces.nothing traced]
    exact ⟨.inr, fun either => either.resolve_left set⟩

theorem Traced.places (traced : f.Traced x) {d d' o o' : σ} (set : f.ignores d = f.ignores d')
    (desired : x.read d = x.read d') (observed : x.read o = x.read o') :
    Rule.paths (f.differences d o) = Rule.paths (f.differences d' o') := by
  unfold ignores at set
  unfold differences
  dsimp only
  rw [set]
  split
  · rfl
  · exact Rule.Traces.places traced _ _ _ _ _ desired observed

theorem Traced.swapped (traced : f.Traced x) (always : f.explicitOnly = false) (d o : σ) :
    f.differences o d = (f.differences d o).map Difference.swap := by
  unfold differences
  rw [always]
  exact Rule.Traces.swapped traced _ _ _

end Field

namespace FieldTable
variable {σ : Type} {t : FieldTable σ}

theorem emptyIff {d o : σ} : (t.raw d o).isEmpty = true ↔ ∀ f ∈ t.fields, f.differences d o = [] := by
  rw [Delta.emptyIffNowhere]
  constructor
  · intro clear f row
    rw [← List.map_eq_nil_iff (f := Difference.path), List.eq_nil_iff_forall_not_mem]
    exact fun p found => clear p (memPathsRaw.mpr ⟨f, row, found⟩)
  · intro clear p found
    obtain ⟨f, row, inside⟩ := memPathsRaw.mp found
    rw [clear f row] at inside
    cases inside

section
variable {xs : List (Reading σ)} (rows : List.Forall₂ Field.Traced t.fields xs)
include rows

/- A table finds nothing exactly when every row reads alike, or is left out because nothing is asked for. -/
theorem silentIff {d o : σ} :
    (t.raw d o).isEmpty = true ↔ ∀ y ∈ t.fields.zip xs, y.1.ignores d = true ∨ y.2.read d = y.2.read o := by
  rw [emptyIff]
  generalize t.fields = fields at rows
  induction rows with
  | nil => simp
  | cons row _ ih => rw [List.forall_mem_cons, List.zip_cons_cons, List.forall_mem_cons, ih, row.nothing]

end

theorem samePaths {d d' o o' : σ}
    (same : ∀ f ∈ t.fields, Rule.paths (f.differences d o) = Rule.paths (f.differences d' o')) :
    (t.raw d o).paths = (t.raw d' o').paths := by
  unfold Rule.paths at same
  rw [rawInTurn, rawInTurn, Delta.pathsAddAll, Delta.pathsAddAll, Rule.paths, Rule.paths, List.map_flatMap,
    List.map_flatMap, List.flatMap_congr same]

theorem keepingSame (wanted : String → Bool) {d d' o o' : σ}
    (same : ∀ f ∈ t.fields, ((f.differences d o).filter fun x => wanted x.path) =
      (f.differences d' o').filter fun x => wanted x.path) :
    (t.raw d o).keeping wanted = (t.raw d' o').keeping wanted := by
  rw [keepingRaw, keepingRaw, List.flatMap_congr same]

end FieldTable
end DesiredState
