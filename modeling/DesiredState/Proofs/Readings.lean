import DesiredState.Proofs.BagAgreement
import DesiredState.Proofs.FieldDeltas
import DesiredState.Proofs.Lookup
import Mathlib.Data.Multiset.Defs

/-!
Readings of renderings. A reading keeps of a value what its comparison can see: unset and zero read alike, and so
do bags in any order. Renderings agree exactly when they read alike, and the paths that differ depend on the two
readings only. -/
namespace DesiredState

theorem sortedIff {α : Type} (order : α → α → Ordering) [Std.TransCmp order] [Std.LawfulEqCmp order] (xs ys : List α) :
    (xs.mergeSort fun a b => (order a b).isLE) = (ys.mergeSort fun a b => (order a b).isLE) ↔ xs.Perm ys := by
  have up (zs : List α) : (zs.mergeSort fun a b => (order a b).isLE).Pairwise fun a b => (order a b).isLE = true := by
    refine List.pairwise_mergeSort (fun a b c => Std.TransCmp.isLE_trans) (fun a b => ?_) zs
    rw [Bool.or_eq_true, ← Std.OrientedCmp.isGE_iff_isLE (a := a)]
    cases order a b <;> simp
  constructor
  · intro same
    exact (List.mergeSort_perm xs _).symm.trans (same ▸ List.mergeSort_perm ys _)
  · intro perm
    have sorted := (List.mergeSort_perm xs fun a b => (order a b).isLE).trans
      (perm.trans (List.mergeSort_perm ys fun a b => (order a b).isLE).symm)
    refine sorted.eq_of_pairwise ?_ (up xs) (up ys)
    intro a b _ _ below above
    exact Std.LawfulEqCmp.eq_of_compare (Std.OrientedCmp.isLE_antisymm below above)

theorem filterEqIff {α : Type} [DecidableEq α] {blank : α} {o p : Option α} :
    (o.filter fun v => v != blank) = (p.filter fun v => v != blank) ↔ o.getD blank = p.getD blank := by
  have seen (o : Option α) : (o.filter fun v => v != blank).getD blank = o.getD blank := by
    cases o with
    | none => rfl
    | some v => by_cases empty : v = blank <;> simp [Option.filter, empty]
  have read (o : Option α) :
      (o.filter fun v => v != blank) = if o.getD blank = blank then none else some (o.getD blank) := by
    cases o with
    | none => simp
    | some v => by_cases empty : v = blank <;> simp [Option.filter, empty]
  constructor
  · intro same
    rw [← seen o, same, seen]
  · intro same
    rw [read o, read p, same]

namespace Json

theorem lookupMissing {ms : List (String × Json)} {k : String} (missing : k ∉ names ms) : ms.lookup k = none := by
  rw [List.lookup_eq_none_iff]
  intro m inside
  rw [bne_iff_ne]
  rintro rfl
  exact missing (List.mem_map_of_mem inside)

theorem memberMissing {ms : List (String × Json)} {k : String} (missing : k ∉ names ms) : member ms k = .null :=
  congrArg (fun v => v.getD .null) (lookupMissing missing)

theorem agreeNames {a b : Json} {l r : List (String × Json)} (left : a.members? = some l)
    (right : b.members? = some r) :
    agree a b = true ↔ ∀ k, agree (member l k) (member r k) = true := by
  rw [agreeMembers left right, List.all_eq_true]
  constructor
  · intro named k
    by_cases inside : k ∈ names l ++ names r
    · exact named k inside
    · obtain ⟨notLeft, notRight⟩ := not_or.mp (mt List.mem_append.mpr inside)
      rw [memberMissing notLeft, memberMissing notRight]
      exact agreeZeros rfl
  · intro all k _
    exact all k

theorem agreeItems {a b : Json} {xs ys : List Json} (left : a.items? = some xs) (right : b.items? = some ys) :
    agree a b = (xs.length == ys.length && (xs.zip ys).all fun p => agree p.1 p.2) := by
  cases a <;> cases left <;> cases b <;> cases right
  · exact agreeZeros rfl
  · rw [agreeScalar rfl rfl]
    cases ys <;> rfl
  · rw [agreeScalar rfl rfl]
    cases xs <;> rfl
  · exact agreeList _ _

/- Two renderings agree exactly when they read alike. -/
def Reads {α ρ : Type} (f : α → Json) (r : α → ρ) : Prop := ∀ p q, agree (f p) (f q) = true ↔ r p = r q

section
variable {α β ρ : Type} {f : α → Json} {r : α → ρ}

theorem Reads.of (reads : Reads f r) (get : β → α) : Reads (fun b => f (get b)) fun b => r (get b) :=
  fun p q => reads (get p) (get q)

theorem readsText : Reads .text fun s => s := agreeText

theorem readsOptional {blank : α} (apart : ∀ p q, f p = f q → p = q) (zero : ∀ p, (f p).isZero = true ↔ p = blank)
    (plain : ∀ p, (f p).isObject = false ∧ (f p).isList = false) : Reads (ofOption f) fun o => o.getD blank := by
  have single (o : Option α) : (ofOption f o).isObject = false ∧ (ofOption f o).isList = false := by
    cases o with
    | none => exact ⟨rfl, rfl⟩
    | some p => exact plain p
  intro p q
  rw [agreeScalar (by rw [(single p).1, (single q).1]; rfl) (by rw [(single p).2]; rfl), Bool.or_eq_true,
    Bool.and_eq_true, beq_iff_eq]
  have unset : (ofOption f none).isZero = true := rfl
  have set (a : α) : (ofOption f (some a)).isZero = true ↔ a = blank := zero a
  cases p with
  | none =>
    cases q with
    | none => exact iff_of_true (.inl ⟨unset, unset⟩) rfl
    | some b =>
      rw [set]
      have foreign (same : Json.null = f b) : b = blank := (zero b).mp (same ▸ rfl)
      exact ⟨fun either => (either.elim And.right foreign).symm, fun same => .inl ⟨unset, same.symm⟩⟩
  | some a =>
    cases q with
    | none =>
      rw [set]
      have foreign (same : f a = Json.null) : a = blank := (zero a).mp (same ▸ rfl)
      exact ⟨fun either => either.elim And.left foreign, fun same => .inl ⟨same, unset⟩⟩
    | some b =>
      rw [set, set]
      exact ⟨fun either => either.elim (fun both => both.1.trans both.2.symm) (apart a b),
        fun same => .inr (congrArg f same)⟩

theorem readsOptionalText : Reads (ofOption .text) fun o => o.getD "" :=
  readsOptional (fun p q same => by injection same) (fun p => by simp [isZero]) fun p => ⟨rfl, rfl⟩

theorem readsOptionalBool : Reads (ofOption .bool) fun o => o.getD false :=
  readsOptional (fun p q same => by injection same) (fun p => by simp [isZero]) fun p => ⟨rfl, rfl⟩

theorem readsOptionalInt64 : Reads (ofOption Codec.int64.write) fun o => o.getD 0 := by
  refine readsOptional (fun p q same => ?_) (fun p => ?_) fun p => ⟨rfl, rfl⟩
  · injection same with number
    exact Int64.toInt_inj.mp number
  · change (p.toInt == 0) = true ↔ _
    rw [beq_iff_eq, ← Int64.toInt_inj]
    rfl

variable {items : β → List α} {g : β → Json}

theorem readsItems (shown : ∀ p, (g p).items? = some ((items p).map f)) (reads : Reads f r) :
    Reads g fun p => (items p).map r := by
  intro p q
  change _ ↔ (items p).map r = (items q).map r
  rw [agreeItems (shown p) (shown q)]
  generalize items p = xs, items q = ys
  rw [Bool.and_eq_true, beq_iff_eq, List.length_map, List.length_map]
  induction xs generalizing ys with
  | nil => cases ys <;> simp
  | cons x xs ih =>
    cases ys with
    | nil => simp
    | cons y ys =>
      simp only [List.map_cons, List.zip_cons_cons, List.all_cons, Bool.and_eq_true, List.cons.injEq,
        List.length_cons, Nat.add_right_cancel_iff, reads x y, ← ih ys]
      exact and_left_comm

theorem bagsRead (shown : ∀ p, (g p).items? = some ((items p).map f)) (reads : Reads f r) (p q : β) :
    agreeAsBags (g p) (g q) = true ↔ ((items p).map r : Multiset ρ) = (items q).map r := by
  unfold agreeAsBags
  rw [shown p, shown q, Multiset.coe_eq_coe]
  exact matchItemsImages reads (items p) (items q)

end

theorem zeroOptional {α : Type} {f : α → Json} {blank : α} (zero : ∀ p, (f p).isZero = true ↔ p = blank)
    (o : Option α) : (ofOption f o).isZero = true ↔ o.getD blank = blank := by
  cases o with
  | none => exact iff_of_true rfl rfl
  | some p => exact zero p

theorem zeroOptionalText (o : Option String) : (ofOption .text o).isZero = true ↔ o.getD "" = "" :=
  zeroOptional (fun p => by simp [isZero]) o

theorem zeroOptionalInt64 (o : Option Int64) : (ofOption Codec.int64.write o).isZero = true ↔ o.getD 0 = 0 := by
  refine zeroOptional (fun p => ?_) o
  change (p.toInt == 0) = true ↔ _
  rw [beq_iff_eq, ← Int64.toInt_inj]
  rfl

theorem zeroList {α : Type} (c : Codec α) (xs : List α) : (c.list.write xs).isZero = true ↔ xs = [] := by
  cases xs <;> simp [Codec.list, isZero]

theorem zeroOptionalRecord {σ : Type} {rec : Record σ σ} {blank : σ} (unset : ∀ a, rec.document a = [] ↔ a = blank)
    (o : Option σ) : (ofOption rec.codec.write o).isZero = true ↔ o.getD blank = blank := by
  refine zeroOptional (fun a => ?_) o
  exact List.isEmpty_iff.trans (unset a)

end Json

def Member.value {σ : Type} (m : Member σ) (a : σ) : Json := (m.write a).getD .null

namespace Record
variable {σ ρ τ : Type}

theorem writtenNames {ms : List (Member σ)} {k : String} {a : σ}
    (written : k ∈ Json.names (ms.filterMap fun m => (m.write a).map fun v => (m.name, v))) :
    k ∈ ms.map Member.name := by
  obtain ⟨e, entry, rfl⟩ := List.mem_map.mp written
  obtain ⟨m, row, shown⟩ := List.mem_filterMap.mp entry
  obtain ⟨v, _, rfl⟩ := Option.map_eq_some_iff.mp shown
  exact List.mem_map_of_mem row

theorem memberOther {ms : List (Member σ)} {k : String} (other : k ∉ ms.map Member.name) (a : σ) :
    Json.member (ms.filterMap fun m => (m.write a).map fun v => (m.name, v)) k = .null :=
  Json.memberMissing (mt writtenNames other)

theorem lookupWritten {ms : List (Member σ)} (distinct : (ms.map Member.name).Nodup) {m : Member σ} (row : m ∈ ms)
    (a : σ) :
    (ms.filterMap fun m => (m.write a).map fun v => (m.name, v)).lookup m.name = m.write a := by
  induction ms with
  | nil => cases row
  | cons n ms ih =>
    obtain ⟨fresh, rest⟩ := List.nodup_cons.mp distinct
    rw [List.filterMap_cons]
    rcases List.mem_cons.mp row with rfl | later
    · cases written : m.write a with
      | none => exact Json.lookupMissing (mt writtenNames fresh)
      | some v => exact List.lookup_cons_self
    · cases written : n.write a with
      | none => exact ih rest later
      | some v =>
        have other : m.name ≠ n.name := fun same => fresh (same ▸ List.mem_map_of_mem later)
        rw [Option.map_some, List.lookup_cons, beq_false_of_ne other]
        exact ih rest later

theorem memberValue {ms : List (Member σ)} (distinct : (ms.map Member.name).Nodup) {m : Member σ} (row : m ∈ ms)
    (a : σ) :
    Json.member (ms.filterMap fun m => (m.write a).map fun v => (m.name, v)) m.name = m.value a :=
  congrArg (fun v => v.getD .null) (lookupWritten distinct row a)

theorem everyMember {rec : Record σ τ} (distinct : rec.names.Nodup) (same : String → Json → Json → Prop)
    (absent : ∀ k, same k .null .null) (a b : σ) :
    (∀ k, same k (Json.member (rec.document a) k) (Json.member (rec.document b) k)) ↔
      ∀ m ∈ rec.members, same m.name (m.value a) (m.value b) := by
  unfold document
  constructor
  · intro all m row
    have here := all m.name
    rwa [memberValue distinct row, memberValue distinct row] at here
  · intro rows k
    by_cases named : k ∈ rec.members.map Member.name
    · obtain ⟨m, row, rfl⟩ := List.mem_map.mp named
      rw [memberValue distinct row, memberValue distinct row]
      exact rows m row
    · rw [memberOther named, memberOther named]
      exact absent k

def Reads (ms : List (Member σ)) (r : σ → ρ) : Prop :=
  ∀ p q, (∀ m ∈ ms, Json.agree (m.value p) (m.value q) = true) ↔ r p = r q

variable {r : σ → ρ} {s : σ → τ} {m : Member σ} {ms : List (Member σ)}

theorem readsOne (reads : Json.Reads m.value r) : Reads [m] r := by
  intro p q
  rw [← reads p q]
  simp

theorem readsMore (reads : Json.Reads m.value r) (rest : Reads ms s) : Reads (m :: ms) fun a => (r a, s a) := by
  intro p q
  rw [List.forall_mem_cons, reads p q, rest p q, Prod.mk.injEq]

theorem readsRecord {rec : Record σ σ} (distinct : rec.names.Nodup) (rows : Reads rec.members r) :
    Json.Reads rec.codec.write r := by
  intro p q
  rw [← rows p q, ← everyMember distinct (fun _ v w => Json.agree v w = true) (fun _ => Json.agreeZeros rfl) p q]
  exact Json.agreeNames rfl rfl

theorem shownMembers {rec : Record σ σ} {blank : σ} (empty : rec.document blank = []) (o : Option σ) :
    (Json.ofOption rec.codec.write o).members? = some (rec.document (o.getD blank)) := by
  cases o with
  | none => exact congrArg some empty.symm
  | some a => rfl

theorem readsOptionalRecord {rec : Record σ σ} {blank : σ} (empty : rec.document blank = [])
    (distinct : rec.names.Nodup) (rows : Reads rec.members r) :
    Json.Reads (Json.ofOption rec.codec.write) fun o => r (o.getD blank) := by
  intro p q
  rw [← rows _ _, ← everyMember distinct (fun _ v w => Json.agree v w = true) (fun _ => Json.agreeZeros rfl) _ _]
  exact Json.agreeNames (shownMembers empty p) (shownMembers empty q)

theorem readsRequiredText (name : String) (get : σ → String) :
    Json.Reads (Member.value ⟨name, fun a => some (Codec.text.write (get a))⟩) get :=
  Json.readsText.of get

theorem optionalValue (c : Codec τ) (name : String) (get : σ → Option τ) (a : σ) :
    Member.value ⟨name, fun a => (get a).map c.write⟩ a = Json.ofOption c.write (get a) := by
  unfold Member.value
  dsimp only
  cases get a <;> rfl

theorem readsOptionalMember {c : Codec τ} {s : Option τ → ρ} (reads : Json.Reads (Json.ofOption c.write) s)
    (name : String) (get : σ → Option τ) :
    Json.Reads (Member.value ⟨name, fun a => (get a).map c.write⟩) fun a => s (get a) := by
  intro p q
  rw [optionalValue, optionalValue]
  exact reads (get p) (get q)

theorem readsOptionalTextMember (name : String) (get : σ → Option String) :
    Json.Reads (Member.value ⟨name, fun a => (get a).map Codec.text.write⟩) fun a => (get a).getD "" :=
  readsOptionalMember (c := Codec.text) Json.readsOptionalText name get

theorem readsOptionalBoolMember (name : String) (get : σ → Option Bool) :
    Json.Reads (Member.value ⟨name, fun a => (get a).map Codec.bool.write⟩) fun a => (get a).getD false :=
  readsOptionalMember (c := Codec.bool) Json.readsOptionalBool name get

theorem listedItems (c : Codec τ) (name : String) (get : σ → List τ) (a : σ) :
    (Member.value ⟨name, fun a => if (get a).isEmpty then none else some (c.list.write (get a))⟩ a).items? =
      some ((get a).map c.write) := by
  unfold Member.value
  dsimp only
  cases get a <;> rfl

theorem readsListedTexts (name : String) (get : σ → List String) : Json.Reads
    (Member.value ⟨name, fun a => if (get a).isEmpty then none else some (Codec.text.list.write (get a))⟩) get := by
  have reads := Json.readsItems (listedItems Codec.text name get) Json.readsText
  simpa only [List.map_id'] using reads

end Record

namespace SortedMap

def filled (m : StringMap) : StringMap := ⟨m.entries.filter fun e => e.2 != "", m.ascending.filter _⟩

theorem getFilled (m : StringMap) (k : String) : (filled m).get? k = (m.get? k).filter fun v => v != "" := by
  apply Option.ext
  intro v
  rw [getSomeIff, filled, List.mem_filter, ← getSomeIff, Option.filter_eq_some_iff]

theorem filledEqIff {m n : StringMap} : filled m = filled n ↔ ∀ k, (m.get? k).getD "" = (n.get? k).getD "" := by
  constructor
  · intro same k
    rw [← filterEqIff, ← getFilled, same, getFilled]
  · intro same
    refine extLookup fun k => ?_
    rw [getFilled, getFilled, filterEqIff]
    exact same k

theorem textMember (m : StringMap) (k : String) :
    Json.member (m.entries.map fun e => (e.1, .text e.2)) k = Json.ofOption .text (m.get? k) := by
  unfold Json.member get?
  generalize m.entries = es
  induction es with
  | nil => rfl
  | cons e es ih =>
    rw [List.map_cons, List.lookup_cons, List.find?_cons]
    by_cases same : k = e.1
    · rw [beq_iff_eq.mpr same, sameKeyIff.mpr same]
      rfl
    · rw [beq_false_of_ne same, Bool.eq_false_iff.mpr (mt sameKeyIff.mp same)]
      exact ih

theorem shownTexts (o : Option StringMap) : (Json.ofOption Codec.strings.write o).members? =
    some ((o.getD .empty).entries.map fun e => (e.1, .text e.2)) := by
  cases o <;> rfl

theorem readsTexts : Json.Reads (Json.ofOption Codec.strings.write) fun o => filled (o.getD .empty) := by
  intro p q
  rw [filledEqIff, Json.agreeNames (shownTexts p) (shownTexts q)]
  refine forall_congr' fun k => ?_
  rw [textMember, textMember]
  exact Json.readsOptionalText _ _

/- Compared as maps, an entry with an empty text counts as well. -/
theorem sameTexts (p q : Option StringMap) :
    Json.agreeAsMaps (Json.ofOption Codec.strings.write p) (Json.ofOption Codec.strings.write q) = true ↔
      p.getD .empty = q.getD .empty := by
  have named (m : StringMap) : Json.names (m.entries.map fun e => (e.1, Json.text e.2)) = m.keys := by
    unfold Json.names keys
    rw [List.map_map]
    rfl
  unfold Json.agreeAsMaps
  rw [shownTexts p, shownTexts q]
  generalize p.getD .empty = m, q.getD .empty = n
  simp only [named, Bool.and_eq_true, List.all_eq_true, List.contains_iff_mem, textMember]
  constructor
  · rintro ⟨⟨left, right⟩, values⟩
    refine extLookup fun k => ?_
    by_cases here : k ∈ m.keys
    · obtain ⟨v, found⟩ := Option.isSome_iff_exists.mp (containsIff.mpr here)
      obtain ⟨w, other⟩ := Option.isSome_iff_exists.mp (containsIff.mpr (left k here))
      have same := values k here
      rw [found, other] at same ⊢
      exact congrArg some ((Json.agreeText v w).mp same)
    · rw [getNoneIff.mpr here, getNoneIff.mpr (mt (right k) here)]
  · rintro rfl
    exact ⟨⟨fun k here => here, fun k here => here⟩, fun k _ => (Json.readsOptionalText _ _).mpr rfl⟩

end SortedMap
end DesiredState
