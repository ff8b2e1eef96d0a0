import DesiredState.Proofs.Places

/-!
Values that are carried. A row of the table shows a member of the declaration, and a payload has a member for it at a
place of its own; then the payload holds, under the names of every difference that the row finds, the declared value. -/
namespace DesiredState

namespace Json

theorem slotValue {slots : List (String × Option Json)} (distinct : (slots.map Prod.fst).Nodup) {k : String}
    {v : Option Json} (listed : (k, v) ∈ slots) : (ofSlots slots).descend [k] = v.getD .null := by
  let row (s : String × Option Json) : Member Unit := ⟨s.1, fun _ => s.2⟩
  have names : ((slots.map row).map Member.name).Nodup := by rwa [List.map_map]
  have value := Record.memberValue names (List.mem_map_of_mem listed) ()
  rw [List.filterMap_map] at value
  exact value

theorem slotSome {slots : List (String × Option Json)} (distinct : (slots.map Prod.fst).Nodup) {k : String} {v : Json}
    (slot : slots.find? (fun s => s.1 == k) = some (k, some v)) : (ofSlots slots).descend [k] = v :=
  slotValue distinct (List.mem_of_find?_eq_some slot)

theorem slotOption {τ : Type} {slots : List (String × Option Json)} (distinct : (slots.map Prod.fst).Nodup) {k : String}
    {write : τ → Json} {o : Option τ} (slot : slots.find? (fun s => s.1 == k) = some (k, o.map write)) :
    (ofSlots slots).descend [k] = ofOption write o := by
  rw [slotValue distinct (List.mem_of_find?_eq_some slot)]
  cases o <;> rfl

theorem slotsGiven {slots : List (String × Option Json)} {P : String × Json → Prop}
    (given : ∀ s ∈ slots, ∀ v, s.2 = some v → P (s.1, v)) :
    ∀ e ∈ slots.filterMap fun s => s.2.map fun v => (s.1, v), P e := by
  intro e inside
  obtain ⟨s, slot, shown⟩ := List.mem_filterMap.mp inside
  obtain ⟨v, value, rfl⟩ := Option.map_eq_some_iff.mp shown
  exact given s slot v value

theorem setOption {τ : Type} {write : τ → Json} {o : Option τ} (set : (ofOption write o).isZero = false) :
    ∃ v, o = some v := by
  cases o with
  | none => cases set
  | some v => exact ⟨v, rfl⟩

theorem textShown (s : String) : Json.text s ≠ .null := nofun

theorem boolShown (b : Bool) : Json.bool b ≠ .null := nofun

theorem listShown (xs : List Json) : Json.list xs ≠ .null := nofun

theorem objectShown (ms : List (String × Json)) : Json.object ms ≠ .null := nofun

theorem optionSet {τ : Type} (write : τ → Json) (shown : ∀ v, write v ≠ .null) (o : Option τ) :
    ofOption write o ≠ .null ↔ o ≠ none := by
  cases o with
  | none => exact iff_of_false (fun set => set rfl) fun set => set rfl
  | some v => exact iff_of_true (shown v) nofun

end Json

abbrev Member.optional {σ τ : Type} (name : String) (write : τ → Json) (get : σ → Option τ) : Member σ :=
  ⟨name, fun s => (get s).map write⟩

abbrev Member.listed {σ τ : Type} (name : String) (c : Codec τ) (get : σ → List τ) : Member σ :=
  ⟨name, fun s => if (get s).isEmpty then none else some (c.list.write (get s))⟩

namespace Record
variable {σ τ : Type} {name : String} {s : σ}

theorem optionalAt {rec : Record σ σ} (distinct : rec.names.Nodup) {write : τ → Json} {get : σ → Option τ}
    (member : rec.members.find? (fun m => m.name == name) = some (.optional name write get)) (s : σ) :
    (rec.codec.write s).descend [name] = .ofOption write (get s) := by
  refine (memberValue distinct (List.mem_of_find?_eq_some member) s).trans ?_
  unfold Member.value
  dsimp only
  cases get s <;> rfl

theorem listedValue (name : String) (c : Codec τ) (get : σ → List τ) (s : σ) :
    (Member.listed name c get).value s = if (get s).isEmpty then .null else c.list.write (get s) := by
  unfold Member.value
  dsimp only
  split <;> rfl

theorem listedSet {c : Codec τ} {get : σ → List τ} (set : ((Member.listed name c get).value s).isZero = false) :
    (Member.listed name c get).value s = c.list.write (get s) := by
  rw [listedValue] at set ⊢
  split at set
  · cases set
  · exact if_neg ‹_›

theorem listedPlain (name : String) (c : Codec τ) (get : σ → List τ) (s : σ) :
    ((Member.listed name c get).value s).isObject = false := by
  rw [listedValue]
  split <;> rfl

theorem optionalPlain (name : String) {write : τ → Json} (plain : ∀ v, (write v).isObject = false)
    (get : σ → Option τ) (s : σ) : ((Member.optional name write get).value s).isObject = false := by
  unfold Member.value
  dsimp only
  cases get s with
  | none => rfl
  | some v => exact plain v

end Record

namespace Binding
variable {σ υ : Type} (b : Binding σ υ) (place : List String → List String)

/- The declaration and the payload hold the desired value of a difference, the payload at a place of its own. -/
def Carries (u : υ) (s : σ) (x : Difference) : Prop :=
  ∃ names, x.path = ".".intercalate names ∧ (b.codec.write s).descend names = x.desired ∧
    (b.renderUpdate u).descend (place names) = x.desired

def CarriesUnder (plan : PlanInput σ → GroupPlan υ) (top : String) : Prop :=
  ∀ desired observed calls, plan (b.input desired observed) = .calls calls →
    ∀ x ∈ (b.input desired observed).delta.differences, pathUnder x.path top = true → x.desired.isZero = false →
      ∃ u, calls = [u] ∧ b.Carries place u desired.spec x

/- The declaration is written by this record, and no row of the table lies under another. -/
structure Shown (rec : Record σ σ) : Prop where
  written : b.codec = rec.codec
  distinct : rec.names.Nodup
  apart : b.table.Apart

variable {b place} {plan : PlanInput σ → GroupPlan υ} {rec : Record σ σ} (shown : b.Shown rec)
include shown

namespace Shown
variable {τ : Type} {name : String} {rule : Rule} {explicit : Bool}

theorem optionalAt {write : τ → Json} {get : σ → Option τ}
    (member : rec.members.find? (fun m => m.name == name) = some (.optional name write get)) (s : σ) :
    (b.codec.write s).descend [name] = .ofOption write (get s) := by
  rw [shown.written]
  exact Record.optionalAt shown.distinct member s

theorem row {f : Field σ} (row : f ∈ b.table.fields) {names : List String} (some' : names ≠ [])
    (path : f.path = ".".intercalate names) (deeper : ∀ more, place (names ++ more) = place names ++ more)
    (declared : ∀ s, (f.render s).isZero = false → (b.codec.write s).descend names = f.render s)
    (sent : ∀ input calls, plan input = .calls calls → input.delta.differsAt f.path = true →
      (f.render input.desired).isZero = false →
        ∃ u, calls = [u] ∧ (b.renderUpdate u).descend (place names) = f.render input.desired) :
    b.CarriesUnder place plan f.path := by
  intro desired observed calls planned x found under set
  have inside := shown.apart.rowAbove row (FieldTable.keptByHandovers found) under
  obtain ⟨more, located, _⟩ := f.located inside
  rw [located.desired] at set
  have whole : (f.render desired.spec).isZero = false :=
    Bool.eq_false_iff.mpr fun zero => Bool.eq_false_iff.mp set (Json.descendZero zero more)
  have differs : (b.input desired observed).delta.differsAt f.path = true :=
    Delta.differsAtIff.mpr ⟨x.path, List.mem_map_of_mem found, under⟩
  obtain ⟨u, rfl, value⟩ := sent _ _ planned differs whole
  refine ⟨u, rfl, names ++ more, ?_, ?_, ?_⟩
  · rw [located.path, path, joinBelow some']
  · rw [Json.descendAppend, declared desired.spec whole, located.desired]
  · rw [deeper, Json.descendAppend, value, located.desired]
    rfl

theorem optional {write : τ → Json} {get : σ → Option τ}
    (row : b.table.fields.find? (fun f => f.path == name) =
      some ⟨name, rule, fun s => .ofOption write (get s), explicit⟩)
    (member : rec.members.find? (fun m => m.name == name) = some (.optional name write get))
    (deeper : ∀ more, place ([name] ++ more) = place [name] ++ more)
    (sent : ∀ input calls, plan input = .calls calls → input.delta.differsAt name = true →
      ∀ v, get input.desired = some v →
        ∃ u, calls = [u] ∧ (b.renderUpdate u).descend (place [name]) = .ofOption write (get input.desired)) :
    b.CarriesUnder place plan name := by
  refine shown.row (List.mem_of_find?_eq_some row) (List.cons_ne_nil name []) String.intercalate_singleton.symm deeper
    (fun s _ => shown.optionalAt member s) fun input calls planned differs set => ?_
  obtain ⟨v, given⟩ := Json.setOption set
  exact sent input calls planned differs v given

theorem listed {c : Codec τ} {get : σ → List τ}
    (row : b.table.fields.find? (fun f => f.path == name) =
      some ⟨name, rule, fun s => c.list.write (get s), explicit⟩)
    (member : rec.members.find? (fun m => m.name == name) = some (.listed name c get))
    (deeper : ∀ more, place ([name] ++ more) = place [name] ++ more)
    (sent : ∀ input calls, plan input = .calls calls →
      ∃ u, calls = [u] ∧ (b.renderUpdate u).descend (place [name]) = c.list.write (get input.desired)) :
    b.CarriesUnder place plan name := by
  refine shown.row (List.mem_of_find?_eq_some row) (List.cons_ne_nil name []) String.intercalate_singleton.symm deeper
    (fun s set => ?_) fun input calls planned _ _ => sent input calls planned
  have filled : ¬ (get s).isEmpty = true := fun none' =>
    Bool.eq_false_iff.mp set ((Json.zeroList c _).mpr (List.isEmpty_iff.mp none'))
  rw [shown.written]
  have written := Record.memberValue shown.distinct (List.mem_of_find?_eq_some member) s
  exact written.trans ((Record.listedValue name c get s).trans (if_neg filled))

theorem setting (name : String) {part : Record τ τ} {blank : τ} {get : σ → Option τ}
    (row : b.table.fields.find? (fun f => f.path == name) =
      some ⟨name, .nested, fun s => .ofOption part.codec.write (get s), explicit⟩)
    (member : rec.members.find? (fun m => m.name == name) = some (.optional name part.codec.write get))
    (empty : part.document blank = []) (distinct : part.names.Nodup)
    (flat : ∀ m ∈ part.members, ∀ a, (m.value a).isObject = false) {top : String}
    (below : pathUnder top name = true)
    (sent : ∀ input calls, plan input = .calls calls → ∀ m ∈ part.members, pathUnder s!"{name}.{m.name}" top = true →
      b.table.keeps input.annotations s!"{name}.{m.name}" → (m.value ((get input.desired).getD blank)).isZero = false →
        ∃ u, calls = [u] ∧
          (b.renderUpdate u).descend (place [name, m.name]) = m.value ((get input.desired).getD blank)) :
    b.CarriesUnder place plan top := by
  intro desired observed calls planned x found under set
  have inside := shown.apart.rowAbove (List.mem_of_find?_eq_some row) (FieldTable.keptByHandovers found)
    (underTrans under below)
  have walked := Field.ruleOfDifference inside
  have kept := (FieldTable.memPathsComputed.mp (List.mem_map_of_mem found)).2
  obtain ⟨m, listed, rfl⟩ := Rule.walkRecord empty distinct flat walked
  obtain ⟨u, rfl, value⟩ := sent _ _ planned m listed under kept set
  refine ⟨u, rfl, [name, m.name], joinMember name m.name, ?_, value⟩
  rw [← List.singleton_append, Json.descendAppend, shown.optionalAt member,
    Json.descendMember (Record.shownMembers empty (get desired.spec))]
  exact Record.memberValue distinct listed _

end Shown
end Binding
end DesiredState
