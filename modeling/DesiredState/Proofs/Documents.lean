import DesiredState.Proofs.Readings
import Mathlib.Data.List.Nodup

/-!
What may be added to a document. A form tells where records stand in a written value and which of their members may be
null. Adding a member that a record does not have, or null for a member that was left out, changes nothing that is
read, at any depth. -/
namespace DesiredState

/- A member of a record as a reader meets it: null may stand for a missing one, or not. -/
structure FormMember (φ : Type) where
  name : String
  nullable : Bool
  form : φ

inductive Form where
  | whole
  | list (item : Form)
  | record (members : List (FormMember Form))

namespace Form

def names (members : List (FormMember Form)) : List String := members.map FormMember.name

inductive Distinct : Form → Prop where
  | whole : Distinct .whole
  | list {item : Form} (inside : item.Distinct) : Distinct (.list item)
  | record {members : List (FormMember Form)} (apart : (names members).Nodup) (inside : ∀ m ∈ members, m.form.Distinct) :
      Distinct (.record members)

/- One addition to a document, somewhere in it and at any place among the members that are there. -/
inductive Adds : Form → Json → Json → Prop where
  | item {f : Form} {v w : Json} (inside : f.Adds v w) (xs ys : List Json) :
      Adds (.list f) (.list (xs ++ v :: ys)) (.list (xs ++ w :: ys))
  | value {members : List (FormMember Form)} {m : FormMember Form} (listed : m ∈ members) {v w : Json}
      (inside : m.form.Adds v w) (ms ns : List (String × Json)) :
      Adds (.record members) (.object (ms ++ (m.name, v) :: ns)) (.object (ms ++ (m.name, w) :: ns))
  | unknown {members : List (FormMember Form)} {name : String} (unlisted : name ∉ names members) (v : Json)
      (ms ns : List (String × Json)) :
      Adds (.record members) (.object (ms ++ ns)) (.object (ms ++ (name, v) :: ns))
  | null {members : List (FormMember Form)} {m : FormMember Form} (listed : m ∈ members) (nullable : m.nullable = true)
      (ms ns : List (String × Json)) (omitted : m.name ∉ Json.names (ms ++ ns)) :
      Adds (.record members) (.object (ms ++ ns)) (.object (ms ++ (m.name, .null) :: ns))

theorem Adds.shown {f : Form} {v w : Json} (adds : f.Adds v w) : v ≠ .null ∧ w ≠ .null := by
  cases adds with
  | item => exact ⟨nofun, nofun⟩
  | value => exact ⟨nofun, nofun⟩
  | unknown => exact ⟨nofun, nofun⟩
  | null => exact ⟨nofun, nofun⟩

def Grown (members : List (FormMember Form)) (doc doc' : String → Option Json) : Prop :=
  ∀ m ∈ members, doc' m.name = doc m.name ∨
    (m.nullable = true ∧ doc m.name = none ∧ doc' m.name = some .null) ∨
    ∃ v w, doc m.name = some v ∧ doc' m.name = some w ∧ m.form.Adds v w

end Form

/- How a codec is put together, and the form that its documents have. -/
mutual
inductive Codec.HasForm : {α : Type} → Codec α → Form → Prop where
  | text : Codec.HasForm .text .whole
  | bool : Codec.HasForm .bool .whole
  | int64 : Codec.HasForm .int64 .whole
  | strings : Codec.HasForm .strings .whole
  | list {α : Type} {c : Codec α} {f : Form} (item : Codec.HasForm c f) : Codec.HasForm c.list (.list f)
  | record {σ : Type} {r : Record σ σ} {value : σ → σ} {members : List (FormMember Form)}
      (rows : Record.HasMembers r value members) (all : ∀ a, value a = a) : Codec.HasForm r.codec (.record members)

inductive Record.HasMembers : {σ α : Type} → Record σ α → (σ → α) → List (FormMember Form) → Prop where
  | map {σ α β : Type} {r : Record σ α} {get : σ → α} {ms : List (FormMember Form)}
      (rows : Record.HasMembers r get ms) (f : α → β) : Record.HasMembers (f <$> r) (fun a => f (get a)) ms
  | seq {σ α β : Type} {r : Record σ (α → β)} {s : Record σ α} {f : σ → α → β} {get : σ → α}
      {ms ns : List (FormMember Form)} (left : Record.HasMembers r f ms) (right : Record.HasMembers s get ns) :
      Record.HasMembers (r <*> s) (fun a => f a (get a)) (ms ++ ns)
  | required {σ α : Type} {c : Codec α} {f : Form} (value : Codec.HasForm c f) (name : String) (get : σ → α) :
      Record.HasMembers (.required name c get) get [⟨name, false, f⟩]
  | optional {σ α : Type} {c : Codec α} {f : Form} (value : Codec.HasForm c f) (name : String) (get : σ → Option α) :
      Record.HasMembers (.optional name c get) get [⟨name, true, f⟩]
  | defaulted {σ α : Type} {c : Codec α} {f : Form} (value : Codec.HasForm c f) (name : String) (default : α)
      (get : σ → α) : Record.HasMembers (.defaulted name c default get) get [⟨name, false, f⟩]
  | listed {σ α : Type} {c : Codec α} {f : Form} (item : Codec.HasForm c f) (name : String) (get : σ → List α) :
      Record.HasMembers (.listed name c get) get [⟨name, false, .list f⟩]
end

structure Codec.Faithful {α : Type} (c : Codec α) (f : Form) : Prop where
  back : ∀ a, c.read? (c.write a) = some a
  shown : ∀ a, c.write a ≠ .null
  keeps : ∀ {v w a}, f.Adds v w → c.read? v = some a → c.read? w = some a

structure Record.Faithful {σ α : Type} (r : Record σ α) (value : σ → α) (members : List (FormMember Form)) : Prop where
  named : Form.names members = r.names
  back : ∀ a (doc : String → Option Json), (∀ m ∈ r.members, doc m.name = m.write a) → r.read? doc = some (value a)
  keeps : ∀ {doc doc' x}, Form.Grown members doc doc' → r.read? doc = some x → r.read? doc' = some x

namespace SortedMap

theorem ofEntries {κ ν : Type} [Ord κ] [Std.TransOrd κ] [Std.LawfulEqOrd κ] (m : SortedMap κ ν) :
    ofList m.entries = m :=
  extLookup fun _ => getOfList _ _

end SortedMap

namespace Codec
variable {α : Type}

theorem faithfulWhole {c : Codec α} (back : ∀ a, c.read? (c.write a) = some a) (shown : ∀ a, c.write a ≠ .null) :
    c.Faithful .whole where
  back := back
  shown := shown
  keeps adds := nomatch adds

theorem int64Back (n : Int64) : int64.read? (int64.write n) = some n := by
  unfold int64
  dsimp only
  rw [if_pos ⟨n.minValue_le_toInt, n.toInt_le⟩, Int64.ofInt_toInt]

theorem stringsBack (m : StringMap) : strings.read? (strings.write m) = some m := by
  have entries (es : List (String × String)) :
      (es.map fun e => (e.1, Json.text e.2)).mapM (fun m => (text.read? m.2).map fun s => (m.1, s)) = some es := by
    induction es with
    | nil => rfl
    | cons e es ih =>
      rw [List.map_cons, List.mapM_cons, ih]
      rfl
  unfold strings
  dsimp only
  rw [entries, Option.map_some, SortedMap.ofEntries]

theorem faithfulList {c : Codec α} {f : Form} (item : c.Faithful f) : c.list.Faithful (.list f) where
  back as := by
    change (as.map c.write).mapM c.read? = some as
    induction as with
    | nil => rfl
    | cons a as ih =>
      rw [List.map_cons, List.mapM_cons, item.back, ih]
      rfl
  shown _ := nofun
  keeps {v w as} adds read := by
    cases adds with
    | @item _ v w inside xs ys =>
      change (xs ++ v :: ys).mapM c.read? = some as at read
      change (xs ++ w :: ys).mapM c.read? = some as
      rw [List.mapM_append, List.mapM_cons] at read ⊢
      obtain ⟨front, before, read⟩ := Option.bind_eq_some_iff.mp read
      obtain ⟨_, rest, whole⟩ := Option.bind_eq_some_iff.mp read
      obtain ⟨a, here, rest⟩ := Option.bind_eq_some_iff.mp rest
      obtain ⟨last, after, made⟩ := Option.bind_eq_some_iff.mp rest
      rw [before, item.keeps inside here, after]
      cases made
      exact whole

end Codec

namespace Form

theorem Adds.grown {members : List (FormMember Form)} (apart : (names members).Nodup) {v w : Json}
    (adds : (record members).Adds v w) : ∃ ms ns, v = .object ms ∧ w = .object ns ∧
      Grown members (fun name => ms.lookup name) fun name => ns.lookup name := by
  have other {k l : String} (ms ns : List (String × Json)) (x : Json) (apart : l ≠ k) :
      (ms ++ (k, x) :: ns).lookup l = (ms ++ ns).lookup l := by
    rw [List.lookup_append, List.lookup_append, List.lookup_cons, beq_false_of_ne apart]
  have here (k : String) (ms ns : List (String × Json)) (x : Json) :
      (ms ++ (k, x) :: ns).lookup k = (ms.lookup k).or (some x) := by
    rw [List.lookup_append, List.lookup_cons_self]
  have same {m n : FormMember Form} (left : m ∈ members) (right : n ∈ members) (named : n.name = m.name) : n = m :=
    List.inj_on_of_nodup_map apart right left named
  cases adds with
  | @value _ m listed v w inside ms ns =>
    refine ⟨_, _, rfl, rfl, fun n row => ?_⟩
    dsimp only
    by_cases named : n.name = m.name
    · obtain rfl := same listed row named
      rw [here, here]
      cases ms.lookup n.name with
      | some x => exact .inl rfl
      | none => exact .inr (.inr ⟨v, w, rfl, rfl, inside⟩)
    · rw [other ms ns v named, other ms ns w named]
      exact .inl rfl
  | @unknown _ k unlisted x ms ns =>
    refine ⟨_, _, rfl, rfl, fun n row => .inl (other ms ns x ?_)⟩
    rintro rfl
    exact unlisted (List.mem_map_of_mem row)
  | @null _ m listed nullable ms ns omitted =>
    refine ⟨_, _, rfl, rfl, fun n row => ?_⟩
    dsimp only
    by_cases named : n.name = m.name
    · obtain rfl := same listed row named
      have missing : (ms ++ ns).lookup n.name = none := Json.lookupMissing omitted
      have before : ms.lookup n.name = none := by
        rw [List.lookup_append, Option.or_eq_none_iff] at missing
        exact missing.1
      refine .inr (.inl ⟨nullable, missing, ?_⟩)
      rw [here, before, Option.none_or]
    · exact .inl (other ms ns .null named)

end Form

namespace Record
variable {σ α β : Type}

theorem faithfulCodec {r : Record σ σ} {value : σ → σ} {members : List (FormMember Form)}
    (rows : r.Faithful value members) (all : ∀ a, value a = a) (apart : (Form.names members).Nodup) :
    r.codec.Faithful (.record members) where
  back a := by
    have distinct : r.names.Nodup := rows.named ▸ apart
    have read := rows.back a (fun name => (r.document a).lookup name) fun m row => lookupWritten distinct row a
    rw [all] at read
    exact read
  shown _ := nofun
  keeps {v w a} adds read := by
    obtain ⟨ms, ns, rfl, rfl, grown⟩ := adds.grown apart
    exact rows.keeps grown read

theorem faithfulMap {r : Record σ α} {get : σ → α} {ms : List (FormMember Form)} (rows : r.Faithful get ms)
    (f : α → β) : Record.Faithful (f <$> r) (fun a => f (get a)) ms where
  named := rows.named
  back a doc written := congrArg (Option.map f) (rows.back a doc written)
  keeps {doc doc' x} grown read := by
    change (r.read? doc).map f = some x at read
    obtain ⟨y, found, rfl⟩ := Option.map_eq_some_iff.mp read
    exact congrArg (Option.map f) (rows.keeps grown found)

theorem faithfulSeq {r : Record σ (α → β)} {s : Record σ α} {f : σ → α → β} {get : σ → α}
    {ms ns : List (FormMember Form)} (left : r.Faithful f ms) (right : s.Faithful get ns) :
    Record.Faithful (r <*> s) (fun a => f a (get a)) (ms ++ ns) where
  named := by
    change (ms ++ ns).map FormMember.name = (r.members ++ s.members).map Member.name
    rw [List.map_append, List.map_append]
    exact congrArg₂ (· ++ ·) left.named right.named
  back a doc written := by
    change (r.read? doc).bind (fun g => (s.read? doc).map g) = some (f a (get a))
    rw [left.back a doc fun m row => written m (List.mem_append_left _ row),
      right.back a doc fun m row => written m (List.mem_append_right _ row)]
    rfl
  keeps {doc doc' x} grown read := by
    change (r.read? doc).bind (fun g => (s.read? doc).map g) = some x at read
    change (r.read? doc').bind (fun g => (s.read? doc').map g) = some x
    obtain ⟨g, first, read⟩ := Option.bind_eq_some_iff.mp read
    obtain ⟨y, second, rfl⟩ := Option.map_eq_some_iff.mp read
    rw [left.keeps (fun m row => grown m (List.mem_append_left _ row)) first,
      right.keeps (fun m row => grown m (List.mem_append_right _ row)) second]
    rfl

section
variable {c : Codec α} {f : Form}

theorem grownValue {name : String} {doc doc' : String → Option Json} (grown : Form.Grown [⟨name, false, f⟩] doc doc') :
    doc' name = doc name ∨ ∃ v w, doc name = some v ∧ doc' name = some w ∧ f.Adds v w :=
  (grown _ List.mem_cons_self).imp_right fun other => other.resolve_left nofun

theorem faithfulRequired (value : c.Faithful f) (name : String) (get : σ → α) :
    (required name c get).Faithful get [⟨name, false, f⟩] where
  named := rfl
  back a doc written := by
    have found : doc name = some (c.write (get a)) := written _ List.mem_cons_self
    change (doc name).bind c.read? = some (get a)
    rw [found, Option.bind_some, value.back]
  keeps {doc doc' x} grown read := by
    change (doc name).bind c.read? = some x at read
    change (doc' name).bind c.read? = some x
    rcases grownValue grown with same | ⟨v, w, before, after, adds⟩
    · rwa [same]
    · rw [before] at read
      rw [after]
      exact value.keeps adds read

section
variable {name : String} {get : σ → Option α} {doc : String → Option Json}

theorem optionalMissing (missing : doc name = none) : (optional name c get).read? doc = some none := by
  unfold optional
  dsimp only
  rw [missing]

theorem optionalNull (empty : doc name = some .null) : (optional name c get).read? doc = some none := by
  unfold optional
  dsimp only
  rw [empty]

theorem optionalSet {v : Json} (set : doc name = some v) (shown : v ≠ .null) :
    (optional name c get).read? doc = (c.read? v).map some := by
  unfold optional
  dsimp only
  rw [set]
  split
  · rename_i missing
    cases missing
  · rename_i empty
    exact absurd (Option.some.inj empty) shown
  · rename_i same
    cases same
    rfl

end

theorem faithfulOptional (value : c.Faithful f) (name : String) (get : σ → Option α) :
    (optional name c get).Faithful get [⟨name, true, f⟩] where
  named := rfl
  back a doc written := by
    have found : doc name = (get a).map c.write := written _ List.mem_cons_self
    cases set : get a with
    | none =>
      rw [set] at found
      exact optionalMissing found
    | some x =>
      rw [set] at found
      rw [optionalSet found (value.shown x), value.back, Option.map_some]
  keeps {doc doc' x} grown read := by
    rcases grown _ List.mem_cons_self with same | ⟨_, before, after⟩ | ⟨v, w, before, after, adds⟩
    · unfold optional at read ⊢
      dsimp only at same read ⊢
      rwa [same]
    · rw [optionalMissing before] at read
      rw [optionalNull after]
      exact read
    · rw [optionalSet before adds.shown.1] at read
      rw [optionalSet after adds.shown.2]
      obtain ⟨y, found, rfl⟩ := Option.map_eq_some_iff.mp read
      rw [value.keeps adds found, Option.map_some]

theorem faithfulDefaulted (value : c.Faithful f) (name : String) (default : α) (get : σ → α) :
    (defaulted name c default get).Faithful get [⟨name, false, f⟩] where
  named := rfl
  back a doc written := by
    have found : doc name = some (c.write (get a)) := written _ List.mem_cons_self
    unfold defaulted
    dsimp only
    rw [found]
    exact value.back (get a)
  keeps {doc doc' x} grown read := by
    unfold defaulted at read ⊢
    dsimp only at read ⊢
    rcases grownValue grown with same | ⟨v, w, before, after, adds⟩
    · rwa [same]
    · rw [before] at read
      rw [after]
      exact value.keeps adds read

theorem faithfulListed (item : c.Faithful f) (name : String) (get : σ → List α) :
    (listed name c get).Faithful get [⟨name, false, .list f⟩] where
  named := rfl
  back a doc written := by
    have found : doc name = if (get a).isEmpty then none else some (c.list.write (get a)) :=
      written _ List.mem_cons_self
    unfold listed
    dsimp only
    rw [found]
    cases listing : get a with
    | nil => rfl
    | cons x xs => exact (Codec.faithfulList item).back (x :: xs)
  keeps {doc doc' x} grown read := by
    unfold listed at read ⊢
    dsimp only at read ⊢
    rcases grownValue grown with same | ⟨v, w, before, after, adds⟩
    · rwa [same]
    · rw [before] at read
      rw [after]
      exact (Codec.faithfulList item).keeps adds read

end
end Record

/- The induction follows the making of a codec; that the names are distinct is used at each record. -/
mutual
theorem Codec.HasForm.faithful : ∀ {α : Type} {c : Codec α} {f : Form}, c.HasForm f → f.Distinct → c.Faithful f
  | _, _, _, .text, _ => Codec.faithfulWhole (fun _ => rfl) fun _ => nofun
  | _, _, _, .bool, _ => Codec.faithfulWhole (fun _ => rfl) fun _ => nofun
  | _, _, _, .int64, _ => Codec.faithfulWhole Codec.int64Back fun _ => nofun
  | _, _, _, .strings, _ => Codec.faithfulWhole Codec.stringsBack fun _ => nofun
  | _, _, _, .list item, .list inside => Codec.faithfulList (item.faithful inside)
  | _, _, _, .record rows all, .record apart inside => Record.faithfulCodec (rows.faithful inside) all apart

theorem Record.HasMembers.faithful : ∀ {σ α : Type} {r : Record σ α} {value : σ → α} {members : List (FormMember Form)},
    r.HasMembers value members → (∀ m ∈ members, m.form.Distinct) → r.Faithful value members
  | _, _, _, _, _, .map rows f, inside => Record.faithfulMap (rows.faithful inside) f
  | _, _, _, _, _, .seq left right, inside =>
    Record.faithfulSeq (left.faithful fun m row => inside m (List.mem_append_left _ row))
      (right.faithful fun m row => inside m (List.mem_append_right _ row))
  | _, _, _, _, _, .required value name get, inside =>
    Record.faithfulRequired (value.faithful (inside _ List.mem_cons_self)) name get
  | _, _, _, _, _, .optional value name get, inside =>
    Record.faithfulOptional (value.faithful (inside _ List.mem_cons_self)) name get
  | _, _, _, _, _, .defaulted value name default get, inside =>
    Record.faithfulDefaulted (value.faithful (inside _ List.mem_cons_self)) name default get
  | _, _, _, _, _, .listed item name get, inside =>
    match inside _ List.mem_cons_self with
    | .list inside => Record.faithfulListed (item.faithful inside) name get
end

/- A form is found from the way a codec is put together, so a new member of a record brings its own. -/
class Codec.Formed {α : Type} (c : Codec α) where
  form : Form
  has : c.HasForm form
  distinct : form.Distinct

class Record.Formed {σ α : Type} (r : Record σ α) where
  value : σ → α
  members : List (FormMember Form)
  has : r.HasMembers value members
  distinct : ∀ m ∈ members, m.form.Distinct

namespace Codec.Formed

instance : Codec.text.Formed := ⟨.whole, .text, .whole⟩

instance : Codec.bool.Formed := ⟨.whole, .bool, .whole⟩

instance : Codec.int64.Formed := ⟨.whole, .int64, .whole⟩

instance : Codec.strings.Formed := ⟨.whole, .strings, .whole⟩

instance {α : Type} (c : Codec α) [c.Formed] : c.list.Formed := ⟨.list (form c), .list has, .list distinct⟩

@[reducible]
def record {σ : Type} {r : Record σ σ} (rows : r.Formed) (all : ∀ a, rows.value a = a := by exact fun _ => rfl)
    (apart : (Form.names rows.members).Nodup := by decide) : r.codec.Formed :=
  ⟨.record rows.members, .record rows.has all, .record apart rows.distinct⟩

theorem faithful {α : Type} (c : Codec α) [c.Formed] : c.Faithful (form c) := has.faithful distinct

end Codec.Formed

namespace Record.Formed
variable {σ α β : Type}

instance (f : α → β) (r : Record σ α) [r.Formed] : (f <$> r).Formed := ⟨_, members r, .map has f, distinct⟩

instance (r : Record σ (α → β)) (s : Record σ α) [r.Formed] [s.Formed] : (r <*> s).Formed :=
  ⟨_, members r ++ members s, .seq has has, List.forall_mem_append.mpr ⟨distinct, distinct⟩⟩

variable (name : String) (c : Codec α) [c.Formed]

instance (get : σ → α) : (required name c get).Formed :=
  ⟨_, _, .required Codec.Formed.has name get, List.forall_mem_singleton.mpr Codec.Formed.distinct⟩

instance (get : σ → Option α) : (optional name c get).Formed :=
  ⟨_, _, .optional Codec.Formed.has name get, List.forall_mem_singleton.mpr Codec.Formed.distinct⟩

instance (default : α) (get : σ → α) : (defaulted name c default get).Formed :=
  ⟨_, _, .defaulted Codec.Formed.has name default get, List.forall_mem_singleton.mpr Codec.Formed.distinct⟩

instance (get : σ → List α) : (listed name c get).Formed :=
  ⟨_, _, .listed Codec.Formed.has name get, List.forall_mem_singleton.mpr (.list Codec.Formed.distinct)⟩

end Record.Formed
end DesiredState
