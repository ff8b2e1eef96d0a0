import DesiredState.Config
import DesiredState.Proofs.Texts
import Mathlib.Data.List.Forall2

/-!
The environments that load. A delay is unset, blank or a numeral with white space around it, and is not zero; a list has
its parts between commas. Every delay is read before any is checked, so an environment that does not load names the
first variable that cannot be read, or else the first delay that is zero. -/
namespace DesiredState
open Text

namespace Config

inductive Sets (default : UInt64) : Option String → UInt64 → Prop where
  | unset : Sets default none default
  | blank {raw : String} (spaces : Padded raw "") : Sets default (some raw) default
  | numeral {raw text : String} {n : UInt64} (written : Padded raw text) (signed : Numeral.Signed text n.toNat) :
      Sets default (some raw) n

structure Part (piece text : String) : Prop where
  padded : Padded piece text
  trimmed : Trimmed text.toList
  single : ',' ∉ text.toList

inductive Lists : Option String → List String → Prop where
  | unset : Lists none []
  | parts {pieces texts : List String} (each : List.Forall₂ Part pieces texts) :
      Lists (some (",".intercalate pieces)) (texts.filter fun text => text ≠ "")

section
variable {env : String → Option String} {key : String}

theorem digitUnblank {c : Char} (digit : '0' ≤ c ∧ c ≤ '9') : isBlank c = false := by
  have low : 48 ≤ c.toNat := digit.1
  have high : c.toNat ≤ 57 := digit.2
  unfold isBlank
  simp
  omega

theorem signedTrimmed {text : String} {n : Nat} (signed : Numeral.Signed text n) :
    Trimmed text.toList ∧ text.toList ≠ [] := by
  obtain ⟨digits, form, denotes⟩ := signed
  have plain : ∀ c ∈ text.toList, isBlank c = false := by
    have digital (c : Char) (inside : c ∈ digits.toList) : isBlank c = false := digitUnblank (denotes.digits c inside)
    rcases form with rfl | rfl
    · exact digital
    · rw [String.toList_append, List.forall_mem_append]
      refine ⟨fun c (inside : c ∈ ['+']) => ?_, digital⟩
      rw [List.mem_singleton.mp inside]
      rfl
  refine ⟨⟨?_, ?_⟩, ?_⟩
  · cases first : text.toList.head? with
    | none => rfl
    | some c => exact plain c (List.mem_of_mem_head? first)
  · cases last : text.toList.getLast? with
    | none => rfl
    | some c => exact plain c (List.mem_of_getLast? last)
  · rcases form with rfl | rfl
    · exact denotes.nonempty
    · simp

theorem readSecondsIff {default n : UInt64} : readSeconds env key default = .ok n ↔ Sets default (env key) n := by
  have positive : 0 < UInt64.size := by decide
  unfold readSeconds
  constructor
  · intro ok
    split at ok
    · rename_i unset
      cases ok
      rw [unset]
      exact .unset
    · rename_i raw set
      rw [set]
      dsimp only at ok
      have written := (trimPads raw).2
      split at ok
      · rename_i empty
        cases ok
        rw [List.isEmpty_iff.mp empty] at written
        exact .blank written
      · split at ok
        · rename_i m read
          cases ok
          rw [← String.toList_ofList (l := trim raw.toList), Numeral.readIff positive] at read
          refine .numeral written ?_
          rw [UInt64.toNat_ofNat_of_lt' read.2]
          exact read.1
        · cases ok
  · intro sets
    generalize env key = value at sets
    cases sets with
    | unset => rfl
    | blank spaces =>
      have empty := trimIff.mpr ⟨⟨rfl, rfl⟩, spaces⟩
      dsimp only
      rw [empty]
      rfl
    | @numeral raw text _ written signed =>
      obtain ⟨trimmed, nonempty⟩ := signedTrimmed signed
      have read := (Numeral.readIff positive).mpr ⟨signed, n.toNat_lt⟩
      dsimp only
      rw [trimIff.mpr ⟨trimmed, written⟩, if_neg (by simpa using nonempty), read]
      exact congrArg Except.ok UInt64.ofNat_toNat

theorem Part.of {piece : List Char} (single : ',' ∉ piece) :
    Part (String.ofList piece) (String.ofList (trim piece)) := by
  obtain ⟨trimmed, padded⟩ := trimPads (String.ofList piece)
  rw [String.toList_ofList] at trimmed padded
  refine ⟨padded, ?_, ?_⟩ <;> rw [String.toList_ofList]
  · exact trimmed
  · intro inside
    rw [← trimAround piece] at single
    exact single (List.mem_append_left _ (List.mem_append_right _ inside))

theorem Part.pieceSingle {piece text : String} (part : Part piece text) : ',' ∉ piece.toList := by
  obtain ⟨⟨before, after, front, back, rfl⟩, -, single⟩ := part
  have unspaced {cs : List Char} (blank : cs.all isBlank = true) : ',' ∉ cs := fun inside => by
    cases List.all_eq_true.mp blank _ inside
  simp [unspaced front, unspaced back, single]

theorem partsCut {pieces texts : List String} (each : List.Forall₂ Part pieces texts) :
    (∀ piece ∈ pieces.map String.toList, ',' ∉ piece) ∧
      (pieces.map String.toList).map (fun piece => String.ofList (trim piece)) = texts := by
  induction each with
  | nil => exact ⟨nofun, rfl⟩
  | cons part _ ih =>
    obtain ⟨free, same⟩ := ih
    refine ⟨List.forall_mem_cons.mpr ⟨part.pieceSingle, free⟩, ?_⟩
    rw [List.map_cons, List.map_cons, same, trimIff.mpr ⟨part.trimmed, part.padded⟩, String.ofList_toList]

theorem listPartsFiltered (cs : List Char) :
    listParts cs = ((cs.splitOn ',').map fun piece => String.ofList (trim piece)).filter fun text => text ≠ "" := by
  unfold listParts
  induction cs.splitOn ',' with
  | nil => rfl
  | cons piece rest ih =>
    rw [List.map_cons, List.map_cons, List.filterMap_cons, List.filter_cons, ih]
    cases trim piece <;> simp

theorem readListIff {items : List String} : readList env key = items ↔ Lists (env key) items := by
  unfold readList
  generalize env key = value
  constructor
  · rintro rfl
    cases value with
    | none => exact .unset
    | some raw =>
      let cut := raw.toList.splitOn ','
      have each : List.Forall₂ (fun piece same => Part (String.ofList piece) (String.ofList (trim same))) cut cut :=
        List.forall₂_same.mpr fun _ inside => Part.of (pieceFree inside)
      have parts := Lists.parts (List.forall₂_map_left_iff.mpr (List.forall₂_map_right_iff.mpr each))
      rw [joinPieces (by decide), ← listPartsFiltered] at parts
      exact parts
  · intro lists
    cases lists with
    | unset => rfl
    | @parts pieces texts each =>
      obtain ⟨free, rfl⟩ := partsCut each
      dsimp only
      cases pieces with
      | nil => rfl
      | cons piece rest =>
        have cut : (",".intercalate (piece :: rest)).toList.splitOn ',' = (piece :: rest).map String.toList :=
          cutIff.mpr ⟨by simp, by rw [String.toList_intercalate]; rfl, free⟩
        rw [listPartsFiltered, cut]

end

structure Setting where
  key : String
  member : String
  get : Config → UInt64

def settings : List Setting :=
  [⟨waitBackoffKey, "waitBackoffSecs", waitBackoffSecs⟩,
    ⟨asyncUpdateRequeueKey, "asyncUpdateRequeueSecs", asyncUpdateRequeueSecs⟩,
    ⟨conflictBackoffKey, "conflictBackoffSecs", conflictBackoffSecs⟩,
    ⟨resyncPeriodKey, "resyncPeriodSecs", resyncPeriodSecs⟩]

namespace Setting
variable (s : Setting) {env : String → Option String} {n : UInt64}

def read (env : String → Option String) : Except ConfigFault UInt64 := readSeconds env s.key (s.get default)

def SetTo (env : String → Option String) (n : UInt64) : Prop := Sets (s.get default) (env s.key) n

theorem readIff : s.read env = .ok n ↔ s.SetTo env n := readSecondsIff

theorem setOnce {m : UInt64} (left : s.SetTo env m) (right : s.SetTo env n) : m = n :=
  Except.ok.inj ((s.readIff.mpr left).symm.trans (s.readIff.mpr right))

theorem readFault {f : ConfigFault} (failed : s.read env = .error f) : f.field = s.key ∧ ¬∃ n, s.SetTo env n := by
  constructor
  · unfold read readSeconds at failed
    dsimp only at failed
    repeat' split at failed
    all_goals cases failed
    rfl
  · rintro ⟨n, sets⟩
    cases (s.readIff.mpr sets).symm.trans failed

end Setting

theorem delaysListed (c : Config) : c.delays = settings.map fun s => (s.member, s.get c) := rfl

theorem validateIff {c : Config} : c.validate = .ok () ↔ ∀ s ∈ settings, s.get c ≠ 0 := by
  unfold validate
  rw [delaysListed]
  constructor
  · intro valid s listed zero
    split at valid
    · cases valid
    · rename_i none
      exact List.find?_eq_none.mp none _ (List.mem_map_of_mem listed) (beq_iff_eq.mpr zero)
  · intro positive
    have none : ((settings.map fun s => (s.member, s.get c)).find? fun d => d.2 == 0) = none := by
      rw [List.find?_eq_none, List.forall_mem_map]
      exact fun s listed => by simpa using positive s listed
    rw [none]

theorem validateFault {c : Config} {f : ConfigFault} (failed : c.validate = .error f) :
    ∃ before s after, settings = before ++ s :: after ∧ (∀ e ∈ before, e.get c ≠ 0) ∧ s.get c = 0 ∧
      f.field = s.member := by
  unfold validate at failed
  rw [delaysListed, List.find?_map] at failed
  split at failed
  · rename_i d found
    cases failed
    obtain ⟨s, first, rfl⟩ := Option.map_eq_some_iff.mp found
    obtain ⟨zero, before, after, split, earlier⟩ := List.find?_eq_some_iff_append.mp first
    exact ⟨before, s, after, split, by simpa using earlier, by simpa using zero, rfl⟩
  · cases failed

section
variable {env : String → Option String} {c : Config}

theorem ofEnvOk : ofEnv env = .ok c ↔ (∀ s ∈ settings, s.read env = .ok (s.get c)) ∧ c.validate = .ok () ∧
    readList env extraTerminalCodesKey = c.extraTerminalCodes ∧
    readList env degradedTerminalKindsKey = c.degradedTerminalKinds := by
  unfold ofEnv
  constructor
  · intro loaded
    obtain ⟨wait, waits, loaded⟩ := boundOk.mp loaded
    obtain ⟨update, updates, loaded⟩ := boundOk.mp loaded
    obtain ⟨conflict, conflicts, loaded⟩ := boundOk.mp loaded
    obtain ⟨resync, resyncs, loaded⟩ := boundOk.mp loaded
    obtain ⟨⟨⟩, valid, same⟩ := boundOk.mp loaded
    cases same
    exact ⟨by simp [settings, Setting.read, waits, updates, conflicts, resyncs], valid, rfl, rfl⟩
  · rintro ⟨delays, valid, codes, kinds⟩
    simp only [settings, List.forall_mem_cons, Setting.read] at delays
    obtain ⟨waits, updates, conflicts, resyncs, -⟩ := delays
    refine boundOk.mpr ⟨_, waits, boundOk.mpr ⟨_, updates, boundOk.mpr ⟨_, conflicts, boundOk.mpr ⟨_, resyncs, ?_⟩⟩⟩⟩
    rw [codes, kinds]
    exact boundOk.mpr ⟨(), valid, rfl⟩

theorem ofEnvFault {f : ConfigFault} (failed : ofEnv env = .error f) :
    (∃ before s after, settings = before ++ s :: after ∧ (∀ e ∈ before, ∃ n, e.read env = .ok n) ∧
        s.read env = .error f) ∨
      ∃ c, (∀ s ∈ settings, s.read env = .ok (s.get c)) ∧ c.validate = .error f := by
  unfold ofEnv at failed
  rcases boundError.mp failed with here | ⟨wait, waits, failed⟩
  · exact .inl ⟨[], _, _, rfl, nofun, here⟩
  rcases boundError.mp failed with here | ⟨update, updates, failed⟩
  · exact .inl ⟨_ :: [], _, _, rfl, by simpa using ⟨wait, waits⟩, here⟩
  rcases boundError.mp failed with here | ⟨conflict, conflicts, failed⟩
  · exact .inl ⟨_ :: _ :: [], _, _, rfl, by simpa using ⟨⟨wait, waits⟩, update, updates⟩, here⟩
  rcases boundError.mp failed with here | ⟨resync, resyncs, failed⟩
  · refine .inl ⟨_ :: _ :: _ :: [], _, _, rfl, ?_, here⟩
    simpa using ⟨⟨wait, waits⟩, ⟨update, updates⟩, conflict, conflicts⟩
  rcases boundError.mp failed with invalid | ⟨_, _, ⟨⟩⟩
  exact .inr ⟨_, by simp [settings, Setting.read, waits, updates, conflicts, resyncs], invalid⟩

structure Loads (env : String → Option String) (c : Config) : Prop where
  delays : ∀ s ∈ settings, s.SetTo env (s.get c)
  positive : ∀ s ∈ settings, 0 < s.get c
  codes : Lists (env extraTerminalCodesKey) c.extraTerminalCodes
  kinds : Lists (env degradedTerminalKindsKey) c.degradedTerminalKinds

inductive Complains (env : String → Option String) : String → Prop where
  | unreadable {before s after} (listed : settings = before ++ s :: after) (earlier : ∀ e ∈ before, ∃ n, e.SetTo env n)
      (here : ¬∃ n, s.SetTo env n) : Complains env s.key
  | zero {before s after} (listed : settings = before ++ s :: after) (readable : ∀ e ∈ settings, ∃ n, e.SetTo env n)
      (earlier : ∀ e ∈ before, ¬e.SetTo env 0) (here : s.SetTo env 0) : Complains env s.member

theorem loadsIff : ofEnv env = .ok c ↔ Loads env c := by
  rw [ofEnvOk, validateIff, readListIff, readListIff]
  simp only [Setting.readIff]
  constructor
  · rintro ⟨delays, positive, codes, kinds⟩
    exact ⟨delays, fun s listed => UInt64.pos_iff_ne_zero.mpr (positive s listed), codes, kinds⟩
  · rintro ⟨delays, positive, codes, kinds⟩
    exact ⟨delays, fun s listed => UInt64.pos_iff_ne_zero.mp (positive s listed), codes, kinds⟩

theorem complains {f : ConfigFault} (failed : ofEnv env = .error f) : Complains env f.field := by
  rcases ofEnvFault failed with ⟨before, s, after, listed, earlier, here⟩ | ⟨c, delays, invalid⟩
  · obtain ⟨named, unset⟩ := s.readFault here
    rw [named]
    exact .unreadable listed (fun e inside => (earlier e inside).imp fun _ => e.readIff.mp) unset
  · obtain ⟨before, s, after, listed, positive, zero, named⟩ := validateFault invalid
    have sets (e : Setting) (inside : e ∈ settings) : e.SetTo env (e.get c) := e.readIff.mp (delays e inside)
    rw [named]
    refine .zero listed (fun e inside => ⟨_, sets e inside⟩) (fun e inside none => positive e inside ?_) ?_
    · exact e.setOnce (sets e (listed ▸ List.mem_append_left _ inside)) none
    · have here := sets s (listed ▸ List.mem_append_right _ List.mem_cons_self)
      rwa [zero] at here

theorem loadsWhen : (∃ c, ofEnv env = .ok c) ↔ ∀ s ∈ settings, ∃ n, s.SetTo env n ∧ 0 < n := by
  constructor
  · rintro ⟨c, loaded⟩ s listed
    have loads := loadsIff.mp loaded
    exact ⟨_, loads.delays s listed, loads.positive s listed⟩
  · intro each
    cases loaded : ofEnv env with
    | ok c => exact ⟨c, rfl⟩
    | error f =>
      have complaint := complains loaded
      generalize f.field = field at complaint
      cases complaint with
      | @unreadable before s after listed _ here =>
        obtain ⟨n, sets, _⟩ := each s (listed ▸ List.mem_append_right _ List.mem_cons_self)
        exact absurd ⟨n, sets⟩ here
      | @zero before s after listed _ _ here =>
        obtain ⟨n, sets, positive⟩ := each s (listed ▸ List.mem_append_right _ List.mem_cons_self)
        rw [s.setOnce sets here] at positive
        exact absurd positive (by decide)

theorem listedBack {key : String} {pieces texts : List String} (each : List.Forall₂ Part pieces texts)
    (filled : "" ∉ texts) (listed : env key = some (",".intercalate pieces)) : readList env key = texts := by
  have lists := Lists.parts each
  rw [← listed, ← readListIff] at lists
  rw [lists]
  exact List.filter_eq_self.mpr fun text inside => decide_eq_true fun empty => filled (empty ▸ inside)

end

/- An environment loads when each of its delays is set and none is zero, and then the config is the one it describes.
Otherwise the complaint names the first variable that sets no delay, or else the first delay that is zero. -/
theorem environmentsLoad (env : String → Option String) :
    ((∃ c, ofEnv env = .ok c) ↔ ∀ s ∈ settings, ∃ n, s.SetTo env n ∧ 0 < n) ∧
      (∀ c, ofEnv env = .ok c ↔ Loads env c) ∧
      (∀ f, ofEnv env = .error f →
        ∃ field why, f.toFault = .validation "engine-config" (some field) why ∧ Complains env field) ∧
      ∀ c pieces texts, ofEnv env = .ok c → List.Forall₂ Part pieces texts → "" ∉ texts →
        (env extraTerminalCodesKey = some (",".intercalate pieces) → c.extraTerminalCodes = texts) ∧
          (env degradedTerminalKindsKey = some (",".intercalate pieces) → c.degradedTerminalKinds = texts) := by
  refine ⟨loadsWhen, fun _ => loadsIff, fun f failed => ⟨f.field, f.why, rfl, complains failed⟩, ?_⟩
  intro c pieces texts loaded each filled
  obtain ⟨_, _, codes, kinds⟩ := ofEnvOk.mp loaded
  rw [← codes, ← kinds]
  exact ⟨listedBack each filled, listedBack each filled⟩

theorem lastDelayUnread :
    let env (key : String) : Option String :=
      if key = waitBackoffKey then some "0" else if key = resyncPeriodKey then some "ten hours" else none
    let listing (key : String) : Option String :=
      if key = extraTerminalCodesKey then some "Throttled\t, Slow Down" else none
    ofEnv env = .error (.unreadable resyncPeriodKey "ten hours" .invalidDigit) ∧ Complains env resyncPeriodKey ∧
      ∃ c, ofEnv listing = .ok c ∧ c.extraTerminalCodes = ["Throttled", "Slow Down"] := by
  intro env listing
  have failed : ofEnv env = .error (.unreadable resyncPeriodKey "ten hours" .invalidDigit) := by rfl
  obtain ⟨field, why, fault, complaint⟩ := (environmentsLoad env).2.2.1 _ failed
  obtain rfl : resyncPeriodKey = field := Option.some.inj (Fault.validation.inj fault).2.1
  have loaded : ofEnv listing = .ok { default with extraTerminalCodes := ["Throttled", "Slow Down"] } := by rfl
  have first : Part "Throttled\t" "Throttled" := ⟨⟨"", "\t", rfl, rfl, by decide⟩, ⟨rfl, rfl⟩, by decide⟩
  have second : Part " Slow Down" "Slow Down" := ⟨⟨" ", "", rfl, rfl, by decide⟩, ⟨rfl, rfl⟩, by decide⟩
  have codes := ((environmentsLoad listing).2.2.2 _ _ _ loaded (.cons first (.cons second .nil)) (by decide)).1 (by rfl)
  exact ⟨failed, complaint, _, loaded, codes⟩

end Config
end DesiredState
