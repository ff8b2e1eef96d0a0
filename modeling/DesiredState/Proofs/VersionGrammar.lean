import DesiredState.Proofs.Texts
import DesiredState.Proofs.VersionSteps
import DesiredState.Proofs.VersionTexts
import Mathlib.Data.Prod.Lex

/-!
The versions that can be read. A version is two numerals with a dot between them, a release version is three of them, a
dash and a date. What is read is what the numerals denote; versions are ordered as pairs of numbers, and a step goes by
this order. -/
namespace DesiredState

namespace MinorVersion
open Text

variable {raw : String} {v : MinorVersion}

theorem componentIff {cs : List Char} {n : UInt32} : component cs = .ok n ↔ Denotes (String.ofList cs) n.toNat := by
  unfold component
  constructor
  · intro read
    split at read
    · cases read
    · rename_i m found
      split at read
      · rename_i small
        cases read
        rw [UInt32.toNat_ofNat_of_lt' small]
        exact Numeral.digitsIff.mp found
      · cases read
  · intro denotes
    rw [Numeral.digitsIff.mpr denotes]
    dsimp only
    rw [if_pos n.toNat_lt, UInt32.ofNat_toNat]

theorem ofComponentsIff {major minor : List Char} : ofComponents major minor = .ok v ↔
    Denotes (String.ofList major) v.major.toNat ∧ Denotes (String.ofList minor) v.minor.toNat := by
  rw [← componentIff, ← componentIff]
  unfold ofComponents
  simp only [boundOk]
  constructor
  · rintro ⟨m, first, n, second, same⟩
    cases same
    exact ⟨first, second⟩
  · rintro ⟨first, second⟩
    exact ⟨v.major, first, v.minor, second, rfl⟩

structure Written (raw : String) (v : MinorVersion) (major minor : String) : Prop where
  text : raw = s!"{major}.{minor}"
  major : Denotes major v.major.toNat
  minor : Denotes minor v.minor.toNat

/-- A release version as it is written. The date is any text without a dash, but not the empty one. -/
structure Released (raw : String) (v : MinorVersion) (major minor patch date : String) : Prop where
  text : raw = s!"{major}.{minor}.{patch}-{date}"
  major : Denotes major v.major.toNat
  minor : Denotes minor v.minor.toNat
  patch : ∃ n : UInt32, Denotes patch n.toNat
  dated : date ≠ ""
  undashed : '-' ∉ date.toList

theorem parseIff : parse raw = .ok v ↔ ∃ major minor, Written raw v major minor := by
  unfold parse about
  rw [relabeledOk]
  constructor
  · intro read
    split at read
    · rename_i major minor pieces
      obtain ⟨first, second⟩ := ofComponentsIff.mp read
      obtain ⟨-, joined, -⟩ := cutIff.mp pieces
      refine ⟨String.ofList major, String.ofList minor, ?_, first, second⟩
      rw [← String.toList_inj, ← joined]
      simp [toString]
    · cases read
  · rintro ⟨major, minor, written⟩
    have pieces : raw.toList.splitOn '.' = [major.toList, minor.toList] := by
      refine cutIff.mpr ⟨List.cons_ne_nil _ _, by simp [written.text, toString], ?_⟩
      simp [written.major.without (c := '.') (by decide), written.minor.without (c := '.') (by decide)]
    rw [pieces]
    dsimp only
    rw [ofComponentsIff, String.ofList_toList, String.ofList_toList]
    exact ⟨written.major, written.minor⟩

theorem ofReleaseIff {semver date : List Char} : ofRelease semver date = .ok v ↔
    date ≠ [] ∧ ∃ major minor patch, semver.splitOn '.' = [major, minor, patch] ∧ (∃ n, component patch = .ok n) ∧
      ofComponents major minor = .ok v := by
  unfold ofRelease
  constructor
  · intro read
    split at read
    · cases read
    · rename_i dated
      split at read
      · rename_i major minor patch pieces
        obtain ⟨n, checked, last⟩ := boundOk.mp read
        exact ⟨by simpa using dated, major, minor, patch, pieces, ⟨n, checked⟩, last⟩
      · cases read
  · rintro ⟨dated, major, minor, patch, pieces, ⟨n, checked⟩, last⟩
    rw [if_neg (by simpa using dated), pieces]
    exact boundOk.mpr ⟨n, checked, last⟩

theorem parseReleaseIff :
    parseRelease raw = .ok v ↔ ∃ major minor patch date, Released raw v major minor patch date := by
  unfold parseRelease about
  rw [relabeledOk]
  constructor
  · intro read
    split at read
    · rename_i semver date halves
      obtain ⟨dated, major, minor, patch, pieces, ⟨n, checked⟩, last⟩ := ofReleaseIff.mp read
      obtain ⟨first, second⟩ := ofComponentsIff.mp last
      obtain ⟨-, joined, undashed⟩ := cutIff.mp halves
      obtain ⟨-, rfl, -⟩ := cutIff.mp pieces
      refine ⟨String.ofList major, String.ofList minor, String.ofList patch, String.ofList date, ?_, first, second,
        ⟨n, componentIff.mp checked⟩, by simpa using dated, by simpa using undashed date⟩
      rw [← String.toList_inj, ← joined]
      simp [toString]
    · cases read
  · rintro ⟨major, minor, patch, date, released⟩
    obtain ⟨n, checked⟩ := released.patch
    have halves : raw.toList.splitOn '-' = [s!"{major}.{minor}.{patch}".toList, date.toList] := by
      refine cutIff.mpr ⟨List.cons_ne_nil _ _, by simp [released.text, toString], ?_⟩
      simp [toString, released.major.without (c := '-') (by decide), released.minor.without (c := '-') (by decide),
        checked.without (c := '-') (by decide), released.undashed]
    have pieces : s!"{major}.{minor}.{patch}".toList.splitOn '.' = [major.toList, minor.toList, patch.toList] := by
      refine cutIff.mpr ⟨List.cons_ne_nil _ _, by simp [toString], ?_⟩
      simp [released.major.without (c := '.') (by decide), released.minor.without (c := '.') (by decide),
        checked.without (c := '.') (by decide)]
    rw [halves]
    dsimp only
    refine ofReleaseIff.mpr ⟨by simpa using released.dated, _, _, _, pieces, ⟨n, ?_⟩, ?_⟩
    · rw [componentIff, String.ofList_toList]
      exact checked
    · rw [ofComponentsIff, String.ofList_toList, String.ofList_toList]
      exact ⟨released.major, released.minor⟩

def pair (v : MinorVersion) : ℕ ×ₗ ℕ := toLex (v.major.toNat, v.minor.toNat)

theorem pairBelow {v w : MinorVersion} : v.pair < w.pair ↔ compare v w = .lt := by
  rw [belowIff, pair, pair, Prod.Lex.toLex_lt_toLex, UInt32.lt_iff_toNat_lt, UInt32.lt_iff_toNat_lt, UInt32.toNat_inj]

theorem pairOrder (v w : MinorVersion) : compare v w = cmp v.pair w.pair := by
  cases order : compare v w with
  | lt => exact ((cmp_eq_lt_iff _ _).mpr (pairBelow.mpr order)).symm
  | eq =>
    rw [sameIff.mp order]
    exact (cmp_self_eq_eq _).symm
  | gt =>
    have above : compare w v = .lt := by
      rw [belowIff]
      exact (aboveIff.mp order).imp_right fun later => ⟨later.1.symm, later.2⟩
    exact ((cmp_eq_gt_iff _ _).mpr (pairBelow.mpr above)).symm

theorem compareTextsIff {a b : String} {order : Ordering} : compareTexts a b = .ok order ↔
    ∃ v w, parse a = .ok v ∧ parse b = .ok w ∧ order = cmp v.pair w.pair := by
  unfold compareTexts
  constructor
  · intro compared
    obtain ⟨v, first, compared⟩ := boundOk.mp compared
    obtain ⟨w, second, same⟩ := boundOk.mp compared
    cases same
    exact ⟨v, w, first, second, pairOrder v w⟩
  · rintro ⟨v, w, first, second, rfl⟩
    exact boundOk.mpr ⟨v, first, boundOk.mpr ⟨w, second, congrArg Except.ok (pairOrder v w)⟩⟩

end MinorVersion

namespace VersionStep
open MinorVersion
variable {observed desired : MinorVersion}

structure ByOrder (observed desired : MinorVersion) (order : Ordering) (result : Except BadVersion VersionStep) :
    Prop where
  reached : result = .ok .reached ↔ order = .eq
  downgrade : result = .ok .downgrade ↔ order = .lt
  step : (∃ next, next.Follows observed ∧ (result = .ok (.final next) ∨ result = .ok (.intermediate next))) ↔
    order = .gt ∧ desired.major = observed.major
  otherMajor : (∃ fault, result = .error fault) ↔ order = .gt ∧ desired.major ≠ observed.major

theorem betweenByOrder (observed desired : MinorVersion) :
    ByOrder observed desired (compare desired observed) (between observed desired) := by
  have leads := betweenLeads observed desired
  generalize between observed desired = result at leads ⊢
  cases leads with
  | reached same =>
    rw [sameIff.mpr same]
    constructor <;> simp
  | downgrade below =>
    rw [below]
    constructor <;> simp
  | final advances =>
    rw [aboveIff.mpr (.inr ⟨advances.major, advances.ahead⟩)]
    constructor <;> simp [advances.follows, advances.major]
  | @intermediate next advances =>
    rw [aboveIff.mpr (.inr ⟨advances.major, advances.ahead⟩)]
    constructor <;> simp [advances.follows, advances.major]
  | otherMajor above =>
    rw [aboveIff.mpr (.inl above)]
    constructor <;> simp [(UInt32.ne_of_lt above).symm]

theorem versionsAsWritten :
    (∀ raw v, parse raw = .ok v ↔ ∃ major minor, Written raw v major minor) ∧
      (∀ raw v, parseRelease raw = .ok v ↔ ∃ major minor patch date, Released raw v major minor patch date) ∧
      (∀ raw v major minor patch date, Released raw v major minor patch date → parse s!"{major}.{minor}" = .ok v) ∧
      (∀ v, parse v.text = .ok v) ∧ (∀ raw v, parse raw = .ok v → parse v.text = parse raw) ∧
      (∀ a b order, compareTexts a b = .ok order ↔
        ∃ v w, parse a = .ok v ∧ parse b = .ok w ∧ order = cmp v.pair w.pair) ∧
      ∀ a b v w, parse a = .ok v → parse b = .ok w →
        ∃ order, compareTexts b a = .ok order ∧ ByOrder v w order (between v w) := by
  refine ⟨fun _ _ => parseIff, fun _ _ => parseReleaseIff, ?_, parseText, ?_, fun _ _ _ => compareTextsIff, ?_⟩
  · intro raw v major minor patch date released
    exact parseIff.mpr ⟨major, minor, rfl, released.major, released.minor⟩
  · intro raw v read
    rw [parseText, read]
  · intro a b v w observed desired
    refine ⟨cmp w.pair v.pair, compareTextsIff.mpr ⟨w, v, desired, observed, rfl⟩, ?_⟩
    rw [← pairOrder]
    exact betweenByOrder v w

theorem paddedReleaseRead :
    parseRelease "01.016.8-2024.01" = .ok ⟨1, 16⟩ ∧ parse "01.016" = .ok ⟨1, 16⟩ ∧
      (∃ order, compareTexts "1.18" "01.016" = .ok order ∧
        ByOrder ⟨1, 16⟩ ⟨1, 18⟩ order (between ⟨1, 16⟩ ⟨1, 18⟩)) := by
  have released : Released "01.016.8-2024.01" ⟨1, 16⟩ "01" "016" "8" "2024.01" := by
    refine ⟨by decide +kernel, ?_, ?_, ⟨8, ?_⟩, by decide +kernel, by decide +kernel⟩
    all_goals exact ⟨by simp, by simp, by decide +kernel⟩
  obtain ⟨_, releases, sameVersion, _, _, _, steps⟩ := versionsAsWritten
  have version := sameVersion _ _ _ _ _ _ released
  have desired : parse "1.18" = .ok ⟨1, 18⟩ := by decide +kernel
  exact ⟨(releases _ _).mpr ⟨_, _, _, _, released⟩, version, steps _ _ _ _ version desired⟩

/- Signs, other digits, missing numerals and numbers out of range are refused. -/
example :
    (["", "1.", ".16", "+1.16", "1.16.8", "1.٣", "1.4294967296"].all fun raw => !(parse raw).isOk) = true := by
  decide +kernel

end VersionStep
end DesiredState
