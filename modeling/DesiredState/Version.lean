import DesiredState.Text.Numeral

/-!
Versions of the form major.minor. A release version names a patch and a date as well and belongs to
one minor. Versions only move forward, one minor at a time and never into another major.
-/
namespace DesiredState
open Text

structure MinorVersion where
  major : UInt32
  minor : UInt32
  deriving DecidableEq, Repr

inductive VersionFault where
  | notMajorMinor
  | notANumber (component : String)
  | tooLarge (component : String)
  | notARelease
  | missingDate
  | notThreeComponents
  | noSuccessor
  | otherMajor (observed desired : UInt32)
  deriving DecidableEq, Repr

def VersionFault.message : VersionFault → String
  | .notMajorMinor => "expected major.minor"
  | .notANumber component => s!"'{component}' is not a non-negative integer"
  | .tooLarge component => s!"'{component}': {Numeral.Fault.tooLarge.message}"
  | .notARelease => "release version must look like major.minor.patch-date"
  | .missingDate => "release version is missing its date"
  | .notThreeComponents => "release version must have major, minor and patch components"
  | .noSuccessor => "minor version has no successor"
  | .otherMajor observed desired => s!"cannot step from major version {observed} to {desired}"

structure BadVersion where
  text : String
  fault : VersionFault
  deriving DecidableEq, Repr

def BadVersion.message (b : BadVersion) : String := s!"invalid version '{b.text}': {b.fault.message}"

namespace MinorVersion

def text (v : MinorVersion) : String := s!"{v.major}.{v.minor}"

def given (raw : Option String) : Option String := raw.filter fun s => !s.isEmpty

def order (v w : MinorVersion) : Ordering := (compare v.major w.major).then (compare v.minor w.minor)

instance : Ord MinorVersion := ⟨order⟩

/-- A non-empty text of ASCII digits below 2^32; leading zeros are allowed. -/
def component (cs : List Char) : Except VersionFault UInt32 :=
  match Numeral.digits? cs with
  | none => .error (.notANumber (String.ofList cs))
  | some n => if n < UInt32.size then .ok (UInt32.ofNat n) else .error (.tooLarge (String.ofList cs))

def ofComponents (major minor : List Char) : Except VersionFault MinorVersion := do
  return ⟨← component major, ← component minor⟩

def about {α : Type} (raw : String) (r : Except VersionFault α) : Except BadVersion α := r.mapError fun f => ⟨raw, f⟩

def parse (raw : String) : Except BadVersion MinorVersion :=
  about raw <|
    match raw.toList.splitOn '.' with
    | [major, minor] => ofComponents major minor
    | _ => .error .notMajorMinor

/- The patch is checked before major and minor. -/
def ofRelease (semver date : List Char) : Except VersionFault MinorVersion :=
  if date.isEmpty then .error .missingDate
  else
    match semver.splitOn '.' with
    | [major, minor, patch] => do
      let _ ← component patch
      ofComponents major minor
    | _ => .error .notThreeComponents

def parseRelease (raw : String) : Except BadVersion MinorVersion :=
  about raw <|
    match raw.toList.splitOn '-' with
    | [semver, date] => ofRelease semver date
    | _ => .error .notARelease

def next (v : MinorVersion) : Except BadVersion MinorVersion :=
  if v.minor.toNat + 1 < UInt32.size then .ok ⟨v.major, v.minor + 1⟩ else .error ⟨v.text, .noSuccessor⟩

end MinorVersion

inductive VersionStep where
  | reached
  | final (v : MinorVersion)
  | intermediate (v : MinorVersion)
  | downgrade
  deriving DecidableEq, Repr

def VersionStep.between (observed desired : MinorVersion) : Except BadVersion VersionStep :=
  match compare desired observed with
  | .eq => .ok .reached
  | .lt => .ok .downgrade
  | .gt =>
    if desired.major ≠ observed.major then .error ⟨desired.text, .otherMajor observed.major desired.major⟩
    else do
      let next ← observed.next
      return if next = desired then .final desired else .intermediate next

def VersionStep.betweenTexts (observed desired : String) : Except BadVersion VersionStep := do
  let o ← MinorVersion.parse observed
  let d ← MinorVersion.parse desired
  between o d

namespace MinorVersion

def compareTexts (a b : String) : Except BadVersion Ordering := do
  let v ← parse a
  let w ← parse b
  return compare v w

def nextText (raw : String) : Except BadVersion String := do
  let v ← parse raw
  let w ← v.next
  return w.text

def releaseText (raw : String) : Except BadVersion String := do
  return (← parseRelease raw).text

end MinorVersion
end DesiredState
