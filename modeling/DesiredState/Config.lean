import DesiredState.Delay
import DesiredState.Fault
import DesiredState.Json.Record
import DesiredState.Text.Blank
import DesiredState.Text.Numeral

/-!
The tunables: four delays in seconds, remote codes that are final besides the built-in ones, and
kinds for which a degraded status is final. They come from a document or from an environment; only
the environment is checked for zero delays, which would ask for the next pass at once.
-/
namespace DesiredState
open Text

structure Config where
  waitBackoffSecs : UInt64
  asyncUpdateRequeueSecs : UInt64
  conflictBackoffSecs : UInt64
  resyncPeriodSecs : UInt64
  extraTerminalCodes : List String
  degradedTerminalKinds : List String
  deriving DecidableEq, Repr

inductive ConfigFault where
  | unreadable (key raw : String) (why : Numeral.Fault)
  | notPositive (field : String)
  deriving DecidableEq, Repr

namespace ConfigFault

def field : ConfigFault → String
  | .unreadable key _ _ => key
  | .notPositive field => field

def why : ConfigFault → String
  | .unreadable _ raw why => s!"'{raw}': {why.message}"
  | .notPositive _ => "must be greater than zero"

def toFault (f : ConfigFault) : Fault := .validation "engine-config" (some f.field) f.why

end ConfigFault

namespace Config

def default : Config where
  waitBackoffSecs := 30
  asyncUpdateRequeueSecs := 15
  conflictBackoffSecs := 15
  resyncPeriodSecs := 36000
  extraTerminalCodes := []
  degradedTerminalKinds := []

instance : Inhabited Config := ⟨default⟩

def record : Record Config Config :=
  Config.mk <$> .defaulted "waitBackoffSecs" .word64 default.waitBackoffSecs waitBackoffSecs
    <*> .defaulted "asyncUpdateRequeueSecs" .word64 default.asyncUpdateRequeueSecs asyncUpdateRequeueSecs
    <*> .defaulted "conflictBackoffSecs" .word64 default.conflictBackoffSecs conflictBackoffSecs
    <*> .defaulted "resyncPeriodSecs" .word64 default.resyncPeriodSecs resyncPeriodSecs
    <*> .defaulted "extraTerminalCodes" (.list .text) [] extraTerminalCodes
    <*> .defaulted "degradedTerminalKinds" (.list .text) [] degradedTerminalKinds

def codec : Codec Config := record.codec

def delays (c : Config) : List (String × UInt64) :=
  [("waitBackoffSecs", c.waitBackoffSecs), ("asyncUpdateRequeueSecs", c.asyncUpdateRequeueSecs),
    ("conflictBackoffSecs", c.conflictBackoffSecs), ("resyncPeriodSecs", c.resyncPeriodSecs)]

def validate (c : Config) : Except ConfigFault Unit :=
  match c.delays.find? fun d => d.2 == 0 with
  | some d => .error (.notPositive d.1)
  | none => .ok ()

def waitBackoff (c : Config) : Delay := .ofSeconds c.waitBackoffSecs.toNat

def asyncUpdateRequeue (c : Config) : Delay := .ofSeconds c.asyncUpdateRequeueSecs.toNat

def conflictBackoff (c : Config) : Delay := .ofSeconds c.conflictBackoffSecs.toNat

def resyncPeriod (c : Config) : Delay := .ofSeconds c.resyncPeriodSecs.toNat

def degradedIsTerminal (c : Config) (kind : String) : Bool :=
  c.degradedTerminalKinds.any fun k => lowered k == lowered kind

def waitBackoffKey : String := "CONVERGE_WAIT_BACKOFF_SECS"
def asyncUpdateRequeueKey : String := "CONVERGE_ASYNC_UPDATE_REQUEUE_SECS"
def conflictBackoffKey : String := "CONVERGE_CONFLICT_BACKOFF_SECS"
def resyncPeriodKey : String := "CONVERGE_RESYNC_PERIOD_SECS"
def extraTerminalCodesKey : String := "CONVERGE_EXTRA_TERMINAL_CODES"
def degradedTerminalKindsKey : String := "CONVERGE_DEGRADED_TERMINAL_KINDS"

def readSeconds (env : String → Option String) (key : String) (default : UInt64) :
    Except ConfigFault UInt64 :=
  match env key with
  | none => .ok default
  | some raw =>
    let cs := trim raw.toList
    if cs.isEmpty then .ok default
    else
      match Numeral.read UInt64.size cs with
      | .ok n => .ok (UInt64.ofNat n)
      | .error why => .error (.unreadable key raw why)

def listParts (cs : List Char) : List String :=
  ((cs.splitOn ',').map trim).filterMap fun part => if part.isEmpty then none else some (String.ofList part)

def readList (env : String → Option String) (key : String) : List String :=
  match env key with
  | none => []
  | some raw => listParts raw.toList

/-- The tunables of an environment. All four delays are read before any is checked. -/
def ofEnv (env : String → Option String) : Except ConfigFault Config := do
  let wait ← readSeconds env waitBackoffKey default.waitBackoffSecs
  let update ← readSeconds env asyncUpdateRequeueKey default.asyncUpdateRequeueSecs
  let conflict ← readSeconds env conflictBackoffKey default.conflictBackoffSecs
  let resync ← readSeconds env resyncPeriodKey default.resyncPeriodSecs
  let c : Config :=
    ⟨wait, update, conflict, resync, readList env extraTerminalCodesKey,
      readList env degradedTerminalKindsKey⟩
  c.validate
  return c

end Config
end DesiredState
