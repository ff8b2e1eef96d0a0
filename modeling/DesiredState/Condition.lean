/-!
Status conditions. Each carries the second, counted from the start of 1970, at which it was set; two
conditions are in the same state when they differ at most in that.
-/
namespace DesiredState

inductive ConditionStatus where
  | true
  | false
  | unknown
  deriving DecidableEq, Repr

def ConditionStatus.text : ConditionStatus → String
  | .true => "True"
  | .false => "False"
  | .unknown => "Unknown"

def ConditionStatus.ofText? : String → Option ConditionStatus
  | "True" => some .true
  | "False" => some .false
  | "Unknown" => some .unknown
  | _ => none

structure Condition where
  type : String
  status : ConditionStatus
  reason : String
  message : String
  since : Int
  deriving DecidableEq, Repr

namespace Condition

def syncedType : String := "Synced"
def terminalType : String := "Terminal"

def sameState (c d : Condition) : Bool :=
  c.type == d.type && c.status == d.status && c.reason == d.reason && c.message == d.message

def changed (current next : List Condition) : Bool :=
  current.length != next.length || next.any fun n => !current.any fun c => c.sameState n

end Condition

end DesiredState
