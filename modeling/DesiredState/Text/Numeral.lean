/-!
Unsigned decimal numerals. `digits?` gives the value of a text of ASCII digits; `read` accepts one
leading plus and reports what is wrong first, reading from the left against a bound.
-/
namespace DesiredState.Text.Numeral

def isDigit (c : Char) : Bool := '0' ≤ c && c ≤ '9'

def digit (c : Char) : Nat := c.toNat - '0'.toNat

def value (cs : List Char) : Nat := cs.foldl (fun n c => 10 * n + digit c) 0

def digits? (cs : List Char) : Option Nat :=
  if cs ≠ [] ∧ cs.all isDigit then some (value cs) else none

inductive Fault where
  | empty
  | invalidDigit
  | tooLarge
  deriving DecidableEq, Repr

def Fault.message : Fault → String
  | .empty => "cannot parse integer from empty string"
  | .invalidDigit => "invalid digit found in string"
  | .tooLarge => "number too large to fit in target type"

/-- Reads on from the value `n` of the digits seen so far. At one character a foreign character
is found before the bound is exceeded. -/
def readFrom (bound : Nat) (n : Nat) : List Char → Except Fault Nat
  | [] => .ok n
  | c :: cs =>
    if !isDigit c then .error .invalidDigit
    else if bound ≤ 10 * n + digit c then .error .tooLarge
    else readFrom bound (10 * n + digit c) cs

def read (bound : Nat) : List Char → Except Fault Nat
  | [] => .error .empty
  | '+' :: c :: cs => readFrom bound 0 (c :: cs)
  | cs => readFrom bound 0 cs

end DesiredState.Text.Numeral
