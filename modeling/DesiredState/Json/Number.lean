import DesiredState.Json.Basic
import DesiredState.Text.Numeral

/-!
JSON numbers as text. A literal without fraction and exponent that fits 64 bits, signed or not, is an
integer; any other literal is the nearest float, and a negative zero is zero. A float is written by
its exact decimal expansion, so it reads back as itself.
-/
namespace DesiredState.Json.Number
open DesiredState.Text

structure Literal where
  negative : Bool
  whole : List Char
  fraction : Option (List Char)
  exponent : Option Int
  deriving DecidableEq, Repr

def takeSign : List Char → Bool × List Char
  | '-' :: cs => (true, cs)
  | cs => (false, cs)

def takeDigits (cs : List Char) : List Char × List Char :=
  (cs.takeWhile Numeral.isDigit, cs.dropWhile Numeral.isDigit)

def takeFraction : List Char → Option (Option (List Char) × List Char)
  | '.' :: cs =>
    let (ds, rest) := takeDigits cs
    if ds.isEmpty then none else some (some ds, rest)
  | cs => some (none, cs)

def signedExponent : List Char → Option Int
  | '-' :: cs => (Numeral.digits? cs).map fun n => -(n : Int)
  | '+' :: cs => (Numeral.digits? cs).map Int.ofNat
  | cs => (Numeral.digits? cs).map Int.ofNat

def takeExponent : List Char → Option (Option Int)
  | [] => some none
  | c :: cs => if c == 'e' || c == 'E' then (signedExponent cs).map some else none

def literal? (cs : List Char) : Option Literal := do
  let (negative, cs) := takeSign cs
  let (whole, cs) := takeDigits cs
  if whole.isEmpty || (whole.head? == some '0' && whole.length != 1) then none
  let (fraction, cs) ← takeFraction cs
  let exponent ← takeExponent cs
  return ⟨negative, whole, fraction, exponent⟩

def unit : Nat := 4503599627370496

def divRound (n d : Nat) : Nat :=
  let q := n / d
  let twice := 2 * (n % d)
  if twice < d || (twice == d && q % 2 == 0) then q else q + 1

def scaled (n d : Nat) (k : Int) : Nat × Nat :=
  if k < 0 then (n * Nat.pow 2 k.natAbs, d) else (n, d * Nat.pow 2 k.natAbs)

/-- The bits of the float nearest to `n / d`, which is not zero: the significand has 53 bits, fewer
near zero, and its exponent is counted from -1074. Too large is no float. -/
def nearest? (n d : Nat) : Option Nat :=
  let order : Int := (n.log2 : Int) - d.log2
  let (a, b) := scaled n d order
  let k := max (-1074) (if b ≤ a then order - 52 else order - 53)
  let (a, b) := scaled n d k
  let bits := (k + 1074).toNat * unit + divRound a b
  if bits < 2047 * unit then some bits else none

/-- The float nearest to `n · 10^e`. Far outside the range of floats the answer is known without a
power: too large is no float, too small is zero. -/
def float? (negative : Bool) (n : Nat) (e : Int) : Option Json :=
  let order : Int := (Nat.toDigits 10 n).length + e
  let signed (bits : Nat) : Json := .float (.ofNat (if negative && bits != 0 then 2048 * unit + bits else bits))
  if n == 0 || order < -400 then some (signed 0)
  else if order > 400 then none
  else (if e < 0 then nearest? n (Nat.pow 10 e.natAbs) else nearest? (n * Nat.pow 10 e.natAbs) 1).map signed

def Literal.value? (l : Literal) : Option Json :=
  let n := Numeral.value l.whole
  let float := float? l.negative (Numeral.value (l.whole ++ l.fraction.getD []))
    (l.exponent.getD 0 - (l.fraction.getD []).length)
  match l.fraction, l.exponent with
  | none, none =>
    if l.negative then
      if n == 0 || Int64.minValue.toInt.natAbs < n then float else some (.int (-(n : Int)))
    else if n < UInt64.size then some (.int n) else float
  | _, _ => float

def read? (cs : List Char) : Option Json := (literal? cs).bind Literal.value?

def binaryFraction (m k : Nat) : String :=
  let shifted := m * Nat.pow 5 k
  let places := Nat.toDigits 10 (shifted % Nat.pow 10 k)
  s!"{shifted / Nat.pow 10 k}." ++ String.ofList (List.replicate (k - places.length) '0' ++ places)

def renderFloat (bits : UInt64) : String :=
  let b := bits.toNat
  let sign := if b / (2048 * unit) == 1 then "-" else ""
  let e := b / unit % 2048
  let m := if e == 0 then b % unit else b % unit + unit
  let e := max e 1
  if e == 2047 then "null"
  else if 1075 ≤ e then sign ++ s!"{m * Nat.pow 2 (e - 1075)}.0"
  else sign ++ binaryFraction m (1075 - e)

end DesiredState.Json.Number
