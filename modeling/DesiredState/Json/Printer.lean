import DesiredState.Json.Number

/-!
JSON values as texts, without blanks, members in the order of the value. Quotes, backslashes and
control characters are escaped; every other character stands for itself.
-/
namespace DesiredState.Json

def hexDigits (n : Nat) : List Char :=
  let ds := Nat.toDigits 16 n
  List.replicate (4 - ds.length) '0' ++ ds

def escape (c : Char) : List Char :=
  if c == '"' || c == '\\' then ['\\', c]
  else if c.toNat < 0x20 then '\\' :: 'u' :: hexDigits c.toNat
  else [c]

def quoted (s : String) : String := String.ofList ('"' :: s.toList.flatMap escape ++ ['"'])

mutual
def render : Json → String
  | .null => "null"
  | .bool b => if b then "true" else "false"
  | .int n => toString n
  | .float bits => Number.renderFloat bits
  | .text s => quoted s
  | .list xs => "[" ++ ",".intercalate (renderItems xs) ++ "]"
  | .object ms => "\x7b" ++ ",".intercalate (renderMembers ms) ++ "\x7d"

def renderItems : List Json → List String
  | [] => []
  | x :: xs => render x :: renderItems xs

def renderMembers : List (String × Json) → List String
  | [] => []
  | (k, x) :: ms => (quoted k ++ ":" ++ render x) :: renderMembers ms
end

end DesiredState.Json
