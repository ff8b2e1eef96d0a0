/-!
Request targets: what a request asks for, read off one text as a path and a query. The blank, the
control characters of ASCII and a few marks would have to be escaped; a text with one of them is no
target.
-/
namespace DesiredState

structure RequestTarget where
  path : String
  query : Option String
  deriving DecidableEq, Repr

namespace RequestTarget

def maxBytes : Nat := 65534

def isShown (c : Char) : Bool := 0x20 < c.toNat && c.toNat != 0x7F

def isPathChar (c : Char) : Bool := isShown c && c != '<' && c != '>' && c != '\x60'

def isQueryChar (c : Char) : Bool := isShown c && c != '<' && c != '>' && c != '"'

def splitQuery (cs : List Char) : List Char × Option (List Char) :=
  (cs.takeWhile (· != '?'), (cs.dropWhile (· != '?')).tail?)

/-- Reads a text. A number sign ends the target, and what follows it is not looked at. -/
def ofText? (text : String) : Option RequestTarget :=
  let (path, query) := splitQuery (text.toList.takeWhile (· != '#'))
  if text.utf8ByteSize ≤ maxBytes && path.all isPathChar && query.all (List.all · isQueryChar) then
    some ⟨String.ofList path, query.map String.ofList⟩
  else none

end RequestTarget
end DesiredState
