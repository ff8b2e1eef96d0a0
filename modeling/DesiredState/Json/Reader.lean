import DesiredState.Json.Number
import DesiredState.SortedMap

/-!
JSON texts to values. Characters become tokens and tokens become a value, each by one step per item,
so reading ends with its input. Of members with one name the last counts; objects are read in
ascending order of names.
-/
namespace DesiredState.Json.Reader

inductive Token where
  | openList
  | closeList
  | openObject
  | closeObject
  | colon
  | comma
  | text (s : String)
  | word (cs : List Char)
  deriving DecidableEq, Repr

/- Where the next character falls. `high` is the first half of a surrogate pair that waits for the
second; `done` is what was read of the token, last character first. -/
inductive Place where
  | between
  | word (done : List Char)
  | inText (done : List Char) (high : Option Nat)
  | escape (done : List Char) (high : Option Nat)
  | code (done : List Char) (high : Option Nat) (left : Nat) (n : Nat)
  deriving DecidableEq, Repr

structure Scan where
  place : Place
  tokens : List Token
  deriving DecidableEq, Repr

def hexDigit? (c : Char) : Option Nat :=
  if '0' ≤ c && c ≤ '9' then some (c.toNat - '0'.toNat)
  else if 'a' ≤ c && c ≤ 'f' then some (c.toNat - 'a'.toNat + 10)
  else if 'A' ≤ c && c ≤ 'F' then some (c.toNat - 'A'.toNat + 10)
  else none

def mark? : Char → Option Token
  | '[' => some .openList
  | ']' => some .closeList
  | '\x7b' => some .openObject
  | '\x7d' => some .closeObject
  | ':' => some .colon
  | ',' => some .comma
  | _ => none

def isSpace (c : Char) : Bool := c == ' ' || c == '\t' || c == '\n' || c == '\x0d'

def Scan.start (tokens : List Token) (c : Char) : Scan :=
  if isSpace c then ⟨.between, tokens⟩
  else if c == '"' then ⟨.inText [] none, tokens⟩
  else
    match mark? c with
    | some t => ⟨.between, t :: tokens⟩
    | none => ⟨.word [c], tokens⟩

def escaped? : Char → Option Char
  | '"' => some '"'
  | '\\' => some '\\'
  | '/' => some '/'
  | 'b' => some '\x08'
  | 'f' => some '\x0c'
  | 'n' => some '\n'
  | 'r' => some '\x0d'
  | 't' => some '\t'
  | _ => none

def takeUnit (done : List Char) (high : Option Nat) (n : Nat) : Option Place :=
  match high with
  | some h =>
    if 0xDC00 ≤ n && n ≤ 0xDFFF then
      some (.inText (Char.ofNat (0x10000 + (h - 0xD800) * 0x400 + (n - 0xDC00)) :: done) none)
    else none
  | none =>
    if 0xD800 ≤ n && n ≤ 0xDBFF then some (.inText done (some n))
    else if 0xDC00 ≤ n && n ≤ 0xDFFF then none
    else some (.inText (Char.ofNat n :: done) none)

def Scan.step (s : Scan) (c : Char) : Option Scan :=
  match s.place with
  | .between => some (Scan.start s.tokens c)
  | .word done =>
    if isSpace c || c == '"' || (mark? c).isSome then some (Scan.start (.word done.reverse :: s.tokens) c)
    else some ⟨.word (c :: done), s.tokens⟩
  | .inText done high =>
    if c == '\\' then some ⟨.escape done high, s.tokens⟩
    else if high.isSome then none
    else if c == '"' then some ⟨.between, .text (String.ofList done.reverse) :: s.tokens⟩
    else if c.toNat < 0x20 then none
    else some ⟨.inText (c :: done) none, s.tokens⟩
  | .escape done high =>
    if c == 'u' then some ⟨.code done high 4 0, s.tokens⟩
    else if high.isSome then none
    else (escaped? c).map fun e => ⟨.inText (e :: done) none, s.tokens⟩
  | .code done high left n => do
    let d ← hexDigit? c
    let n := 16 * n + d
    if left ≤ 1 then (takeUnit done high n).map fun p => ⟨p, s.tokens⟩
    else some ⟨.code done high (left - 1) n, s.tokens⟩

def tokens? (cs : List Char) : Option (List Token) := do
  let s ← cs.foldlM Scan.step ⟨.between, []⟩
  match s.place with
  | .between => some s.tokens.reverse
  | .word done => some (Token.word done.reverse :: s.tokens).reverse
  | _ => none

inductive Frame where
  | list (done : List Json)
  | object (done : SortedMap String Json) (name : String)

inductive Want where
  | value (mayClose : Bool)
  | name (done : SortedMap String Json) (mayClose : Bool)
  | colon (done : SortedMap String Json) (name : String)
  | more
  | moreMembers (done : SortedMap String Json)
  | nothing (whole : Json)

structure Build where
  frames : List Frame
  want : Want

def Build.complete (v : Json) : List Frame → Build
  | [] => ⟨[], .nothing v⟩
  | .list done :: rest => ⟨.list (v :: done) :: rest, .more⟩
  | .object done name :: rest => ⟨rest, .moreMembers (done.insert name v)⟩

def word? (cs : List Char) : Option Json :=
  if cs = "null".toList then some .null
  else if cs = "true".toList then some (.bool true)
  else if cs = "false".toList then some (.bool false)
  else Number.read? cs

def Build.step (b : Build) (t : Token) : Option Build :=
  match b.want, t, b.frames with
  | .value _, .text s, frames => some (.complete (.text s) frames)
  | .value _, .word cs, frames => (word? cs).map fun v => .complete v frames
  | .value _, .openList, frames => some ⟨.list [] :: frames, .value true⟩
  | .value _, .openObject, frames => some ⟨frames, .name .empty true⟩
  | .value true, .closeList, .list [] :: frames => some (.complete (.list []) frames)
  | .name done _, .text s, frames => some ⟨frames, .colon done s⟩
  | .name _ true, .closeObject, frames => some (.complete (.object []) frames)
  | .colon done name, .colon, frames => some ⟨.object done name :: frames, .value false⟩
  | .more, .comma, frames => some ⟨frames, .value false⟩
  | .more, .closeList, .list done :: frames => some (.complete (.list done.reverse) frames)
  | .moreMembers done, .comma, frames => some ⟨frames, .name done false⟩
  | .moreMembers done, .closeObject, frames => some (.complete (.object done.entries) frames)
  | _, _, _ => none

end Reader

def read? (s : String) : Option Json := do
  let tokens ← Reader.tokens? s.toList
  let b ← tokens.foldlM Reader.Build.step ⟨[], .value false⟩
  match b.want with
  | .nothing v => some v
  | _ => none

end DesiredState.Json
