import DesiredState.Annotations
import DesiredState.Fault

/-!
The remote as one pass meets it: how a resource is named, what is declared and what is seen of it,
the calls that can be made, and the answers they get.
-/
namespace DesiredState

structure ResourceId where
  name : String
  parent : Option String := none
  deriving DecidableEq, Repr

def ResourceId.child (parent name : String) : ResourceId := ⟨name, some parent⟩

def ResourceId.text (id : ResourceId) : String :=
  match id.parent with
  | some parent => s!"{parent}/{id.name}"
  | none => id.name

structure Desired (σ : Type) where
  spec : σ
  annotations : Annotations
  knownArn : Option String
  deriving DecidableEq, Repr

structure Observed (σ : Type) where
  spec : σ
  status : Option String
  arn : Option String
  tags : Option StringMap
  deriving DecidableEq, Repr

inductive Call (σ υ : Type) where
  | describe (id : ResourceId)
  | create (spec : σ)
  | update (id : ResourceId) (update : υ)
  | delete (id : ResourceId)
  | listTags (arn : String)
  | tagResource (arn : String) (tags : StringMap)
  | untagResource (arn : String) (keys : List String)
  deriving DecidableEq, Repr

structure Attempt (σ υ : Type) where
  call : Call σ υ
  failure : Option RemoteFault
  deriving DecidableEq, Repr

/-- What the remote answers during one pass. Every call is made at most once, except updates, which
are answered by their number in the pass. -/
structure Answers (σ : Type) where
  describe : Except RemoteFault (Option (Observed σ))
  create : Except RemoteFault (Option String)
  update : Nat → Option RemoteFault
  delete : Option RemoteFault
  listTags : Except RemoteFault StringMap
  tagResource : Option RemoteFault
  untagResource : Option RemoteFault

structure CallFailure where
  operation : String
  cause : RemoteFault
  deriving DecidableEq, Repr

end DesiredState
