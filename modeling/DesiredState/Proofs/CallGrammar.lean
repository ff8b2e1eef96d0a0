import DesiredState.Proofs.ActiveGate
import DesiredState.Proofs.Courses
import DesiredState.Proofs.Creation
import Mathlib.Computability.Language

/-!
The calls of a pass, as words of a language over calls. After the look at the remote a pass over a missing resource
may create it, a pass over an active one brings its tags and then one group of updates up to date, and a finalizing
pass may delete it; no pass does more than one of these. -/
namespace DesiredState
open Computability

def Spelled {α : Type} (l : Language α) (fits : α → Prop) : Prop := ∀ w ∈ l, ∀ c ∈ w, fits c

section
variable {α : Type} {fits : α → Prop} {l m : Language α}

theorem spelledNothing : Spelled (1 : Language α) fits := by
  rintro w rfl c member
  cases member

theorem spelledEither (first : Spelled l fits) (second : Spelled m fits) : Spelled (l + m) fits :=
  fun w spelled => spelled.elim (first w) (second w)

theorem spelledInTurn (first : Spelled l fits) (second : Spelled m fits) : Spelled (l * m) fits := by
  rintro _ ⟨v, inFirst, w, inSecond, rfl⟩ c member
  exact (List.mem_append.mp member).elim (first v inFirst c) (second w inSecond c)

theorem spelledAgain (each : Spelled l fits) : Spelled l∗ fits := by
  rintro _ ⟨words, rfl, all⟩ c member
  obtain ⟨w, inside, here⟩ := List.mem_flatten.mp member
  exact each w (all w inside) c here

end

namespace Call
variable {σ υ : Type}

def one (fits : Call σ υ → Prop) : Language (Call σ υ) := {w | ∃ c, fits c ∧ w = [c]}

theorem spelledOne {kind fits : Call σ υ → Prop} (all : ∀ c, kind c → fits c) : Spelled (one kind) fits := by
  rintro _ ⟨c, ofKind, rfl⟩ d member
  cases List.mem_singleton.mp member
  exact all c ofKind

def isDelete : Call σ υ → Bool
  | .delete _ => true
  | _ => false

def arn? : Call σ υ → Option String
  | .listTags arn => some arn
  | .tagResource arn _ => some arn
  | .untagResource arn _ => some arn
  | _ => none

theorem changesOnly {c : Call σ υ} (changes : c.changes = true) : c.isCreate = false ∧ c.isDelete = false := by
  cases c <;> first | exact ⟨rfl, rfl⟩ | cases changes

def describing (id : ResourceId) : Language (Call σ υ) := one (· = .describe id)

def creating (spec : σ) : Language (Call σ υ) := one (· = .create spec)

def deleting (id : ResourceId) : Language (Call σ υ) := one (· = .delete id)

def retagging (arn : String) : Language (Call σ υ) :=
  (1 + one fun c => ∃ tags, c = .tagResource arn tags) * (1 + one fun c => ∃ keys, c = .untagResource arn keys)

def tagging (arn : String) : Language (Call σ υ) := (1 + one (· = .listTags arn)) * retagging arn

theorem nothingRetagged (arn : String) : [] ∈ (retagging arn : Language (Call σ υ)) :=
  ⟨[], .inl rfl, [], .inl rfl, rfl⟩

theorem retaggingOnly {arn : String} {w : List (Call σ υ)} (spelled : w ∈ retagging arn) : w ∈ tagging arn :=
  ⟨[], .inl rfl, w, spelled, rfl⟩

def updating (id : ResourceId) : Language (Call σ υ) := (one fun c => ∃ u, c = .update id u)∗

theorem updateBefore {id : ResourceId} {u : υ} {w : List (Call σ υ)} (later : w ∈ updating id) :
    .update id u :: w ∈ updating id := by
  obtain ⟨words, rfl, all⟩ := later
  exact ⟨[.update id u] :: words, rfl, List.forall_mem_cons.mpr ⟨⟨_, ⟨u, rfl⟩, rfl⟩, all⟩⟩

def remedying (id : ResourceId) (arn : Option String) : Language (Call σ υ) :=
  (arn.elim 1 tagging) * updating id

theorem spelledRemedying (id : ResourceId) (arn : Option String) :
    Spelled (remedying id arn : Language (Call σ υ)) fun c =>
      c.changes = true ∧ ∀ a, c.arn? = some a → arn = some a := by
  have tags (a : String) : Spelled (tagging a : Language (Call σ υ)) fun c =>
      c.changes = true ∧ ∀ a', c.arn? = some a' → some a = some a' := by
    refine spelledInTurn (spelledEither spelledNothing (spelledOne ?_))
      (spelledInTurn (spelledEither spelledNothing (spelledOne ?_)) (spelledEither spelledNothing (spelledOne ?_)))
    · rintro _ rfl
      exact ⟨rfl, fun _ same => same⟩
    · rintro _ ⟨tags, rfl⟩
      exact ⟨rfl, fun _ same => same⟩
    · rintro _ ⟨keys, rfl⟩
      exact ⟨rfl, fun _ same => same⟩
  have updates : Spelled (updating id : Language (Call σ υ)) fun c =>
      c.changes = true ∧ ∀ a, c.arn? = some a → arn = some a := by
    refine spelledAgain (spelledOne ?_)
    rintro _ ⟨u, rfl⟩
    exact ⟨rfl, nofun⟩
  cases arn with
  | none => exact spelledInTurn spelledNothing updates
  | some a => exact spelledInTurn (tags a) updates

end Call

namespace Pass
variable {σ υ ε ε' α β : Type} {l m : Language (Call σ υ)}

theorem callsSettle (p : Pass σ υ ε α) (f : Except ε α → Pass σ υ ε' β) :
    ((p.settle : Pass σ υ ε' (Except ε α)) >>= f).calls = p.calls ++ (f p.result).calls :=
  List.map_append

theorem callsReturn (p : Pass σ υ ε α) (f : α → β) : (p >>= fun a => pure (f a)).calls = p.calls := by
  unfold calls
  rw [returned]

theorem callsInTurn {p : Pass σ υ ε α} {f : α → Pass σ υ ε β} (first : p.calls ∈ l) (stops : [] ∈ m)
    (next : ∀ a, (f a).calls ∈ m) : (p >>= f).calls ∈ l * m := by
  rw [bindSettled, callsSettle]
  refine Language.append_mem_mul first ?_
  cases p.result with
  | ok a => exact next a
  | error e => exact stops

theorem callsAsk (call : Call σ υ) (kind : CallKind) (operation : String) (answer : Except RemoteFault α) :
    (ask call kind operation answer).calls = [call] := by
  cases answer <;> rfl

end Pass

namespace Binding
variable {σ υ : Type} (b : Binding σ υ) (config : Config) (answers : Answers σ) (desired : Desired σ)
  (observed : Observed σ)

theorem callsSync (arn : String) (wanted current : StringMap) :
    (Tags.sync answers arn wanted current : Pass σ υ CallFailure Tags.Change).calls ∈ Call.retagging arn := by
  rw [Tags.syncInTurn]
  refine Pass.callsInTurn ?_ (.inl rfl) fun _ => ?_
  · split
    · exact .inl rfl
    · exact .inr ⟨_, ⟨_, rfl⟩, Pass.callsAsk _ _ _ _⟩
  · change Pass.calls (_ >>= fun _ => pure _) ∈ _
    rw [Pass.callsReturn]
    split
    · exact .inl rfl
    · exact .inr ⟨_, ⟨_, rfl⟩, Pass.callsAsk _ _ _ _⟩

theorem callsSyncTags : (b.syncTags answers desired observed).calls ∈ observed.arn.elim 1 Call.tagging := by
  unfold syncTags
  dsimp only
  split
  · cases observed.arn with
    | none => exact rfl
    | some arn => exact Call.retaggingOnly (Call.nothingRetagged arn)
  · cases observed.arn with
    | none => exact rfl
    | some arn =>
      have synced (wanted current : StringMap) : (do
          let _ ← Tags.sync answers arn wanted current
          return some wanted : Pass σ υ CallFailure (Option StringMap)).calls ∈ Call.retagging arn := by
        rw [Pass.callsReturn]
        exact callsSync answers arn wanted current
      change Pass.calls (_ : Pass σ υ CallFailure (Option StringMap)) ∈ Call.tagging arn
      cases observed.tags with
      | some tags => exact Call.retaggingOnly (synced _ _)
      | none =>
        exact Pass.callsInTurn (.inr ⟨_, rfl, Pass.callsAsk _ _ _ _⟩) (Call.nothingRetagged arn) (synced _)

theorem callsSend (id : ResourceId) (n : Nat) (us : List υ) : (b.sendFrom answers id n us).calls ∈ Call.updating id := by
  induction us generalizing n with
  | nil => exact Language.nil_mem_kstar _
  | cons u rest ih =>
    unfold sendFrom Pass.tell
    rw [Pass.callsSettle, Pass.callsAsk]
    refine Call.updateBefore ?_
    split
    · exact ih (n + 1)
    · split
      · exact ih (n + 1)
      · exact Language.nil_mem_kstar _

theorem callsApplyFirst (δ : Delta) :
    (b.applyFirst config answers desired observed δ).calls ∈ Call.updating (b.resourceId desired.spec) := by
  unfold applyFirst
  split
  · exact Language.nil_mem_kstar _
  · exact Language.nil_mem_kstar _
  · rw [Pass.callsSettle]
    split
    · exact (List.append_nil _).symm ▸ b.callsSend answers _ 0 _
    · rw [Pass.callsReturn]
      exact (List.append_nil _).symm ▸ b.callsSend answers _ 0 _

theorem callsRemediate (active : (b.rules config).classify observed.status = some .active) :
    (b.remediate config answers desired observed).calls ∈ Call.remedying (b.resourceId desired.spec) observed.arn := by
  have here := (b.activeHere config observed (by rw [active]; rfl)).1
  rw [b.remediateActive config answers desired observed here, Pass.callsSettle]
  refine Language.append_mem_mul (b.callsSyncTags answers desired observed) ?_
  unfold afterTags
  split
  · rw [Pass.callsReturn]
    exact Language.nil_mem_kstar _
  · rw [Pass.callsReturn]
    exact b.callsApplyFirst config answers desired observed _

theorem callsInactive (idle : (b.rules config).classify observed.status ≠ some .active) :
    (b.remediate config answers desired observed).calls = [] := by
  obtain ⟨v, chosen, _⟩ := b.heldInactive config idle
  rw [b.remediateInactive config answers desired chosen]
  rfl

theorem callsCreate : (b.create config answers desired).calls =
    if desired.knownArn.isSome then [] else [.create desired.spec] := by
  unfold create
  split
  · rfl
  · rw [Pass.callsSettle, Pass.callsAsk]
    split
    · rfl
    · rw [Pass.callsReturn]
      rfl

def following : Except RemoteFault (Option (Observed σ)) → Language (Call σ υ)
  | .error _ => 1
  | .ok none => if desired.knownArn.isSome then 1 else Call.creating desired.spec
  | .ok (some seen) =>
    if (b.rules config).classify seen.status = some .active then
      Call.remedying (b.resourceId desired.spec) seen.arn
    else 1

theorem callsReconcile : (b.reconcile config answers desired).calls ∈
    Call.describing (b.resourceId desired.spec) * b.following config desired answers.describe := by
  unfold reconcile
  rw [describeThen, Pass.callsSettle, Pass.callsAsk]
  refine Language.append_mem_mul ⟨_, rfl, rfl⟩ ?_
  cases answers.describe with
  | error f =>
    dsimp only [Pass.ask]
    rw [Pass.callsReturn]
    rfl
  | ok found =>
    cases found with
    | none =>
      change (b.create config answers desired).calls ∈ if desired.knownArn.isSome then 1 else Call.creating desired.spec
      rw [callsCreate]
      split
      · rfl
      · exact ⟨_, rfl, rfl⟩
    | some seen =>
      change (b.remediate config answers desired seen).calls ∈ b.following config desired (.ok (some seen))
      unfold following
      dsimp only
      split
      · rename_i active
        exact b.callsRemediate config answers desired seen active
      · rename_i idle
        exact b.callsInactive config answers desired seen idle

theorem spelledFollowing (described : Except RemoteFault (Option (Observed σ))) :
    Spelled (b.following config desired described) fun c =>
      (c = .create desired.spec ∧ described = .ok none ∧ desired.knownArn = none) ∨
      ∃ seen, described = .ok (some seen) ∧ (b.rules config).classify seen.status = some .active ∧
        c.changes = true ∧ ∀ arn, c.arn? = some arn → seen.arn = some arn := by
  unfold following
  split
  · exact spelledNothing
  · split
    · exact spelledNothing
    · rename_i unknown
      refine Call.spelledOne fun c created => .inl ⟨created, rfl, ?_⟩
      simpa using unknown
  · rename_i seen
    split
    · rename_i active
      intro w spelled c member
      exact .inr ⟨seen, rfl, active, Call.spelledRemedying _ _ w spelled c member⟩
    · exact spelledNothing

theorem followingShape (described : Except RemoteFault (Option (Observed σ))) (w : List (Call σ υ))
    (follows : w ∈ b.following config desired described) :
    ∃ arn, w ∈ (1 + (Call.creating desired.spec + Call.remedying (b.resourceId desired.spec) arn) :
      Language (Call σ υ)) := by
  unfold following at follows
  split at follows
  · exact ⟨none, .inl follows⟩
  · split at follows
    · exact ⟨none, .inl follows⟩
    · exact ⟨none, .inr (.inl follows)⟩
  · rename_i seen
    split at follows
    · exact ⟨seen.arn, .inr (.inr follows)⟩
    · exact ⟨none, .inl follows⟩

theorem lettersReconcile {c : Call σ υ} (member : c ∈ (b.reconcile config answers desired).calls) :
    c = .describe (b.resourceId desired.spec) ∨
      (c = .create desired.spec ∧ answers.describe = .ok none ∧ desired.knownArn = none) ∨
      ∃ seen, answers.describe = .ok (some seen) ∧ (b.rules config).classify seen.status = some .active ∧
        c.changes = true ∧ ∀ arn, c.arn? = some arn → seen.arn = some arn := by
  obtain ⟨_, ⟨_, rfl, rfl⟩, rest, follows, split⟩ := b.callsReconcile config answers desired
  rw [← split] at member
  rcases List.mem_cons.mp member with here | later
  · exact .inl here
  · exact .inr (b.spelledFollowing config desired answers.describe rest follows c later)

theorem reconcileShape : ∃ arn, (b.reconcile config answers desired).calls ∈
    Call.describing (b.resourceId desired.spec) *
      (1 + (Call.creating desired.spec + Call.remedying (b.resourceId desired.spec) arn)) := by
  obtain ⟨first, described, rest, follows, split⟩ := b.callsReconcile config answers desired
  obtain ⟨arn, shaped⟩ := b.followingShape config desired answers.describe rest follows
  exact ⟨arn, first, described, rest, shaped, split⟩

theorem callsDelete : (b.delete config answers desired observed).calls =
    if (b.rules config).classify observed.status = some .deleting then []
    else [.delete (b.resourceId desired.spec)] := by
  unfold delete StatusRules.isDeleting
  dsimp only
  split
  · rename_i going
    rw [if_pos (by simpa using going)]
    rfl
  · rename_i staying
    unfold Pass.tell
    rw [if_neg (by simpa using staying), Pass.callsSettle, Pass.callsAsk]
    split <;> rfl

theorem deleteUnfinished : (b.delete config answers desired observed).result ≠ .ok .converged := by
  unfold delete
  dsimp only
  split
  · nofun
  · rw [Pass.resultSettle]
    split
    · nofun
    · intro finished
      exact (failureUnfinished finished).2 rfl

theorem callsFinalize : (b.finalize config answers desired).calls =
    .describe (b.resourceId desired.spec) ::
      match answers.describe with
      | .ok (some seen) =>
        if (b.rules config).classify seen.status = some .deleting then [] else [.delete (b.resourceId desired.spec)]
      | _ => [] := by
  unfold finalize
  rw [describeThen, Pass.callsSettle, Pass.callsAsk]
  refine congrArg _ ?_
  cases answers.describe with
  | error f =>
    dsimp only [Pass.ask]
    exact Pass.callsReturn _ _
  | ok found =>
    cases found with
    | none => rfl
    | some seen => exact b.callsDelete config answers desired seen

theorem finalizeShape : (b.finalize config answers desired).calls ∈
    Call.describing (b.resourceId desired.spec) * (1 + Call.deleting (b.resourceId desired.spec)) := by
  rw [callsFinalize]
  refine ⟨[_], ⟨_, rfl, rfl⟩, _, ?_, rfl⟩
  split
  · split
    · exact .inl rfl
    · exact .inr ⟨_, rfl, rfl⟩
  · exact .inl rfl

theorem finalizeDeletes : (∃ c ∈ (b.finalize config answers desired).calls, c.isDelete = true) ↔
    ∃ seen, answers.describe = .ok (some seen) ∧ (b.rules config).classify seen.status ≠ some .deleting := by
  rw [callsFinalize]
  cases answers.describe with
  | error f => simp [Call.isDelete]
  | ok found =>
    cases found with
    | none => simp [Call.isDelete]
    | some seen =>
      by_cases going : (b.rules config).classify seen.status = some .deleting <;> simp [going, Call.isDelete]

theorem finalizeConverged :
    (b.finalize config answers desired).result = .ok .converged ↔ answers.describe = .ok none := by
  unfold finalize
  rw [describeThen, Pass.resultSettle]
  cases answers.describe with
  | error f =>
    dsimp only [Pass.ask]
    rw [Pass.resultReturn]
    refine iff_of_false (fun finished => ?_) nofun
    cases failed : CallFailure.verdict ⟨b.operations.describe, f⟩ config with
    | ok v =>
      rw [failed] at finished
      cases finished
      exact (failureUnfinished failed).2 rfl
    | error e => rw [failed] at finished; cases finished
  | ok found =>
    cases found with
    | none => exact iff_of_true rfl rfl
    | some seen => exact iff_of_false (b.deleteUnfinished config answers desired seen) nofun

/- `describe`, then nothing, one creation, or tags and updates; to finalize, `describe` and at most one deletion. -/
theorem callsFollowGrammar :
    let calls := (b.reconcile config answers desired).calls
    let last := (b.finalize config answers desired).calls
    let id := b.resourceId desired.spec
    let phase (seen : Observed σ) := (b.rules config).classify seen.status
    (∃ arn, calls ∈ Call.describing id * (1 + (Call.creating desired.spec + Call.remedying id arn))) ∧
    (∀ c ∈ calls, c.isDelete = false) ∧
    ((∃ c ∈ calls, c.isCreate = true) → answers.describe = .ok none ∧ desired.knownArn = none) ∧
    ((∃ c ∈ calls, c.changes = true) →
      ∃ seen, answers.describe = .ok (some seen) ∧ phase seen = some .active) ∧
    (∀ c ∈ calls, ∀ arn, c.arn? = some arn → ∃ seen, answers.describe = .ok (some seen) ∧ seen.arn = some arn) ∧
    last ∈ Call.describing id * (1 + Call.deleting id) ∧
    ((∃ c ∈ last, c.isDelete = true) ↔
      ∃ seen, answers.describe = .ok (some seen) ∧ phase seen ≠ some .deleting) ∧
    ((b.finalize config answers desired).result = .ok .converged ↔ answers.describe = .ok none) := by
  intro calls last id phase
  refine ⟨b.reconcileShape config answers desired, ?_, ?_, ?_, ?_, b.finalizeShape config answers desired,
    b.finalizeDeletes config answers desired, b.finalizeConverged config answers desired⟩
  · intro c member
    rcases b.lettersReconcile config answers desired member with rfl | ⟨rfl, _⟩ | ⟨_, _, _, changes, _⟩
    · rfl
    · rfl
    · exact (Call.changesOnly changes).2
  · rintro ⟨c, member, creates⟩
    rcases b.lettersReconcile config answers desired member with rfl | ⟨_, unknown⟩ | ⟨_, _, _, changes, _⟩
    · cases creates
    · exact unknown
    · exact absurd ((Call.changesOnly changes).1.symm.trans creates) Bool.false_ne_true
  · rintro ⟨c, member, changes⟩
    rcases b.lettersReconcile config answers desired member with rfl | ⟨rfl, _⟩ | ⟨seen, shown, active, _⟩
    · cases changes
    · cases changes
    · exact ⟨seen, shown, active⟩
  · intro c member arn named
    rcases b.lettersReconcile config answers desired member with rfl | ⟨rfl, _⟩ | ⟨seen, shown, _, _, under⟩
    · cases named
    · cases named
    · exact ⟨seen, shown, under arn named⟩

end Binding
end DesiredState
