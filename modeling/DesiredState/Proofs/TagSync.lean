import DesiredState.Kind
import DesiredState.Proofs.Courses
import DesiredState.Proofs.Creation
import DesiredState.Proofs.MapChanges

/-!
Tags before and after a pass. At most two calls are due for them; whichever of these fails, what is due afterwards is
what was due without the calls that succeeded, and once none fails the tags are the desired ones. -/
namespace DesiredState
open SortedMap

namespace Tags
variable {σ υ : Type}

def due (arn : String) (desired current : StringMap) : List (Call σ υ) :=
  (if (missing desired current).isEmpty then [] else [.tagResource arn (missing desired current)]) ++
    if (foreign desired current).isEmpty then [] else [.untagResource arn (foreign desired current)]

def receive (held : StringMap) (a : Attempt σ υ) : StringMap :=
  match a.failure, a.call with
  | none, .tagResource _ tags => held.writing tags
  | none, .untagResource _ keys => held.without keys
  | _, _ => held

def succeeded (attempts : List (Attempt σ υ)) : List (Call σ υ) :=
  (attempts.filter fun a => a.failure.isNone).map Attempt.call

def attempted (answers : Answers σ) : List (Call σ υ) → List (Attempt σ υ)
  | [] => []
  | call :: rest =>
    match answers.failure 0 call with
    | none => ⟨call, none⟩ :: attempted answers rest
    | some f => [⟨call, some f⟩]

theorem attemptedPrefix (answers : Answers σ) (calls : List (Call σ υ)) :
    (attempted answers calls).map Attempt.call <+: calls := by
  induction calls with
  | nil => exact List.prefix_refl _
  | cons call rest ih =>
    unfold attempted
    cases answers.failure 0 call with
    | none => exact List.cons_prefix_cons.mpr ⟨rfl, ih⟩
    | some f => exact ⟨rest, rfl⟩

theorem attemptedAll {answers : Answers σ} {calls : List (Call σ υ)}
    (fine : ∀ a ∈ attempted answers calls, a.failure = none) :
    attempted answers calls = calls.map fun call => ⟨call, none⟩ := by
  induction calls with
  | nil => rfl
  | cons call rest ih =>
    unfold attempted at fine ⊢
    cases answered : answers.failure 0 call with
    | none =>
      rw [answered] at fine
      exact congrArg _ (ih (List.forall_mem_cons.mp fine).2)
    | some f =>
      rw [answered] at fine
      cases fine _ List.mem_cons_self

section
variable (answers : Answers σ) (arn : String) (desired current : StringMap)

theorem syncSent :
    let pass : Pass σ υ CallFailure Change := sync answers arn desired current
    pass.attempts = attempted answers (due arn desired current) ∧
      ∀ c, pass.result = .ok c ↔
        c = ⟨(missing desired current).keys, foreign desired current⟩ ∧ ∀ a ∈ pass.attempts, a.failure = none := by
  rw [syncInTurn]
  dsimp only
  rw [writtenMissing, removedForeign]
  unfold due
  cases (missing desired current).isEmpty <;> cases (foreign desired current).isEmpty <;>
    cases tagged : answers.tagResource <;> cases untagged : answers.untagResource <;>
    simp [attempted, Answers.failure, tagged, untagged, Pass.tell, Pass.ask, Pass.ofExcept, bind, Pass.andThen, eq_comm]

theorem isEmptyIff {m : StringMap} : m.isEmpty = true ↔ m = empty := by
  unfold SortedMap.isEmpty
  rw [List.isEmpty_iff]
  exact ⟨fun none' => SortedMap.ext none', fun same => by rw [same]; rfl⟩

theorem dueItself : (due arn desired desired : List (Call σ υ)) = [] := by
  unfold due
  rw [(missingNothing desired desired).mpr fun _ _ held => held, foreignItself]
  rfl

variable {arn desired current}

theorem dueNothing (nothing : (due arn desired current : List (Call σ υ)) = []) : current = desired := by
  obtain ⟨written, removed⟩ := List.append_eq_nil_iff.mp nothing
  have complete : missing desired current = empty := by
    refine isEmptyIff.mp (Classical.not_not.mp fun more => ?_)
    rw [if_neg more] at written
    cases written
  have clean : foreign desired current = [] := by
    refine List.isEmpty_iff.mp (Classical.not_not.mp fun more => ?_)
    rw [if_neg more] at removed
    cases removed
  have same := withoutForeign desired current complete
  rwa [clean] at same

theorem dueAfterFirst {call : Call σ υ} {rest : List (Call σ υ)} (next : due arn desired current = call :: rest) :
    due arn desired (receive current ⟨call, none⟩) = rest := by
  unfold due at next
  cases complete : (missing desired current).isEmpty with
  | false =>
    rw [complete] at next
    obtain ⟨rfl, rfl⟩ := List.cons.inj next
    unfold due receive
    dsimp only
    rw [missingWritten, foreignWritten]
    rfl
  | true =>
    rw [complete] at next
    cases clean : (foreign desired current).isEmpty with
    | true => rw [clean] at next; cases next
    | false =>
      rw [clean] at next
      obtain ⟨rfl, rfl⟩ := List.cons.inj next
      unfold receive
      dsimp only
      rw [withoutForeign desired current (isEmptyIff.mp complete)]
      exact dueItself arn desired

/- Whatever fails, the due calls are those that succeeded and those that are due afterwards. -/
theorem dueAfter (answers : Answers σ) (current : StringMap) :
    let attempts : List (Attempt σ υ) := attempted answers (due arn desired current)
    due arn desired current = succeeded attempts ++ due arn desired (attempts.foldl receive current) := by
  dsimp only
  generalize planned : due arn desired current = calls
  induction calls generalizing current with
  | nil => exact planned.symm
  | cons call rest ih =>
    unfold attempted
    cases answers.failure 0 call with
    | none => exact congrArg _ (ih _ (dueAfterFirst planned))
    | some f => exact planned.symm

end

structure Syncs (arn : String) (desired current : StringMap) (p : Pass σ υ CallFailure Change) : Prop where
  issued : p.calls <+: due arn desired current
  resumes : due arn desired current = succeeded p.attempts ++ due arn desired (p.attempts.foldl receive current)
  outcome : ∀ c, p.result = .ok c ↔
    c = ⟨(missing desired current).keys, foreign desired current⟩ ∧ ∀ a ∈ p.attempts, a.failure = none
  untroubled : (∀ a ∈ p.attempts, a.failure = none) →
    p.calls = due arn desired current ∧ p.attempts.foldl receive current = desired

theorem syncs (answers : Answers σ) (arn : String) (desired current : StringMap) :
    Syncs arn desired current (sync answers arn desired current : Pass σ υ CallFailure Change) := by
  obtain ⟨sent, outcome⟩ := @syncSent σ υ answers arn desired current
  generalize (sync answers arn desired current : Pass σ υ CallFailure Change) = p at sent outcome ⊢
  have resumes : due arn desired current =
      succeeded p.attempts ++ due arn desired (p.attempts.foldl receive current) := by
    rw [sent]
    exact dueAfter answers current
  refine ⟨?_, resumes, outcome, fun fine => ?_⟩
  · unfold Pass.calls
    rw [sent]
    exact attemptedPrefix answers _
  · have all := attemptedAll (sent ▸ fine)
    have calls : succeeded p.attempts = due arn desired current := by
      unfold succeeded
      rw [sent, all]
      simp [List.filter_map, Function.comp_def]
    have nothing : due arn desired (p.attempts.foldl receive current) = ([] : List (Call σ υ)) := by
      rw [calls] at resumes
      exact List.append_right_eq_self.mp resumes.symm
    refine ⟨?_, dueNothing nothing⟩
    unfold Pass.calls
    rw [sent, all]
    simp [Function.comp_def]

end Tags

namespace Binding
variable {σ υ : Type}

def wanted (b : Binding σ υ) (desired : Desired σ) : StringMap := (b.tags desired.spec).getD .empty

structure Retags (b : Binding σ υ) (answers : Answers σ) (desired : Desired σ) (observed : Observed σ)
    (p : Pass σ υ Fault (Remediation σ)) : Prop where
  silent : observed.tags = some (b.wanted desired) → ∀ a ∈ p.attempts, a.call.touchesTags = false
  reported : ∀ r, p.result = .ok r → (∀ a ∈ p.attempts, a.call.touchesTags = true → a.failure = none) →
    r.resource.tags = some (b.wanted desired) ∧
      ∀ held, observed.tags.or answers.listTags.toOption = some held →
        p.attempts.foldl Tags.receive held = b.wanted desired

section
variable (b : Binding σ υ) (config : Config) (answers : Answers σ) (desired : Desired σ) (observed : Observed σ)

theorem syncTagsUnsettled (stale : observed.tags ≠ some (b.wanted desired)) {arn : String}
    (named : observed.arn = some arn) :
    (b.syncTags answers desired observed).attempts =
      match observed.tags, answers.listTags with
      | some held, _ => (Tags.sync answers arn (b.wanted desired) held : Pass σ υ CallFailure Tags.Change).attempts
      | none, .ok held => ⟨.listTags arn, none⟩ ::
          (Tags.sync answers arn (b.wanted desired) held : Pass σ υ CallFailure Tags.Change).attempts
      | none, .error f => [⟨.listTags arn, some f⟩] := by
  unfold wanted at stale ⊢
  unfold syncTags
  dsimp only
  rw [if_neg stale, named]
  dsimp only
  cases observed.tags with
  | some held =>
    dsimp only
    rw [Pass.bindOk (p := pure held) rfl, Pass.returned]
    rfl
  | none =>
    cases listed : answers.listTags with
    | ok held =>
      have read : (Tags.read answers arn : Pass σ υ CallFailure StringMap) =
          ⟨[⟨.listTags arn, none⟩], [.ofCall .readMany Tags.listOperation none], .ok held⟩ := by
        unfold Tags.read Pass.ask
        rw [listed]
      dsimp only
      rw [Pass.bindOk (congrArg Pass.result read), Pass.returned, read]
      rfl
    | error f =>
      have read : (Tags.read answers arn : Pass σ υ CallFailure StringMap) =
          ⟨[⟨.listTags arn, some f⟩], [.ofCall .readMany Tags.listOperation (some f)],
            .error ⟨Tags.listOperation, f⟩⟩ := by
        unfold Tags.read Pass.ask
        rw [listed]
      dsimp only
      rw [Pass.bindError (congrArg Pass.result read), read]

theorem syncTagsOk {synced : Option StringMap} (ok : (b.syncTags answers desired observed).result = .ok synced) :
    synced.or observed.tags = some (b.wanted desired) := by
  unfold syncTags at ok
  dsimp only at ok
  split at ok
  · rename_i settled
    cases ok
    exact settled
  · split at ok
    · cases ok
    · rename_i arn _
      have last (first : Pass σ υ CallFailure StringMap)
          (ok : ((first >>= fun current => Tags.sync answers arn (b.wanted desired) current >>= fun _ =>
            pure (some (b.wanted desired))).result.mapError TagFault.call) = .ok synced) :
          synced.or observed.tags = some (b.wanted desired) := by
        cases known : first.result with
        | error f => rw [Pass.bindError known] at ok; cases ok
        | ok current =>
          rw [Pass.bindOk known, Pass.returned] at ok
          dsimp only at ok
          cases done : (Tags.sync answers arn (b.wanted desired) current : Pass σ υ CallFailure Tags.Change).result with
          | ok c => rw [done] at ok; cases ok; rfl
          | error f => rw [done] at ok; cases ok
      dsimp only at ok
      split at ok
      · exact last (pure _) ok
      · exact last _ ok

theorem syncTagsUntroubled (fine : ∀ a ∈ (b.syncTags answers desired observed).attempts, a.failure = none)
    {f : TagFault} (failed : (b.syncTags answers desired observed).result = .error f) : f = .noArn (b.noArn desired) := by
  obtain ⟨m, stop, course, tagged⟩ := b.syncTagsRuns answers desired observed 0
  obtain rfl := course.untroubled fun a member => by rw [fine a member]; rfl
  exact tagged.2 f failed

theorem syncTagsHeld {held : StringMap} (seen : observed.tags.or answers.listTags.toOption = some held)
    (fine : ∀ a ∈ (b.syncTags answers desired observed).attempts, a.failure = none) {synced : Option StringMap}
    (ok : (b.syncTags answers desired observed).result = .ok synced) :
    (b.syncTags answers desired observed).attempts.foldl Tags.receive held = b.wanted desired := by
  by_cases settled : observed.tags = some (b.wanted desired)
  · rw [b.syncSettledTags answers desired observed settled]
    rw [settled] at seen
    exact (Option.some.inj seen).symm
  · cases named : observed.arn with
    | none =>
      unfold wanted at settled
      unfold syncTags at ok
      dsimp only at ok
      rw [if_neg settled, named] at ok
      cases ok
    | some arn =>
      have attempts := b.syncTagsUnsettled answers desired observed settled named
      rw [attempts] at fine ⊢
      have synced (current : StringMap) : Tags.Syncs arn (b.wanted desired) current
          (Tags.sync answers arn (b.wanted desired) current : Pass σ υ CallFailure Tags.Change) :=
        Tags.syncs answers arn (b.wanted desired) current
      cases tags : observed.tags with
      | some current =>
        rw [tags] at seen fine
        obtain rfl := Option.some.inj seen
        exact ((synced _).untroubled fine).2
      | none =>
        rw [tags] at seen fine
        cases listed : answers.listTags with
        | error f => rw [listed] at seen; cases seen
        | ok current =>
          rw [listed] at seen fine
          obtain rfl := Option.some.inj seen
          exact ((synced _).untroubled (List.forall_mem_cons.mp fine).2).2

theorem remediateAttempts (here : b.inactive? config observed.status = none) :
    ∃ rest : List (Attempt σ υ), (∀ a ∈ rest, a.call.isUpdate = true) ∧
      (b.remediate config answers desired observed).attempts =
        (b.syncTags answers desired observed).attempts ++ rest := by
  rw [b.remediateActive config answers desired observed here, Pass.settleThen]
  refine ⟨_, ?_, rfl⟩
  change Pass.Only Call.isUpdate _
  unfold afterTags
  split
  · exact Pass.onlyReturn _ (Pass.onlySilent rfl)
  · exact Pass.onlyReturn _ (b.onlyApplyFirst config answers desired observed _)

theorem heldThroughUpdates {rest : List (Attempt σ υ)} (updates : ∀ a ∈ rest, a.call.isUpdate = true)
    (held : StringMap) : rest.foldl Tags.receive held = held := by
  induction rest with
  | nil => rfl
  | cons a rest ih =>
    obtain ⟨first, later⟩ := List.forall_mem_cons.mp updates
    have kept : Tags.receive held a = held := by
      unfold Tags.receive
      split <;> simp_all [Call.isUpdate]
    rw [List.foldl_cons, kept]
    exact ih later

theorem applyFirstTags {δ : Delta} {r : Remediation σ}
    (ok : (b.applyFirst config answers desired observed δ).result = .ok r) : r.resource.tags = observed.tags := by
  unfold applyFirst at ok
  split at ok
  · cases ok; rfl
  · cases ok; rfl
  · rw [Pass.resultSettle] at ok
    split at ok
    · cases ok; rfl
    · rename_i f _
      rw [Pass.resultReturn] at ok
      cases failed : f.verdict config with
      | ok v => rw [failed] at ok; cases ok; rfl
      | error e => rw [failed] at ok; cases ok

theorem remediateTagged (here : b.inactive? config observed.status = none) {r : Remediation σ}
    (ok : (b.remediate config answers desired observed).result = .ok r)
    (fine : ∀ a ∈ (b.syncTags answers desired observed).attempts, a.failure = none) :
    ∃ synced, (b.syncTags answers desired observed).result = .ok synced ∧
      r.resource.tags = synced.or observed.tags := by
  rw [b.remediateActive config answers desired observed here, Pass.resultSettle] at ok
  cases tagged : (b.syncTags answers desired observed).result with
  | error f =>
    cases b.syncTagsUntroubled answers desired observed fine tagged
    rw [tagged] at ok
    cases ok
  | ok synced =>
    rw [tagged] at ok
    change (_ >>= fun r => pure _ : Pass σ υ Fault (Remediation σ)).result = _ at ok
    rw [Pass.resultReturn] at ok
    cases applied : (b.applyFirst config answers desired observed (b.delta desired observed.spec)).result with
    | error e => rw [applied] at ok; cases ok
    | ok inner =>
      rw [applied] at ok
      cases ok
      exact ⟨synced, rfl, congrArg synced.or (b.applyFirstTags config answers desired observed applied)⟩

theorem remediateRetags (here : b.inactive? config observed.status = none) :
    b.Retags answers desired observed (b.remediate config answers desired observed) := by
  obtain ⟨rest, updates, attempts⟩ := b.remediateAttempts config answers desired observed here
  refine ⟨fun settled a member => ?_, fun r ok fine => ?_⟩
  · rw [attempts, b.syncSettledTags answers desired observed settled] at member
    have update := updates a member
    cases call : a.call <;> simp [call, Call.isUpdate, Call.touchesTags] at update ⊢
  · have fine : ∀ a ∈ (b.syncTags answers desired observed).attempts, a.failure = none := fun a member =>
      fine a (attempts ▸ List.mem_append_left _ member) (b.onlySyncTags answers desired observed a member)
    obtain ⟨synced, tagged, tags⟩ := b.remediateTagged config answers desired observed here ok fine
    refine ⟨tags.trans (b.syncTagsOk answers desired observed tagged), fun held seen => ?_⟩
    rw [attempts, List.foldl_append, b.syncTagsHeld answers desired observed seen fine tagged]
    exact heldThroughUpdates updates _

theorem Retags.afterDescribing {id : ResourceId} {p q : Pass σ υ Fault (Remediation σ)}
    (retags : b.Retags answers desired observed p)
    (looks : q.attempts = ⟨.describe id, none⟩ :: p.attempts ∧ q.result = p.result) :
    b.Retags answers desired observed q := by
  obtain ⟨attempts, result⟩ := looks
  refine ⟨fun settled => ?_, fun r ok fine => ?_⟩
  · rw [attempts]
    exact List.forall_mem_cons.mpr ⟨rfl, retags.silent settled⟩
  · rw [attempts] at fine ⊢
    exact retags.reported r (result ▸ ok) (List.forall_mem_cons.mp fine).2

end

/- A sync sends what is due and nothing else, for any maps; a pass leaves its resource with the tags of its spec unless
a call for them failed. -/
theorem tagsReachDesired (b : Binding σ υ) (config : Config) (answers : Answers σ) :
    (∀ arn desired current, Tags.Syncs arn desired current
      (Tags.sync answers arn desired current : Pass σ υ CallFailure Tags.Change)) ∧
    ∀ (desired : Desired σ) (observed : Observed σ),
      StatusRules.isActive ((b.rules config).classify observed.status) = true →
        b.Retags answers desired observed (b.remediate config answers desired observed) ∧
        (answers.describe = .ok (some observed) →
          b.Retags answers desired observed (b.reconcile config answers desired)) := by
  refine ⟨Tags.syncs answers, fun desired observed active => ?_⟩
  have here := (b.activeHere config observed active).1
  have retags := b.remediateRetags config answers desired observed here
  exact ⟨retags, fun found => retags.afterDescribing b answers desired observed
    (b.reconcileFound config answers desired found)⟩

theorem failedRemovalDueAgain :
    let wanted : StringMap := .ofList [("stage", "prod"), ("team", "core")]
    let held : StringMap := .ofList [("old", "x"), ("stage", "test")]
    let answers (failure : Option RemoteFault) : Answers Addon.Spec :=
      ⟨.ok none, .ok none, fun _ => none, none, .ok held, none, failure⟩
    let sync : Pass Addon.Spec Addon.Update CallFailure Tags.Change :=
      Tags.sync (answers (some ⟨"ThrottlingException", "slow down"⟩)) "arn" wanted held
    let spec : Addon.Spec := { name := "coredns", clusterName := "main" }
    let desired : Desired Addon.Spec := ⟨{ spec with tags := some wanted }, .empty, none⟩
    let observed : Observed Addon.Spec := ⟨spec, some "ACTIVE", some "arn", none⟩
    Tags.due "arn" wanted (sync.attempts.foldl Tags.receive held) =
        [(.untagResource "arn" ["old"] : Call Addon.Spec Addon.Update)] ∧
      ∃ r, (Addon.binding.remediate .default (answers none) desired observed).result = .ok r ∧
        r.resource.tags = some wanted := by
  intro wanted held answers sync spec desired observed
  constructor
  · have throttled := Addon.binding.tagsReachDesired .default (answers (some ⟨"ThrottlingException", "slow down"⟩))
    have synced : Tags.Syncs "arn" wanted held sync := throttled.1 "arn" wanted held
    have first : Tags.due "arn" wanted held = Tags.succeeded sync.attempts ++
        [(.untagResource "arn" ["old"] : Call Addon.Spec Addon.Update)] := by decide +kernel
    exact List.append_cancel_left (synced.resumes.symm.trans first)
  · have fine : ∀ a ∈ (Addon.binding.remediate .default (answers none) desired observed).attempts,
        a.call.touchesTags = true → a.failure = none := by decide +kernel
    have finished : (Addon.binding.remediate .default (answers none) desired observed).result.isOk = true := by
      decide +kernel
    cases ok : (Addon.binding.remediate .default (answers none) desired observed).result with
    | error e => rw [ok] at finished; cases finished
    | ok r =>
      have retags := ((Addon.binding.tagsReachDesired .default (answers none)).2 desired observed (by decide +kernel)).1
      exact ⟨r, rfl, (retags.reported r ok fine).1⟩

end Binding
end DesiredState
