import DesiredState.Reconciliation

/-!
What a pass sends. Reads and tag calls are left out: only updates can be issued twice or in
part. The log keeps failed updates, each with its answer. -/
namespace DesiredState

namespace Call
variable {σ υ : Type}

def isCreate : Call σ υ → Bool
  | .create _ => true
  | _ => false

def isUpdate : Call σ υ → Bool
  | .update _ _ => true
  | _ => false

def touchesTags : Call σ υ → Bool
  | .listTags _ => true
  | .tagResource _ _ => true
  | .untagResource _ _ => true
  | _ => false

end Call

namespace Pass
variable {σ υ ε ε' α β : Type} {allowed : Call σ υ → Bool}

def Only (allowed : Call σ υ → Bool) (p : Pass σ υ ε α) : Prop := ∀ a ∈ p.attempts, allowed a.call = true

theorem onlySilent {p : Pass σ υ ε α} (silent : p.attempts = []) : p.Only allowed := by
  simp [Only, silent]

theorem onlyBind {p : Pass σ υ ε α} {f : α → Pass σ υ ε β} (first : p.Only allowed) (next : ∀ a, (f a).Only allowed) :
    (p >>= f).Only allowed := by
  cases h : p.result with
  | error e =>
    rw [bindError h]
    exact first
  | ok a =>
    rw [bindOk h]
    intro x member
    exact (List.mem_append.mp member).elim (first x) (next a x)

theorem onlyReturn {p : Pass σ υ ε α} (f : α → β) (first : p.Only allowed) :
    (p >>= fun a => pure (f a)).Only allowed :=
  onlyBind first fun _ => onlySilent rfl

theorem onlySettle {p : Pass σ υ ε α} (only : p.Only allowed) : (p.settle : Pass σ υ ε' (Except ε α)).Only allowed :=
  only

theorem onlyAsk {call : Call σ υ} (fits : allowed call = true) (kind : CallKind) (operation : String)
    (answer : Except RemoteFault α) : (ask call kind operation answer).Only allowed := by
  unfold ask Only
  split <;> simp [fits]

theorem onlyWeaker {wider : Call σ υ → Bool} (widens : ∀ c, allowed c = true → wider c = true)
    {p : Pass σ υ ε α} (only : p.Only allowed) : p.Only wider :=
  fun a member => widens _ (only a member)

end Pass

def Attempt.update? {σ υ : Type} (a : Attempt σ υ) : Option (υ × Option RemoteFault) :=
  match a.call with
  | .update _ u => some (u, a.failure)
  | _ => none

namespace Pass
variable {σ υ ε ε' α β : Type}

def updates (p : Pass σ υ ε α) : List (υ × Option RemoteFault) := p.attempts.filterMap Attempt.update?

def sent (p : Pass σ υ ε α) : List υ := p.updates.map Prod.fst

theorem updatesBindOk {p : Pass σ υ ε α} {a : α} (ok : p.result = .ok a) (f : α → Pass σ υ ε β) :
    (p >>= f).updates = p.updates ++ (f a).updates := by
  rw [bindOk ok]
  exact List.filterMap_append

theorem updatesBindError {p : Pass σ υ ε α} {e : ε} (failed : p.result = .error e) (f : α → Pass σ υ ε β) :
    (p >>= f).updates = p.updates := by
  rw [bindError failed]
  rfl

theorem updatesSettle (p : Pass σ υ ε α) (f : Except ε α → Pass σ υ ε' β) :
    ((p.settle : Pass σ υ ε' (Except ε α)) >>= f).updates = p.updates ++ (f p.result).updates :=
  updatesBindOk rfl f

theorem resultSettle (p : Pass σ υ ε α) (f : Except ε α → Pass σ υ ε' β) :
    ((p.settle : Pass σ υ ε' (Except ε α)) >>= f).result = (f p.result).result := rfl

theorem noUpdatesOnly {p : Pass σ υ ε α} (only : p.Only Call.touchesTags) : p.updates = [] := by
  refine List.filterMap_eq_nil_iff.mpr fun a member => ?_
  have tags := only a member
  unfold Attempt.update?
  split
  · rename_i here
    rw [here] at tags
    cases tags
  · rfl

theorem updatesReturn (p : Pass σ υ ε α) (f : α → β) : (p >>= fun a => pure (f a)).updates = p.updates := by
  cases h : p.result with
  | ok a => rw [updatesBindOk h]; exact List.append_nil _
  | error e => exact updatesBindError h _

theorem resultReturn (p : Pass σ υ ε α) (f : α → β) :
    (p >>= fun a => pure (f a)).result = p.result.map f := by
  cases h : p.result with
  | ok a => rw [bindOk h]; rfl
  | error e => rw [bindError h]; rfl

theorem settleThen (p : Pass σ υ ε α) (f : Except ε α → Pass σ υ ε' β) :
    ((p.settle : Pass σ υ ε' (Except ε α)) >>= f) =
      ⟨p.attempts ++ (f p.result).attempts, p.metrics ++ (f p.result).metrics, (f p.result).result⟩ := rfl

theorem bindSettled (p : Pass σ υ ε α) (f : α → Pass σ υ ε β) :
    p >>= f = p.settle >>= fun r =>
      match r with
      | .ok a => f a
      | .error e => .ofExcept (.error e) := by
  rw [settleThen]
  cases h : p.result with
  | ok a => rw [bindOk h]
  | error e => rw [bindError h]; simp [ofExcept]

theorem returned (p : Pass σ υ ε α) (f : α → β) :
    (p >>= fun a => pure (f a)) = ⟨p.attempts, p.metrics, p.result.map f⟩ := by
  cases h : p.result with
  | ok a => rw [bindOk h, attemptsPure, metricsPure, List.append_nil, List.append_nil]; rfl
  | error e => rw [bindError h]; rfl

end Pass

theorem Tags.syncInTurn {σ υ : Type} (answers : Answers σ) (arn : String) (desired observed : StringMap) :
    (sync answers arn desired observed : Pass σ υ CallFailure Change) =
      let plan := desired.reconcile observed
      (if plan.written.isEmpty then .ofExcept (.ok ())
        else .tell (.tagResource arn plan.written) .update tagOperation answers.tagResource) >>= fun _ =>
      (if plan.toRemove.isEmpty then .ofExcept (.ok ())
        else .tell (.untagResource arn plan.toRemove) .update untagOperation answers.untagResource) >>= fun _ =>
      .ofExcept (.ok ⟨plan.written.keys, plan.toRemove⟩) := by
  unfold sync
  dsimp only
  split <;> split <;> rfl

theorem Tags.onlySync {σ υ : Type} (answers : Answers σ) (arn : String) (desired observed : StringMap) :
    (sync answers arn desired observed : Pass σ υ CallFailure Change).Only Call.touchesTags := by
  rw [syncInTurn]
  refine Pass.onlyBind ?_ fun _ => Pass.onlyBind ?_ fun _ => Pass.onlySilent rfl
  · split
    · exact Pass.onlySilent rfl
    · exact Pass.onlyAsk rfl _ _ _
  · split
    · exact Pass.onlySilent rfl
    · exact Pass.onlyAsk rfl _ _ _

/- The answers that updates get when all of them are sent, the first as number `n`. -/
def Answers.answered {σ υ : Type} (answers : Answers σ) : Nat → List υ → List (υ × Option RemoteFault)
  | _, [] => []
  | n, u :: rest => (u, answers.update n) :: answers.answered (n + 1) rest

theorem Answers.answeredUpdates {σ υ : Type} (answers : Answers σ) (n : Nat) (us : List υ) :
    (answers.answered n us).map Prod.fst = us := by
  induction us generalizing n with
  | nil => rfl
  | cons u rest ih => simp only [answered, List.map_cons, ih]

theorem Answers.answeredQuiet {σ υ : Type} {answers : Answers σ} (quiet : ∀ n, answers.update n = none) (n : Nat)
    (us : List υ) : answers.answered n us = us.map fun u => (u, none) := by
  induction us generalizing n with
  | nil => rfl
  | cons u rest ih => rw [answered, quiet, ih, List.map_cons]

namespace Binding
variable {σ υ : Type}

def accepts (b : Binding σ υ) (e : υ × Option RemoteFault) : Bool := e.2.all (b.benign e.1)

inductive Sending (b : Binding σ υ) (planned : List (υ × Option RemoteFault)) :
    List (υ × Option RemoteFault) → Except CallFailure Unit → Prop where
  | whole (fine : ∀ e ∈ planned, b.accepts e = true) : Sending b planned planned (.ok ())
  | cut {before u f rest} (split : planned = before ++ (u, some f) :: rest)
      (fine : ∀ e ∈ before, b.accepts e = true) (counts : b.benign u f = false) :
      Sending b planned (before ++ [(u, some f)]) (.error ⟨b.operation u, f⟩)

theorem Sending.later {b : Binding σ υ} {e planned updates result} (accepted : b.accepts e = true)
    (rest : Sending b planned updates result) : Sending b (e :: planned) (e :: updates) result := by
  have extend {es : List (υ × Option RemoteFault)} (fine : ∀ x ∈ es, b.accepts x = true) :
      ∀ x ∈ e :: es, b.accepts x = true := by
    intro x member
    rcases List.mem_cons.mp member with rfl | inside
    · exact accepted
    · exact fine x inside
  cases rest with
  | whole fine => exact .whole (extend fine)
  | cut split fine counts => exact .cut (by rw [split]; rfl) (extend fine) counts

theorem sendFromSending (b : Binding σ υ) (answers : Answers σ) (id : ResourceId) (n : Nat) (us : List υ) :
    Sending b (answers.answered n us) (b.sendFrom answers id n us).updates (b.sendFrom answers id n us).result := by
  induction us generalizing n with
  | nil => exact .whole (by simp [Answers.answered])
  | cons u rest ih =>
    unfold sendFrom
    rw [Pass.updatesSettle, Pass.resultSettle]
    unfold Answers.answered
    cases answer : answers.update n with
    | none => exact .later rfl (ih (n + 1))
    | some f =>
      by_cases benign : b.benign u f = true
      · have next := Sending.later (e := (u, some f)) benign (ih (n + 1))
        simpa [Pass.tell, Pass.ask, Pass.updates, Attempt.update?, benign] using next
      · have stop : Sending b ((u, some f) :: answers.answered (n + 1) rest) ([] ++ [(u, some f)])
            (.error ⟨b.operation u, f⟩) :=
          .cut rfl (by simp) (by simpa using benign)
        simpa [Pass.tell, Pass.ask, Pass.updates, Attempt.update?, Pass.fail, benign] using stop

theorem Sending.isPrefix {b : Binding σ υ} {planned updates result}
    (sending : Sending b planned updates result) : updates <+: planned := by
  cases sending with
  | whole fine => exact List.prefix_refl _
  | @cut before u f rest split fine counts => exact ⟨rest, by rw [split]; simp⟩

theorem Sending.okIff {b : Binding σ υ} {planned updates result} (sending : Sending b planned updates result) :
    result = .ok () ↔ updates = planned ∧ ∀ e ∈ updates, b.accepts e = true := by
  cases sending with
  | whole fine => exact ⟨fun _ => ⟨rfl, fine⟩, fun _ => rfl⟩
  | @cut before u f rest split fine counts =>
    constructor
    · intro ok
      cases ok
    · rintro ⟨_, all⟩
      have accepted : b.benign u f = true := all (u, some f) (by simp)
      rw [counts] at accepted
      cases accepted

theorem Sending.alone {b : Binding σ υ} {e updates result} (sending : Sending b [e] updates result) :
    updates = [e] := by
  cases sending with
  | whole fine => rfl
  | @cut before u f rest split fine counts =>
    cases before with
    | nil => cases split; rfl
    | cons x before => simp at split

theorem Sending.undisturbed {b : Binding σ υ} {planned updates result} (sending : Sending b planned updates result)
    (quiet : ∀ e ∈ planned, e.2 = none) : updates = planned ∧ ∀ e ∈ updates, b.accepts e = true := by
  cases sending with
  | whole fine => exact ⟨rfl, fine⟩
  | cut split fine counts =>
    have failed := quiet _ (split ▸ List.mem_append_right _ List.mem_cons_self)
    cases failed

theorem onlySyncTags (b : Binding σ υ) (answers : Answers σ) (desired : Desired σ) (observed : Observed σ) :
    (b.syncTags answers desired observed).Only Call.touchesTags := by
  have settled (arn : String) (want current : StringMap) : (do
      let _ ← Tags.sync answers arn want current
      return some want : Pass σ υ CallFailure (Option StringMap)).Only Call.touchesTags :=
    Pass.onlyReturn _ (Tags.onlySync answers arn want current)
  unfold syncTags
  dsimp only
  split
  · exact Pass.onlySilent rfl
  · split
    · exact Pass.onlySilent rfl
    · change Pass.Only _ (Pass.mk _ _ _)
      split
      · exact settled _ _ _
      · exact Pass.onlyBind (Pass.onlyAsk rfl _ _ _) fun _ => settled _ _ _

theorem noUpdatesSyncTags (b : Binding σ υ) (answers : Answers σ) (desired : Desired σ) (observed : Observed σ) :
    (b.syncTags answers desired observed).updates = [] :=
  Pass.noUpdatesOnly (b.onlySyncTags answers desired observed)

section
variable (b : Binding σ υ) (config : Config) (answers : Answers σ) (desired : Desired σ)

theorem describeThen {α : Type} (k : Described σ → Pass σ υ Fault α) :
    b.describe config answers desired >>= k =
      (Pass.ask (.describe (b.resourceId desired.spec)) .readOne b.operations.describe answers.describe :
        Pass σ υ CallFailure (Option (Observed σ))).settle >>= fun r =>
      match r with
      | .ok (some seen) => k (.found seen)
      | .ok none => k .missing
      | .error f => .ofExcept (f.verdict config) >>= fun v => k (.stopped v) := by
  unfold describe
  cases answers.describe with
  | ok found => cases found <;> rfl
  | error f =>
    rw [Pass.settleThen, Pass.settleThen]
    dsimp only [Pass.ask]
    cases CallFailure.verdict ⟨b.operations.describe, f⟩ config <;> rfl

theorem reconcileFound {seen : Observed σ} (found : answers.describe = .ok (some seen)) :
    let rest := b.remediate config answers desired seen
    let pass := b.reconcile config answers desired
    pass.attempts = ⟨.describe (b.resourceId desired.spec), none⟩ :: rest.attempts ∧ pass.result = rest.result := by
  unfold reconcile describe Pass.ask
  rw [found]
  exact ⟨rfl, rfl⟩

theorem reconcileMissing (missing : answers.describe = .ok none) :
    let rest := b.create config answers desired
    let pass := b.reconcile config answers desired
    pass.attempts = ⟨.describe (b.resourceId desired.spec), none⟩ :: rest.attempts ∧ pass.result = rest.result := by
  unfold reconcile describe Pass.ask
  rw [missing]
  exact ⟨rfl, rfl⟩

theorem reconcileStopped {f : RemoteFault} (failed : answers.describe = .error f) :
    let pass := b.reconcile config answers desired
    pass.attempts = [⟨.describe (b.resourceId desired.spec), some f⟩] ∧
      pass.result =
        (CallFailure.verdict ⟨b.operations.describe, f⟩ config).map fun v => unseen desired v none := by
  have read : b.describe config answers desired =
      (Pass.ask (.describe (b.resourceId desired.spec)) .readOne b.operations.describe (.error f) :
        Pass σ υ CallFailure (Option (Observed σ))).settle >>= fun _ => do
          return .stopped (← .ofExcept (CallFailure.verdict ⟨b.operations.describe, f⟩ config)) := by
    unfold describe
    rw [failed]
    rfl
  unfold reconcile
  rw [read]
  cases CallFailure.verdict ⟨b.operations.describe, f⟩ config <;> exact ⟨rfl, rfl⟩

theorem reconcileUnread {f : RemoteFault} (failed : answers.describe = .error f) :
    (b.reconcile config answers desired).updates = [] := by
  unfold Pass.updates
  rw [(b.reconcileStopped config answers desired failed).1]
  rfl

end

end Binding
end DesiredState
