import DesiredState.Proofs.SingleCategory

/-!
The course of a pass: its calls in order, each with the answer that the remote has for it, up to the first that fails
for good. What a pass records, and how it ends, are read off its course. -/
namespace DesiredState

def errorOf? {ε α : Type} : Except ε α → Option ε
  | .ok _ => none
  | .error e => some e

namespace Call
variable {σ υ : Type}

def kind : Call σ υ → CallKind
  | .describe _ => .readOne
  | .create _ => .create
  | .update _ _ => .update
  | .delete _ => .delete
  | .listTags _ => .readMany
  | .tagResource _ _ => .update
  | .untagResource _ _ => .update

def next (n : Nat) : Call σ υ → Nat
  | .update _ _ => n + 1
  | _ => n

end Call

namespace Answers
variable {σ υ : Type}

def failure (answers : Answers σ) (n : Nat) : Call σ υ → Option RemoteFault
  | .describe _ => errorOf? answers.describe
  | .create _ => errorOf? answers.create
  | .update _ _ => answers.update n
  | .delete _ => answers.delete
  | .listTags _ => errorOf? answers.listTags
  | .tagResource _ _ => answers.tagResource
  | .untagResource _ _ => answers.untagResource

def log (answers : Answers σ) : Nat → List (Call σ υ) → List (Attempt σ υ)
  | _, [] => []
  | n, call :: rest => ⟨call, answers.failure n call⟩ :: answers.log (call.next n) rest

end Answers

def Pass.calls {σ υ ε α : Type} (p : Pass σ υ ε α) : List (Call σ υ) := p.attempts.map Attempt.call

namespace Binding
variable {σ υ : Type}

def operationOf (b : Binding σ υ) : Call σ υ → String
  | .describe _ => b.operations.describe
  | .create _ => b.operations.create
  | .update _ u => b.operation u
  | .delete _ => b.operations.delete
  | .listTags _ => Tags.listOperation
  | .tagResource _ _ => Tags.tagOperation
  | .untagResource _ _ => Tags.untagOperation

def metric (b : Binding σ υ) (a : Attempt σ υ) : Metric :=
  ⟨a.call.kind, b.operationOf a.call, a.failure.map RemoteFault.code⟩

def excuses (b : Binding σ υ) : Call σ υ → RemoteFault → Bool
  | .update _ u, f => b.benign u f
  | _, _ => false

/- Updates are numbered from `n` on; `m` is the number of the next one after the course. -/
inductive Course (b : Binding σ υ) (answers : Answers σ) :
    Nat → List (Attempt σ υ) → List Metric → Nat → Option CallFailure → Prop where
  | done {n} : Course b answers n [] [] n none
  | passed {n} (call) {attempts metrics m stop} (fine : (answers.failure n call).all (b.excuses call) = true)
      (rest : Course b answers (call.next n) attempts metrics m stop) :
      Course b answers n (⟨call, answers.failure n call⟩ :: attempts)
        (b.metric ⟨call, answers.failure n call⟩ :: metrics) m stop
  | stopped {n} (call) {f} (failed : answers.failure n call = some f) (counts : b.excuses call f = false) :
      Course b answers n [⟨call, some f⟩] [b.metric ⟨call, some f⟩] (call.next n) (some ⟨b.operationOf call, f⟩)

namespace Course
variable {b : Binding σ υ} {answers : Answers σ} {n m : Nat} {attempts : List (Attempt σ υ)} {metrics : List Metric}
  {stop : Option CallFailure}

theorem append {k : Nat} {attempts' : List (Attempt σ υ)} {metrics' : List Metric} {stop' : Option CallFailure}
    (first : Course b answers n attempts metrics m stop) (unstopped : stop = none)
    (next : Course b answers m attempts' metrics' k stop') :
    Course b answers n (attempts ++ attempts') (metrics ++ metrics') k stop' := by
  induction first with
  | done => exact next
  | passed call fine _ ih => exact .passed call fine (ih unstopped next)
  | stopped => cases unstopped

theorem mirrored (course : Course b answers n attempts metrics m stop) : metrics = attempts.map b.metric := by
  induction course with
  | done => rfl
  | passed _ _ _ ih => rw [ih]; rfl
  | stopped => rfl

theorem scripted (course : Course b answers n attempts metrics m stop) :
    attempts = answers.log n (attempts.map Attempt.call) := by
  induction course with
  | done => rfl
  | passed _ _ _ ih => rw [List.map_cons, Answers.log, ← ih]
  | stopped _ failed => rw [List.map_singleton, Answers.log, failed]; rfl

theorem counted (course : Course b answers n attempts metrics m stop) :
    m = n + attempts.countP fun a => a.call.isUpdate := by
  have step (call : Call σ υ) (n : Nat) : call.next n = n + if call.isUpdate then 1 else 0 := by
    cases call <;> rfl
  induction course with
  | done => rfl
  | passed _ _ _ ih => rw [ih, step, List.countP_cons, Nat.add_assoc, Nat.add_comm (List.countP _ _)]
  | stopped => rw [step, List.countP_singleton]

theorem last (course : Course b answers n attempts metrics m stop) {before after : List (Attempt σ υ)}
    {call : Call σ υ} {f : RemoteFault} (here : attempts = before ++ ⟨call, some f⟩ :: after)
    (counts : b.excuses call f = false) : after = [] ∧ stop = some ⟨b.operationOf call, f⟩ := by
  induction course generalizing before with
  | done => simp at here
  | passed _ fine _ ih =>
    cases before with
    | nil =>
      -- Here the failure would be one that the course went past.
      obtain ⟨rfl, failed⟩ := Attempt.mk.inj (List.cons.inj here).1
      rw [failed] at fine
      exact absurd (counts.symm.trans fine) Bool.false_ne_true
    | cons _ before => exact ih (List.cons.inj here).2
  | stopped =>
    cases before with
    | nil =>
      cases here
      exact ⟨rfl, rfl⟩
    | cons _ before => simp at here

theorem untroubled (course : Course b answers n attempts metrics m stop)
    (fine : ∀ a ∈ attempts, a.failure.all (b.excuses a.call) = true) : stop = none := by
  induction course with
  | done => rfl
  | passed _ _ _ ih => exact ih fun a member => fine a (List.mem_cons_of_mem _ member)
  | stopped _ _ counts => exact absurd (counts.symm.trans (fine _ List.mem_cons_self)) Bool.false_ne_true

end Course

/- A pass along a course; `ends` relates where the course ended and what stopped it to the result. -/
def Runs {ε α : Type} (b : Binding σ υ) (answers : Answers σ) (n : Nat)
    (ends : Nat → Option CallFailure → Except ε α → Prop) (p : Pass σ υ ε α) : Prop :=
  ∃ m stop, Course b answers n p.attempts p.metrics m stop ∧ ends m stop p.result

def Reported {α : Type} (_ : Nat) (stop : Option CallFailure) (r : Except CallFailure α) : Prop := stop = errorOf? r

def Plain {α : Type} (n m : Nat) (stop : Option CallFailure) (r : Except CallFailure α) : Prop :=
  m = n ∧ Reported m stop r

def noArn (b : Binding σ υ) (desired : Desired σ) : Fault :=
  .internal "tags" s!"{b.name} {(b.resourceId desired.spec).text} has no ARN"

def Tagged {α : Type} (b : Binding σ υ) (desired : Desired σ) (n m : Nat) :
    Option CallFailure → Except TagFault α → Prop
  | some f, r => m = n ∧ r = .error (.call f)
  | none, r => m = n ∧ ∀ e, r = .error e → e = .noArn (b.noArn desired)

def Settles {α : Type} (b : Binding σ υ) (config : Config) (desired : Desired σ) (outcome : α → Verdict) (m : Nat) :
    Option CallFailure → Except Fault α → Prop
  | some f, r => r.map outcome = f.verdict config
  | none, r => ∀ e, r = .error e → e = b.noArn desired ∧ m = 0

namespace Runs
variable {ε ε' α β : Type} {b : Binding σ υ} {answers : Answers σ} {n : Nat}
  {ends : Nat → Option CallFailure → Except ε α → Prop} {ends' : Nat → Option CallFailure → Except ε' β → Prop}

theorem silent {r : Except ε α} (fits : ends n none r) : Runs b answers n ends (.ofExcept r) := ⟨n, none, .done, fits⟩

theorem settled {p : Pass σ υ ε α} {next : Except ε α → Pass σ υ ε' β} (first : Runs b answers n ends p)
    (goesOn : ∀ m r, ends m none r → Runs b answers m ends' (next r))
    (halts : ∀ m f r, ends m (some f) r → ∃ x, next r = .ofExcept x ∧ ends' m (some f) x) :
    Runs b answers n ends' (p.settle >>= next) := by
  obtain ⟨m, stop, course, fits⟩ := first
  rw [Pass.settleThen]
  cases stop with
  | none =>
    obtain ⟨k, stop, rest, fits'⟩ := goesOn m p.result fits
    exact ⟨k, stop, course.append rfl rest, fits'⟩
  | some f =>
    obtain ⟨x, same, fits'⟩ := halts m f p.result fits
    rw [same]
    refine ⟨m, some f, ?_, fits'⟩
    simpa [Pass.ofExcept] using course

theorem answered {p : Pass σ υ CallFailure α} {next : Except CallFailure α → Pass σ υ ε' β}
    (first : Runs b answers n (Plain n) p) (goesOn : ∀ a, Runs b answers n ends' (next (.ok a)))
    (halts : ∀ f, ∃ x, next (.error f) = .ofExcept x ∧ ends' n (some f) x) :
    Runs b answers n ends' (p.settle >>= next) := by
  refine first.settled (fun m r unstopped => ?_) (fun m f r stopped => ?_)
  · obtain ⟨rfl, unstopped⟩ := unstopped
    cases r with
    | ok a => exact goesOn a
    | error f => cases unstopped
  · obtain ⟨rfl, stopped⟩ := stopped
    cases r with
    | ok a => cases stopped
    | error f => cases stopped; exact halts f

theorem bound {p : Pass σ υ CallFailure α} {f : α → Pass σ υ CallFailure β} (first : Runs b answers n (Plain n) p)
    (next : ∀ a, Runs b answers n (Plain n) (f a)) : Runs b answers n (Plain n) (p >>= f) := by
  rw [Pass.bindSettled]
  exact first.answered next fun e => ⟨.error e, rfl, rfl, rfl⟩

theorem ask (call : Call σ υ) {answer : Except RemoteFault α} (plain : call.isUpdate = false)
    (answered : answers.failure n call = errorOf? answer) :
    Runs b answers n (Plain n) (Pass.ask call call.kind (b.operationOf call) answer) := by
  have stays : call.next n = n := by
    cases call <;> first | rfl | cases plain
  have counts (f : RemoteFault) : b.excuses call f = false := by
    cases call <;> first | rfl | cases plain
  cases answer with
  | ok a =>
    have course :
        Course b answers n [⟨call, answers.failure n call⟩] [b.metric ⟨call, answers.failure n call⟩] n none :=
      .passed call (by rw [answered]; rfl) (by rw [stays]; exact .done)
    rw [answered] at course
    exact ⟨n, none, course, rfl, rfl⟩
  | error f =>
    have course : Course b answers n [⟨call, some f⟩] [b.metric ⟨call, some f⟩] (call.next n)
        (some ⟨b.operationOf call, f⟩) := .stopped call answered (counts f)
    exact ⟨_, _, course, stays, rfl⟩

theorem tell (call : Call σ υ) (plain : call.isUpdate = false) :
    Runs b answers n (Plain n) (Pass.tell call call.kind (b.operationOf call) (answers.failure n call)) :=
  ask call plain (by cases answers.failure n call <;> rfl)

theorem tagged (desired : Desired σ) {p : Pass σ υ CallFailure α} (work : Runs b answers n (Plain n) p) :
    Runs b answers n (b.Tagged desired n) { p with result := p.result.mapError .call } := by
  obtain ⟨m, stop, course, rfl, rfl⟩ := work
  refine ⟨m, _, course, ?_⟩
  cases p.result with
  | ok a => exact ⟨rfl, nofun⟩
  | error f => exact ⟨rfl, rfl⟩

theorem repacked {config : Config} {desired : Desired σ} {p : Pass σ υ Fault (Remediation σ)}
    {g : Remediation σ → Remediation σ} (kept : ∀ r, (g r).verdict = r.verdict)
    (pass : Runs b answers n (b.Settles config desired Remediation.verdict) p) :
    Runs b answers n (b.Settles config desired Remediation.verdict) (do return g (← p)) := by
  obtain ⟨m, stop, course, fits⟩ := pass
  rw [Pass.returned]
  refine ⟨m, stop, course, ?_⟩
  cases stop with
  | none =>
    intro e failed
    refine fits e ?_
    cases result : p.result with
    | ok r => rw [result] at failed; cases failed
    | error e' => rw [result] at failed; exact failed
  | some f =>
    change (p.result.map g).map Remediation.verdict = f.verdict config
    rw [← fits]
    cases p.result with
    | ok r => exact congrArg Except.ok (kept r)
    | error e => rfl

end Runs

section
variable (b : Binding σ υ) (config : Config) (answers : Answers σ) (desired : Desired σ) (observed : Observed σ)

theorem readRuns (arn : String) (n : Nat) : Runs b answers n (Plain n) (Tags.read answers arn) :=
  Runs.ask (.listTags arn) rfl rfl

theorem syncRuns (arn : String) (wanted current : StringMap) (n : Nat) :
    Runs b answers n (Plain n) (Tags.sync answers arn wanted current) := by
  rw [Tags.syncInTurn]
  refine Runs.bound ?_ fun _ => Runs.bound ?_ fun _ => Runs.silent ⟨rfl, rfl⟩
  · split
    · exact Runs.silent ⟨rfl, rfl⟩
    · exact Runs.tell (.tagResource arn _) rfl
  · split
    · exact Runs.silent ⟨rfl, rfl⟩
    · exact Runs.tell (.untagResource arn _) rfl

theorem syncTagsRuns (n : Nat) : Runs b answers n (b.Tagged desired n) (b.syncTags answers desired observed) := by
  unfold syncTags
  dsimp only
  split
  · exact Runs.silent ⟨rfl, nofun⟩
  · split
    · exact Runs.silent ⟨rfl, fun e same => by cases same; rfl⟩
    · rename_i arn _
      have synced (wanted current : StringMap) : Runs b answers n (Plain n) (do
          let _ ← Tags.sync answers arn wanted current
          return some wanted) :=
        (b.syncRuns answers arn wanted current n).bound fun _ => Runs.silent ⟨rfl, rfl⟩
      refine Runs.tagged desired ?_
      split
      · exact synced _ _
      · exact (b.readRuns answers arn n).bound (synced _)

theorem sendFromRuns (id : ResourceId) (n : Nat) (us : List υ) :
    Runs b answers n Reported (b.sendFrom answers id n us) := by
  induction us generalizing n with
  | nil => exact Runs.silent rfl
  | cons u rest ih =>
    obtain ⟨m, stop, course, fits⟩ := ih (n + 1)
    have goesOn (fine : (answers.update n).all (b.benign u) = true) :
        Course b answers n (⟨.update id u, answers.update n⟩ :: (b.sendFrom answers id (n + 1) rest).attempts)
          (b.metric ⟨.update id u, answers.update n⟩ :: (b.sendFrom answers id (n + 1) rest).metrics) m stop :=
      .passed (.update id u) fine course
    unfold sendFrom
    cases answered : answers.update n with
    | none =>
      rw [answered] at goesOn
      exact ⟨m, stop, goesOn rfl, fits⟩
    | some f =>
      rw [answered] at goesOn
      rw [Pass.settleThen]
      dsimp only [Pass.tell, Pass.ask]
      cases benign : b.benign u f with
      | true =>
        rw [if_pos rfl]
        exact ⟨m, stop, goesOn benign, fits⟩
      | false =>
        have halts : Course b answers n [⟨.update id u, some f⟩] [b.metric ⟨.update id u, some f⟩] (n + 1)
            (some ⟨b.operation u, f⟩) := .stopped (.update id u) answered benign
        rw [if_neg Bool.false_ne_true]
        exact ⟨n + 1, _, halts, rfl⟩

theorem haltsWith {α : Type} {outcome : α → Verdict} {pack : Verdict → α} (packed : ∀ v, outcome (pack v) = v)
    (m : Nat) (f : CallFailure) :
    ∃ x, (do return pack (← .ofExcept (f.verdict config)) : Pass σ υ Fault α) = .ofExcept x ∧
      b.Settles config desired outcome m (some f) x := by
  refine ⟨(f.verdict config).map pack, ?_, ?_⟩
  · cases f.verdict config <;> rfl
  · change ((f.verdict config).map pack).map outcome = f.verdict config
    cases f.verdict config with
    | ok v => exact congrArg Except.ok (packed v)
    | error e => rfl

theorem applyFirstRuns (δ : Delta) : Runs b answers 0 (b.Settles config desired Remediation.verdict)
    (b.applyFirst config answers desired observed δ) := by
  unfold applyFirst
  split
  · exact Runs.silent nofun
  · exact Runs.silent nofun
  · refine (b.sendFromRuns answers _ 0 _).settled (fun m r unstopped => ?_) (fun m f r stopped => ?_)
    · cases r with
      | ok _ => exact Runs.silent nofun
      | error f => cases unstopped
    · cases r with
      | ok _ => cases stopped
      | error g =>
        cases stopped
        exact b.haltsWith config desired (fun _ => rfl) m f

theorem remediateRuns : Runs b answers 0 (b.Settles config desired Remediation.verdict)
    (b.remediate config answers desired observed) := by
  unfold remediate
  split
  · exact Runs.silent nofun
  · refine (b.syncTagsRuns answers desired observed 0).settled (fun m r tagged => ?_) (fun m f r stopped => ?_)
    · obtain ⟨rfl, unnamed⟩ := tagged
      cases r with
      | ok synced => exact (b.applyFirstRuns config answers desired observed _).repacked fun _ => rfl
      | error e =>
        cases unnamed e rfl
        exact Runs.silent fun e same => by cases same; exact ⟨rfl, rfl⟩
    · obtain ⟨rfl, rfl⟩ := stopped
      exact b.haltsWith config desired (fun _ => rfl) 0 f

theorem createRuns : Runs b answers 0 (b.Settles config desired Remediation.verdict)
    (b.create config answers desired) := by
  unfold create
  split
  · exact Runs.silent nofun
  · exact (Runs.ask (.create desired.spec) rfl rfl).answered (fun _ => Runs.silent nofun)
      fun f => b.haltsWith config desired (fun _ => rfl) 0 f

theorem reconcileRuns : Runs b answers 0 (b.Settles config desired Remediation.verdict)
    (b.reconcile config answers desired) := by
  unfold reconcile
  rw [describeThen]
  refine (Runs.ask (.describe (b.resourceId desired.spec)) rfl rfl).answered (fun found => ?_)
    fun f => b.haltsWith config desired (fun _ => rfl) 0 f
  cases found with
  | some seen => exact b.remediateRuns config answers desired seen
  | none => exact b.createRuns config answers desired

theorem deleteRuns : Runs b answers 0 (b.Settles config desired id) (b.delete config answers desired observed) := by
  unfold delete
  dsimp only
  split
  · exact Runs.silent nofun
  · exact (Runs.tell (.delete (b.resourceId desired.spec)) rfl).answered (fun _ => Runs.silent nofun)
      fun f => ⟨_, rfl, by cases h : f.verdict config <;> simp [Settles, h, Except.map]⟩

theorem finalizeRuns : Runs b answers 0 (b.Settles config desired id) (b.finalize config answers desired) := by
  unfold finalize
  rw [describeThen]
  refine (Runs.ask (.describe (b.resourceId desired.spec)) rfl rfl).answered (fun found => ?_)
    fun f => b.haltsWith config desired (fun _ => rfl) 0 f
  cases found with
  | some seen => exact b.deleteRuns config answers desired seen
  | none => exact Runs.silent nofun

end

end Binding
end DesiredState
