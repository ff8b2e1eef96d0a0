import DesiredState.Proofs.Runs
import DesiredState.Publishing
import Mathlib.Data.List.Perm.Subperm

/-!
Conditions published round after round. What is on the object is compared with a verdict up to order and times, and
tells the verdict that was published last up to the delay it asked for. -/
namespace DesiredState

namespace Condition

def timeless (c : Condition) : Condition := { c with since := 0 }

theorem sameStateIff {c d : Condition} : c.sameState d = true ↔ c.timeless = d.timeless := by
  cases c
  cases d
  simp [sameState, timeless, and_assoc]

def SameButTimes (xs ys : List Condition) : Prop := (xs.map timeless).Perm (ys.map timeless)

theorem unchangedSame {current next : List Condition} (same : SameButTimes current next) :
    changed current next = false := by
  unfold changed
  rw [Bool.or_eq_false_iff]
  refine ⟨?_, List.any_eq_false.mpr fun n member => ?_⟩
  · simpa using same.length_eq
  · obtain ⟨c, here, alike⟩ := List.mem_map.mp (same.mem_iff.mpr (List.mem_map_of_mem member))
    have found : (current.any fun c => c.sameState n) = true := List.any_eq_true.mpr ⟨c, here, sameStateIff.mpr alike⟩
    rw [found]
    nofun

theorem unchangedIff {current next : List Condition} (distinct : (next.map timeless).Nodup) :
    changed current next = false ↔ SameButTimes current next := by
  refine ⟨fun unchanged => ?_, unchangedSame⟩
  unfold changed at unchanged
  rw [Bool.or_eq_false_iff, List.any_eq_false] at unchanged
  obtain ⟨lengths, found⟩ := unchanged
  -- Only the members of `next` are looked for; with none of them repeated there is no room for anything else.
  have within : next.map timeless ⊆ current.map timeless := by
    intro t member
    obtain ⟨n, listed, rfl⟩ := List.mem_map.mp member
    have some : (current.any fun c => c.sameState n) = true := by simpa using found n listed
    obtain ⟨c, here, alike⟩ := List.any_eq_true.mp some
    exact List.mem_map.mpr ⟨c, here, sameStateIff.mp alike⟩
  refine ((distinct.subperm within).perm_of_length_le ?_).symm
  rw [List.length_map, List.length_map]
  exact Nat.le_of_eq (by simpa using lengths)

end Condition

open Condition

namespace Verdict

def undelayed : Verdict → Verdict
  | .wait reason _ => .wait reason (.ofSeconds 0)
  | v => v

theorem conditionsDistinct (v : Verdict) (now : Int) : ((v.conditions now).map timeless).Nodup := by
  cases v <;> simp [conditions, synced, stopped, timeless, syncedType, terminalType]

theorem syncedIff {v w : Verdict} {now later : Int} :
    (v.synced now).timeless = (w.synced later).timeless ↔ v.undelayed = w.undelayed := by
  cases v <;> cases w <;> simp [synced, timeless, undelayed]
  case applied.applied => exact Iff.rfl

theorem stoppedSame {v w : Verdict} (same : v.undelayed = w.undelayed) (now later : Int) :
    (v.stopped now).timeless = (w.stopped later).timeless := by
  cases v <;> cases w <;> simp_all [stopped, timeless, undelayed]

theorem sameConditions {v w : Verdict} {now later : Int} :
    SameButTimes (v.conditions now) (w.conditions later) ↔ v.undelayed = w.undelayed := by
  constructor
  · intro same
    have member : (v.synced now).timeless ∈ (w.conditions later).map timeless :=
      same.mem_iff.mp List.mem_cons_self
    rcases List.mem_pair.mp member with synced | stopped
    · exact syncedIff.mp synced
    · have types := congrArg Condition.type stopped
      cases v <;> cases w <;> simp [synced, Verdict.stopped, timeless, syncedType, terminalType] at types
  · intro same
    show ([_, _] : List Condition).Perm [_, _]
    rw [syncedIff.mpr same, stoppedSame same now later]

theorem conditionsSame (v w : Verdict) (now : Int) :
    v.conditions now = w.conditions now ↔ v.undelayed = w.undelayed := by
  refine ⟨fun same => ?_, fun same => ?_⟩
  · exact sameConditions.mp (by rw [same]; exact List.Perm.refl _ : SameButTimes (v.conditions now) (w.conditions now))
  · cases v <;> cases w <;> simp_all [conditions, synced, stopped, undelayed]

end Verdict

structure Publication where
  verdict : Verdict
  now : Int
  answer : Option Fault

structure Board where
  shown : List Condition
  told : Option Verdict

namespace Board

def publishing (s : Board) (r : Publication) : Publishing := .ofVerdict s.shown r.verdict r.now r.answer

def step (s : Board) (r : Publication) : Board where
  shown := (s.publishing r).contents s.shown
  told := match (s.publishing r).outcome with
    | .ok _ => some r.verdict
    | .error _ => s.told

def Tells (s : Board) : Prop := ∀ v, s.told = some v → ∃ now, SameButTimes s.shown (v.conditions now)

structure Follows (s : Board) (r : Publication) : Prop where
  attempted : (s.publishing r).written ≠ none ↔ ¬ SameButTimes s.shown (r.verdict.conditions r.now)
  handed : ∀ next, (s.publishing r).written = some next → next = r.verdict.conditions r.now
  failed : ∀ f, (s.publishing r).outcome = .error f ↔ (s.publishing r).written ≠ none ∧ r.answer = some f
  kept : ∀ f, (s.publishing r).outcome = .error f → (s.step r).shown = s.shown
  shows : ∀ wrote, (s.publishing r).outcome = .ok wrote →
    SameButTimes (s.step r).shown (r.verdict.conditions r.now)
  skipped : ∀ v, s.told = some v → ((s.publishing r).written = none ↔ r.verdict.undelayed = v.undelayed)

section
variable (s : Board) (r : Publication)

theorem publishingSame (same : SameButTimes s.shown (r.verdict.conditions r.now)) :
    s.publishing r = ⟨none, .ok false⟩ := by
  unfold publishing Publishing.ofVerdict
  dsimp only
  rw [unchangedSame same]
  rfl

theorem publishingOther (other : ¬ SameButTimes s.shown (r.verdict.conditions r.now)) :
    s.publishing r = ⟨some (r.verdict.conditions r.now),
      match r.answer with | none => .ok true | some f => .error f⟩ := by
  have changes : changed s.shown (r.verdict.conditions r.now) = true := by
    rw [← Bool.not_eq_false, unchangedIff (r.verdict.conditionsDistinct r.now)]
    exact other
  unfold publishing Publishing.ofVerdict
  dsimp only
  rw [changes]
  rfl

theorem writtenNone : (s.publishing r).written = none ↔ SameButTimes s.shown (r.verdict.conditions r.now) := by
  by_cases same : SameButTimes s.shown (r.verdict.conditions r.now)
  · simp [s.publishingSame r same, same]
  · simp [s.publishingOther r same, same]

theorem stepShows {wrote : Bool} (ok : (s.publishing r).outcome = .ok wrote) :
    SameButTimes (s.step r).shown (r.verdict.conditions r.now) := by
  unfold step Publishing.contents
  by_cases same : SameButTimes s.shown (r.verdict.conditions r.now)
  · rw [s.publishingSame r same]
    exact same
  · rw [s.publishingOther r same] at ok ⊢
    cases answer : r.answer with
    | none => exact List.Perm.refl _
    | some f => rw [answer] at ok; cases ok

theorem stepFailed {f : Fault} (failed : (s.publishing r).outcome = .error f) : s.step r = s := by
  unfold step Publishing.contents
  rw [failed]
  cases (s.publishing r).written <;> rfl

theorem failedIff (f : Fault) :
    (s.publishing r).outcome = .error f ↔ (s.publishing r).written ≠ none ∧ r.answer = some f := by
  by_cases same : SameButTimes s.shown (r.verdict.conditions r.now)
  · simp [s.publishingSame r same]
  · rw [s.publishingOther r same]
    cases r.answer <;> simp

end

theorem tellsNothing (initial : List Condition) : Tells ⟨initial, none⟩ := by
  intro v told
  cases told

theorem tellsStep {s : Board} (tells : s.Tells) (r : Publication) : (s.step r).Tells := by
  cases ended : (s.publishing r).outcome with
  | error f =>
    rw [s.stepFailed r ended]
    exact tells
  | ok wrote =>
    intro v told
    have last : (s.step r).told = some r.verdict := by
      unfold step
      rw [ended]
    obtain rfl : r.verdict = v := Option.some.inj (last.symm.trans told)
    exact ⟨r.now, s.stepShows r ended⟩

theorem followsStep {s : Board} (tells : s.Tells) (r : Publication) : s.Follows r where
  attempted := not_congr (s.writtenNone r)
  handed next handed := by
    by_cases same : SameButTimes s.shown (r.verdict.conditions r.now)
    · rw [s.publishingSame r same] at handed
      cases handed
    · rw [s.publishingOther r same] at handed
      exact (Option.some.inj handed).symm
  failed := s.failedIff r
  kept f failed := congrArg Board.shown (s.stepFailed r failed)
  shows _ ended := s.stepShows r ended
  skipped v told := by
    obtain ⟨now, shown⟩ := tells v told
    have alike : SameButTimes (r.verdict.conditions r.now) (v.conditions now) ↔ _ := Verdict.sameConditions
    rw [s.writtenNone r, ← alike]
    exact ⟨fun same => same.symm.trans shown, fun same => shown.trans same.symm⟩

theorem followsRun {s : Board} (tells : s.Tells) (rounds : List Publication) : Throughout step Follows s rounds := by
  induction rounds generalizing s with
  | nil => exact throughoutNil
  | cons r rounds ih => exact throughoutCons.mpr ⟨followsStep tells r, ih (tellsStep tells r)⟩

/- What is published follows the verdicts, whatever was there before and whichever writes fail. -/
theorem publishedFollows (initial : List Condition) (rounds : List Publication) :
    Throughout step Follows ⟨initial, none⟩ rounds ∧
      ∀ (v w : Verdict) (now later : Int),
        (SameButTimes (v.conditions now) (w.conditions later) ↔ v.undelayed = w.undelayed) ∧
          (v.conditions now = w.conditions now ↔ v.undelayed = w.undelayed) :=
  ⟨followsRun (tellsNothing initial) rounds, fun v w now _ => ⟨Verdict.sameConditions, v.conditionsSame w now⟩⟩

/- The failed write leaves the first verdict in place, which the last one repeats. -/
example :
    let rounds : List Publication :=
      [⟨.wait "busy" (.ofSeconds 5), 100, none⟩, ⟨.terminal "rejected", 110, some (.kubernetes none)⟩]
    ((rounds.foldl step ⟨[], none⟩).publishing ⟨.wait "busy" (.ofSeconds 9), 120, none⟩).written = none := by
  decide +kernel

end Board
end DesiredState
