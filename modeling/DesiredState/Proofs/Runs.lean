/-!
What holds all along a run. A run is a list of steps from a state; each step is judged in the state that
the steps before it lead to. -/
namespace DesiredState

def Throughout {σ α : Type} (step : σ → α → σ) (fits : σ → α → Prop) (s : σ) (xs : List α) : Prop :=
  ∀ before x after, xs = before ++ x :: after → fits (before.foldl step s) x

section
variable {σ α : Type} {step : σ → α → σ} {fits : σ → α → Prop} {s : σ}

theorem throughoutNil : Throughout step fits s [] := by
  intro before x after split
  simp at split

theorem throughoutCons {x : α} {xs : List α} :
    Throughout step fits s (x :: xs) ↔ fits s x ∧ Throughout step fits (step s x) xs := by
  constructor
  · intro all
    refine ⟨all [] x xs rfl, fun before y after split => ?_⟩
    exact all (x :: before) y after (by rw [split]; rfl)
  · rintro ⟨here, later⟩ before y after split
    cases before with
    | nil => cases split; exact here
    | cons z before =>
      obtain ⟨rfl, rest⟩ := List.cons.inj split
      exact later before y after rest

theorem throughoutAppend {xs ys : List α} : Throughout step fits s (xs ++ ys) ↔
    Throughout step fits s xs ∧ Throughout step fits (xs.foldl step s) ys := by
  induction xs generalizing s with
  | nil => exact ⟨fun all => ⟨throughoutNil, all⟩, And.right⟩
  | cons x xs ih => rw [List.cons_append, throughoutCons, throughoutCons, ih, List.foldl_cons, and_assoc]

/- One system follows another: `embed` carries its states and `f` its steps. -/
theorem throughoutMap {ρ β : Type} {step' : ρ → β → ρ} {fits' : ρ → β → Prop} (embed : σ → ρ) (f : α → β)
    {xs : List α} (moves : ∀ s, ∀ x ∈ xs, step' (embed s) (f x) = embed (step s x))
    (finds : ∀ s, ∀ x ∈ xs, fits s x → fits' (embed s) (f x)) (all : Throughout step fits s xs) :
    Throughout step' fits' (embed s) (xs.map f) ∧ (xs.map f).foldl step' (embed s) = embed (xs.foldl step s) := by
  induction xs generalizing s with
  | nil => exact ⟨throughoutNil, rfl⟩
  | cons x xs ih =>
    obtain ⟨here, later⟩ := throughoutCons.mp all
    have next := ih (fun s y member => moves s y (List.mem_cons_of_mem _ member))
      (fun s y member => finds s y (List.mem_cons_of_mem _ member)) later
    rw [List.map_cons, throughoutCons, List.foldl_cons, List.foldl_cons, moves s x List.mem_cons_self]
    exact ⟨⟨finds s x List.mem_cons_self here, next.1⟩, next.2⟩

end

end DesiredState
