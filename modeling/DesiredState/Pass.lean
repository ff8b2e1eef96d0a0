import DesiredState.Metric
import DesiredState.Remote

/-!
A pass over one resource: the calls it made, the metrics it recorded, and its result. What was done
before a failure stays done; nothing is done after it.
-/
namespace DesiredState

structure Pass (σ υ ε α : Type) where
  attempts : List (Attempt σ υ)
  metrics : List Metric
  result : Except ε α

namespace Pass
variable {σ υ ε ε' α β : Type}

def andThen (p : Pass σ υ ε α) (f : α → Pass σ υ ε β) : Pass σ υ ε β :=
  match p.result with
  | .error e => ⟨p.attempts, p.metrics, .error e⟩
  | .ok a => ⟨p.attempts ++ (f a).attempts, p.metrics ++ (f a).metrics, (f a).result⟩

instance : Monad (Pass σ υ ε) where
  pure a := ⟨[], [], .ok a⟩
  bind := andThen

def fail (e : ε) : Pass σ υ ε α := ⟨[], [], .error e⟩

def ofExcept (r : Except ε α) : Pass σ υ ε α := ⟨[], [], r⟩

def settle (p : Pass σ υ ε α) : Pass σ υ ε' (Except ε α) := ⟨p.attempts, p.metrics, .ok p.result⟩

def ask (call : Call σ υ) (kind : CallKind) (operation : String) (answer : Except RemoteFault α) :
    Pass σ υ CallFailure α :=
  match answer with
  | .ok a => ⟨[⟨call, none⟩], [.ofCall kind operation none], .ok a⟩
  | .error f => ⟨[⟨call, some f⟩], [.ofCall kind operation (some f)], .error ⟨operation, f⟩⟩

def tell (call : Call σ υ) (kind : CallKind) (operation : String) (failure : Option RemoteFault) :
    Pass σ υ CallFailure Unit :=
  ask call kind operation (match failure with | none => .ok () | some f => .error f)

theorem attemptsPure (a : α) : (pure a : Pass σ υ ε α).attempts = [] := rfl

theorem metricsPure (a : α) : (pure a : Pass σ υ ε α).metrics = [] := rfl

theorem bindOk {p : Pass σ υ ε α} {a : α} (ok : p.result = .ok a) (f : α → Pass σ υ ε β) :
    p >>= f = ⟨p.attempts ++ (f a).attempts, p.metrics ++ (f a).metrics, (f a).result⟩ := by
  show andThen p f = _
  simp only [andThen, ok]

theorem bindError {p : Pass σ υ ε α} {e : ε} (failed : p.result = .error e) (f : α → Pass σ υ ε β) :
    p >>= f = ⟨p.attempts, p.metrics, .error e⟩ := by
  show andThen p f = _
  simp only [andThen, failed]

end Pass
end DesiredState
