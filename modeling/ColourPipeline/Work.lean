import ColourPipeline.Error

namespace ColourPipeline

abbrev Work (ε σ α : Type) := EStateM ε σ α

/-- Why steps that count end early: with an error for whoever asked, or where a sum does not fit
its width, which ends the program with them. -/
inductive Stop where
  | error (e : PipelineError)
  | overflow
deriving DecidableEq

def Stop.sum (values a b : Nat) : Except Stop Nat :=
  if a + b < values then .ok (a + b) else .error .overflow

namespace Work

variable {ε σ τ α : Type}

def on (get : σ → τ) (put : τ → σ → σ) (w : Work ε τ α) : Work ε σ α := fun s =>
  match w (get s) with
  | .ok a t => .ok a (put t s)
  | .error e t => .error e (put t s)

def lift (r : Except ε α) : Work ε σ α := fun s =>
  match r with
  | .ok a => .ok a s
  | .error e => .error e s

def check (r : Except PipelineError α) : Work Stop σ α := lift (r.mapError .error)

def counting (w : Work PipelineError σ α) : Work Stop σ α := fun s =>
  match w s with
  | .ok a s => .ok a s
  | .error e s => .error (.error e) s

end Work

end ColourPipeline
