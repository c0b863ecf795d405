import AudioServer.Db.Models
import Mathlib.Data.Rat.Defs

/-! What the two models' libraries hand over: floats of any kind, and exceptions known by their
texts. -/

namespace AudioServer.Processing.ModelRuntime

open AudioServer.Foundations.Strings AudioServer.Api.Schemas AudioServer.Db.Models

inductive PyFloat
  | nan
  | negInf
  | finite (value : ℚ)
  | posInf
deriving DecidableEq

def PyFloat.lt : PyFloat → PyFloat → Bool
  | .finite a, .finite b => a < b
  | .negInf, .finite _ | .negInf, .posInf | .finite _, .posInf => true
  | _, _ => false

def PyFloat.le (a b : PyFloat) : Bool := a ≠ .nan && b ≠ .nan && !b.lt a

/-- The two functions `_runtime_failure`; `lower` is `str.lower`. -/
def runtimeFailureOf (lower : Text → Text) (outOfMemory failedCode failed : String)
    (description : Text) : Exn :=
  let description := lower description
  if "out of memory".toList <:+: description ∨ "cuda oom".toList <:+: description then
    .processing "gpu_out_of_memory" outOfMemory true
  else .processing failedCode failed true

end AudioServer.Processing.ModelRuntime
