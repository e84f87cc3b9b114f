import OpenLander.Compose.DeployService
import OpenLander.Compose.Template
import OpenLander.Pipeline.EnvFile

/-! # The two spellings of an environment

`parseComposeFiles` (`src/pipeline/compose.ts`, 878-888) keeps the environment of a service as it is
spelled, and `resolveComposeServiceRuntimeEnv` reads a list and a map in two different ways. A list
trims each item, and looks up a name without a value. -/

namespace OpenLander.Compose
open Theory
open Pipeline (isWhitespace)
open Pipeline.EnvFile (not_isAlphanum_of_isWhitespace trim_between)

/-- `serviceObj['environment']`, with the scalars as text. -/
inductive EnvironmentNode where
  | list (items : List String)
  /-- A value can be null. -/
  | record (entries : List (String × Option String))
  deriving DecidableEq, Repr

def parseEnvironment : EnvironmentNode → ComposeEnvironment
  | .list items => .list items
  | .record entries => .map (entries.map fun (key, value) => (key, value.getD ""))

section Append
variable {pattern replacement : List Char}

end Append

/-- The assignments of the entries, with the values that `f` gives them. -/
def assignments (f : String × Option String → Except ServiceConfigError String) :
    List (String × Option String) → Except ServiceConfigError (List (String × String))
  | [] => .ok []
  | entry :: entries => do
    let value ← f entry
    let rest ← assignments f entries
    return (entry.1, value) :: rest

def mapValue (env : Environment) (entry : String × Option String) :
    Except ServiceConfigError String :=
  interpolateComposeValue env (entry.2.getD "")

theorem ComposeName.cons (h : ComposeName key) : ∃ c cs, key.toList = c :: cs := by
  obtain ⟨c, cs, hkey, -⟩ := h
  exact ⟨c, cs, hkey⟩

section Runs
variable {env : Environment} {w : World}

end Runs

/-! ## The two spellings -/

theorem mapValue_none (env : Environment) (key : String) : mapValue env (key, none) = .ok "" := rfl

end OpenLander.Compose
