import OpenLander.Compose.Service
import OpenLander.Pipeline.World

/-! # Interpolation of Compose values

`interpolateComposeValue` (`src/pipeline/compose.ts`) replaces the references to variables in a
value of a Compose file, and rejects the file where a required variable is missing.
`validateComposeInterpolation` does it ahead for some of the values of each service. A value
interpolates exactly if each of its references is `Satisfied`. -/

namespace OpenLander.Compose
open Theory
open Pipeline (isWhitespace)

/-- `ServiceConfigError`, with its details. -/
structure ServiceConfigError where
  message : String
  details : List (String × List String) := []
  deriving DecidableEq, Repr

/-- The variables that the deploy provides, and those of the process. -/
structure Environment where
  envVars : List (String × String) := []
  processEnv : String → Option String := fun _ => none

namespace Environment

/-- A variable that is provided hides that of the process. -/
def raw (env : Environment) (key : String) : Option String :=
  (fromEntries env.envVars key).or (env.processEnv key)

end Environment

/-! ## Text -/

def trim (s : List Char) : List Char :=
  ((s.dropWhile isWhitespace).reverse.dropWhile isWhitespace).reverse

/-- Replace each occurrence of the pattern. The number is what is left of the last one. -/
def replaceAll (pattern replacement : List Char) : Nat → List Char → List Char
  | _, [] => []
  | left + 1, _ :: s => replaceAll pattern replacement left s
  | 0, c :: s =>
    if pattern.isPrefixOf (c :: s) then
      replacement ++ replaceAll pattern replacement (pattern.length - 1) s
    else c :: replaceAll pattern replacement 0 s

/-! ## References -/

/-- `:-`, `-`, `:?` and `?`. -/
inductive Operator
  | defaultIfEmpty | defaultIfUnset | requiredNonEmpty | requiredSet
  deriving DecidableEq, Repr

structure Reference where
  key : String
  /-- The operator with its operand. -/
  operator : Option (Operator × String) := none
  deriving DecidableEq, Repr

def isKeyStart (c : Char) : Bool := c.isUpper || c == '_'

def isKeyChar (c : Char) : Bool := isKeyStart c || c.isDigit

/-- The operand goes up to the first closing brace. -/
def matchOperand (key : String) (operator : Operator) (s : List Char) :
    Option (Reference × List Char) :=
  match s.span (· ≠ '}') with
  | (operand, '}' :: rest) => some (⟨key, some (operator, String.ofList operand)⟩, rest)
  | _ => none

/-- `/\$\{([A-Z_][A-Z0-9_]*)(?:(:-|-|:\?|\?)([^}]*))?\}/` at the start of the text, with what comes
after it. -/
def matchReference : List Char → Option (Reference × List Char)
  | '$' :: '\x7b' :: c :: s =>
    if isKeyStart c then
      let key := String.ofList (c :: s.takeWhile isKeyChar)
      match s.dropWhile isKeyChar with
      | '}' :: rest => some (⟨key, none⟩, rest)
      | ':' :: '-' :: rest => matchOperand key .defaultIfEmpty rest
      | '-' :: rest => matchOperand key .defaultIfUnset rest
      | ':' :: '?' :: rest => matchOperand key .requiredNonEmpty rest
      | '?' :: rest => matchOperand key .requiredSet rest
      | _ => none
    else none
  | _ => none

/-- The text, with the references in it. The number is what is left of the last one. -/
def scan : Nat → List Char → List (Char ⊕ Reference)
  | _, [] => []
  | left + 1, _ :: s => scan left s
  | 0, c :: s =>
    match matchReference (c :: s) with
    | some (reference, rest) => .inr reference :: scan (s.length - rest.length) s
    | none => .inl c :: scan 0 s

def Reference.resolve (env : Environment) (reference : Reference) :
    Except ServiceConfigError String :=
  let raw := env.raw reference.key
  let isNonEmpty := raw.any fun value => !value.isEmpty
  let missing (operand : String) : ServiceConfigError :=
    let message := trim operand.toList
    { message :=
        if message.isEmpty then "Compose environment variable " ++ reference.key ++ " is required"
        else String.ofList message
      details := [("key", [reference.key])] }
  match reference.operator with
  | none => .ok (raw.getD "")
  | some (.defaultIfEmpty, operand) => .ok (if isNonEmpty then raw.getD "" else operand)
  | some (.defaultIfUnset, operand) => .ok (raw.getD operand)
  | some (.requiredNonEmpty, operand) =>
    if isNonEmpty then .ok (raw.getD "") else .error (missing operand)
  | some (.requiredSet, operand) =>
    match raw with
    | some value => .ok value
    | none => .error (missing operand)

def escapedDollar : List Char := "\x00OPENLANDER_COMPOSE_DOLLAR\x00".toList

/-- The pieces of a value, where `$$` is no start of a reference. -/
def pieces (value : String) : List (Char ⊕ Reference) :=
  scan 0 (replaceAll ['$', '$'] escapedDollar 0 value.toList)

def resolvePieces (env : Environment) : List (Char ⊕ Reference) →
    Except ServiceConfigError (List Char)
  | [] => .ok []
  | .inl c :: rest => do
    let s ← resolvePieces env rest
    return c :: s
  | .inr reference :: rest => do
    let value ← reference.resolve env
    let s ← resolvePieces env rest
    return value.toList ++ s

def interpolateComposeValue (env : Environment) (value : String) :
    Except ServiceConfigError String := do
  let interpolated ← resolvePieces env (pieces value)
  return String.ofList (replaceAll escapedDollar ['$'] 0 interpolated)

/-! ## The validation ahead -/

def ComposeEnvironment.values : ComposeEnvironment → List String
  | map entries => entries.map (·.2)
  | list entries => entries

/-- An empty image is none. -/
def ComposeService.imageValues (service : ComposeService) : List String :=
  (service.image.filter fun image => !image.isEmpty).toList

/-- The values that are interpolated ahead, in this order. -/
def ComposeService.validatedValues (service : ComposeService) : List String :=
  service.imageValues ++ service.ports.getD [] ++ service.expose.getD [] ++
    service.volumes.getD [] ++ (service.environment.map (·.values)).getD []

/-- The loops over the services and over their values. -/
def validateComposeInterpolation (env : Environment) (services : List ComposeService) :
    Except ServiceConfigError PUnit :=
  forM services fun service =>
    forM service.validatedValues fun value => do
      let _ ← interpolateComposeValue env value
      return ⟨⟩

/-! ## When a value interpolates -/

/-- A required variable is there. -/
def Reference.Satisfied (env : Environment) (reference : Reference) : Prop :=
  match reference.operator with
  | some (.requiredNonEmpty, _) => (env.raw reference.key).any (fun value => !value.isEmpty) = true
  | some (.requiredSet, _) => (env.raw reference.key).isSome = true
  | _ => True

/-- Each required variable of the value is there. -/
def Interpolates (env : Environment) (value : String) : Prop :=
  ∀ reference, .inr reference ∈ pieces value → reference.Satisfied env

variable {env : Environment}

instance (reference : Reference) : Decidable (reference.Satisfied env) := by
  unfold Reference.Satisfied
  split <;> infer_instance

instance (value : String) : Decidable (Interpolates env value) :=
  decidable_of_iff
    (∀ piece ∈ pieces value, ∀ reference ∈ piece.getRight?, reference.Satisfied env)
    ⟨fun h reference hmem => h _ hmem reference rfl,
      fun h _ hmem reference hright => h reference (Sum.getRight?_eq_some_iff.mp hright ▸ hmem)⟩

theorem Reference.resolve_eq_ok {reference : Reference} :
    (∃ s, reference.resolve env = .ok s) ↔ reference.Satisfied env := by
  obtain ⟨key, operator⟩ := reference
  match operator with
  | none => exact ⟨fun _ => trivial, fun _ => ⟨_, rfl⟩⟩
  | some (.defaultIfEmpty, operand) => exact ⟨fun _ => trivial, fun _ => ⟨_, rfl⟩⟩
  | some (.defaultIfUnset, operand) => exact ⟨fun _ => trivial, fun _ => ⟨_, rfl⟩⟩
  | some (.requiredNonEmpty, operand) =>
    simp only [resolve, Satisfied]
    split
    · next h => exact ⟨fun _ => h, fun _ => ⟨_, rfl⟩⟩
    · next h => exact ⟨fun ⟨_, hs⟩ => (nomatch hs), fun hraw => absurd hraw h⟩
  | some (.requiredSet, operand) =>
    simp only [resolve, Satisfied]
    cases env.raw key with
    | none => exact ⟨fun ⟨_, hs⟩ => (nomatch hs), fun h => (nomatch h)⟩
    | some value => exact ⟨fun _ => rfl, fun _ => ⟨_, rfl⟩⟩

theorem resolvePieces_eq_ok {l : List (Char ⊕ Reference)} :
    (∃ s, resolvePieces env l = .ok s) ↔
      ∀ reference, .inr reference ∈ l → reference.Satisfied env := by
  induction l with
  | nil => exact ⟨fun _ _ h => (nomatch h), fun _ => ⟨[], rfl⟩⟩
  | cons piece l ih =>
    cases piece with
    | inl c =>
      simp only [List.mem_cons, reduceCtorEq, false_or, ← ih, resolvePieces]
      cases resolvePieces env l with
      | error e => exact ⟨fun ⟨_, h⟩ => (nomatch h), fun ⟨_, h⟩ => (nomatch h)⟩
      | ok s => exact ⟨fun _ => ⟨s, rfl⟩, fun _ => ⟨c :: s, rfl⟩⟩
    | inr reference =>
      simp only [List.mem_cons, Sum.inr.injEq, forall_eq_or_imp]
      rw [← ih, ← Reference.resolve_eq_ok, resolvePieces]
      cases reference.resolve env with
      | error e => exact ⟨fun ⟨_, h⟩ => (nomatch h), fun ⟨⟨_, h⟩, _⟩ => (nomatch h)⟩
      | ok value =>
        cases resolvePieces env l with
        | error e => exact ⟨fun ⟨_, h⟩ => (nomatch h), fun ⟨_, _, h⟩ => (nomatch h)⟩
        | ok s => exact ⟨fun _ => ⟨⟨value, rfl⟩, s, rfl⟩, fun _ => ⟨value.toList ++ s, rfl⟩⟩

/-- A value is interpolated exactly if each required variable is there. -/
theorem interpolateComposeValue_eq_ok {value : String} :
    (∃ s, interpolateComposeValue env value = .ok s) ↔ Interpolates env value := by
  rw [Interpolates, ← resolvePieces_eq_ok, interpolateComposeValue]
  cases resolvePieces env (pieces value) with
  | error e => exact ⟨fun ⟨_, h⟩ => (nomatch h), fun ⟨_, h⟩ => (nomatch h)⟩
  | ok s => exact ⟨fun _ => ⟨s, rfl⟩, fun _ => ⟨_, rfl⟩⟩

/-- The validation passes exactly if every value that it looks at interpolates. -/
theorem validateComposeInterpolation_eq_ok {services : List ComposeService} :
    validateComposeInterpolation env services = .ok ⟨⟩ ↔
      ∀ service ∈ services, ∀ value ∈ service.validatedValues, Interpolates env value := by
  rw [validateComposeInterpolation, forM_eq_ok]
  refine forall₂_congr fun service _ => ?_
  rw [forM_eq_ok]
  refine forall₂_congr fun value _ => ?_
  rw [← interpolateComposeValue_eq_ok]
  cases interpolateComposeValue env value with
  | error e => exact ⟨fun h => (nomatch h), fun ⟨_, h⟩ => (nomatch h)⟩
  | ok s => exact ⟨fun _ => ⟨s, rfl⟩, fun _ => rfl⟩

end OpenLander.Compose
