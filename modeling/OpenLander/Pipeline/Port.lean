import OpenLander.Pipeline.World

/-! # The allocation of ports

`src/pipeline/port.ts`. A port that `allocatePort` has chosen stays reserved, in the memory of the
process, until it is released; the scan of the used ports comes first, and the choice and the
reservation are one step. -/

namespace OpenLander.Pipeline
open Theory

structure AllocatePortOptions where
  preferredPort : Option Nat := none
  rangeStart : Nat := 10001
  rangeEnd : Nat := 10999
  deriving DecidableEq, Repr

/-- The port that `allocatePort` chooses, next to the ports in use and those reserved. -/
def choosePort (options : AllocatePortOptions) (usedPorts : List Nat) (reserved : Finset Nat) :
    Option Nat :=
  let free (port : Nat) : Bool := port ∉ usedPorts ∧ port ∉ reserved
  -- Port 0 is falsy.
  match options.preferredPort.filter fun port => port ≠ 0 ∧ free port with
  | some port => some port
  | none =>
    (List.range' options.rangeStart (options.rangeEnd + 1 - options.rangeStart)).find? free

/-- The scan rejects if the database does. -/
def allocatePort (scan : Option (List Nat)) (options : AllocatePortOptions := {}) : Async Nat :=
  match scan with
  | none => throw .other
  | some usedPorts =>
    .step
      (fun w =>
        match choosePort options usedPorts w.reservedPorts with
        | some port => { w with reservedPorts := insert port w.reservedPorts }
        | none => w)
      fun w =>
        match choosePort options usedPorts w.reservedPorts with
        | some port => pure port
        | none => throw .portExhausted

def releasePortReservation (port : Nat) : Async Unit :=
  .modify fun w => { w with reservedPorts := w.reservedPorts.erase port }

variable {options : AllocatePortOptions} {usedPorts : List Nat} {reserved : Finset Nat}

theorem choosePort_free (h : choosePort options usedPorts reserved = some port) :
    port ∉ usedPorts ∧ port ∉ reserved := by
  simp only [choosePort] at h
  split at h
  · rename_i hpreferred
    obtain ⟨-, h'⟩ := Option.filter_eq_some_iff.mp hpreferred
    cases h
    simpa using (of_decide_eq_true h').2
  · simpa using List.find?_some h

/-- A preferred port that is neither in use nor reserved is the one chosen. -/
theorem choosePort_preferred (h0 : port ≠ 0) (hused : port ∉ usedPorts)
    (hreserved : port ∉ reserved) :
    choosePort { options with preferredPort := some port } usedPorts reserved = some port := by
  simp [choosePort, Option.filter_some, h0, hused, hreserved]

theorem run_allocatePort (options : AllocatePortOptions) (scan : Option (List Nat)) (w : World) :
    (allocatePort scan options).run w =
      match scan, scan.bind (choosePort options · w.reservedPorts) with
      | none, _ => (.error .other, w)
      | some _, none => (.error .portExhausted, w)
      | some _, some port =>
        (.ok port, { w with reservedPorts := insert port w.reservedPorts }) := by
  cases scan with
  | none => rfl
  | some usedPorts =>
    simp only [allocatePort, Prog.run_step, Option.bind_some]
    cases choosePort options usedPorts w.reservedPorts <;> rfl

end OpenLander.Pipeline
