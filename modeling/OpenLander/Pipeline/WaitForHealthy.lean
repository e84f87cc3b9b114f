import OpenLander.Theory.Run
import OpenLander.Compose.Interpolate

/-! # Waiting for a healthy container

`waitForHealthy` (`src/pipeline/docker/container.ts`) over the inspections that it makes, one event each, with
whatever the clock says whenever it is read. -/

namespace OpenLander.WaitForHealthy
open Theory

def HEALTHCHECK_START_PERIOD_GRACE_MS : Int := 500
def noHealthcheckStableMs : Int := 5000

/-- What is read of an inspected container. `Health` is the status of the healthcheck, `startedAt` is
`Date.parse(StartedAt)` where that is a date. -/
structure Info where
  Running : Bool
  Restarting : Bool := false
  ExitCode : Int := 0
  Health : Option String := none
  RestartCount : Option Nat := none
  StartPeriod : Option Int := none
  startedAt : Option Int := none

inductive Inspection
  | info (info : Info)
  | error (message : List Char)

def Inspection.info? : Inspection → Option Info
  | .info i => some i
  | .error _ => none

/-- An inspection, and the clock where it is read before and after it. -/
structure Observation where
  /-- `while (Date.now() < deadlineMs)` -/
  loop : Int
  inspection : Inspection
  /-- `noHealthcheckStableSince = Date.now()` -/
  since : Int
  /-- `Date.now() - noHealthcheckStableSince` -/
  check : Int
  /-- `deadlineMs - Date.now()` -/
  remaining : Int

structure WaitForHealthyResult where
  healthy : Bool
  exitCode : Option Int := none
  error : Option String := none
deriving DecidableEq

/-- `/not found|No such (container|network|volume|image)/i` -/
def isDockerNotFoundError (message : List Char) : Bool :=
  ["not found", "no such container", "no such network", "no such volume", "no such image"].any
    fun text => Compose.occursIn text.toList (message.map Char.toLower)

def getHealthcheckStartPeriodMs (info : Info) : Int :=
  match info.StartPeriod with
  | some startPeriodNs => if startPeriodNs ≤ 0 then 0 else -(-startPeriodNs / 1000000)
  | none => 0

def getContainerStartedAtMs (info : Info) (fallbackMs : Int) : Int :=
  info.startedAt.getD fallbackMs

structure Locals where
  deadlineMs : Int
  noHealthcheckStableSince : Option Int := none
  noHealthcheckRestartCount : Option Nat := none

inductive State
  /-- Before the condition of the loop. -/
  | polling (locals : Locals)
  /-- After a `break`. -/
  | checking (locals : Locals)
  | done (result : WaitForHealthyResult)

/-- The deadline after an inspection that says how long the container may take to start. -/
def extended (startTime : Int) (locals : Locals) (info : Info) : Locals :=
  if 0 < getHealthcheckStartPeriodMs info then
    { locals with
      deadlineMs := max locals.deadlineMs (getContainerStartedAtMs info startTime +
        getHealthcheckStartPeriodMs info + HEALTHCHECK_START_PERIOD_GRACE_MS) }
  else locals

/-- Running without a healthcheck: since when, and how many restarts. -/
def observed (locals : Locals) (info : Info) (now : Int) : Locals :=
  if locals.noHealthcheckStableSince = none ∨ locals.noHealthcheckRestartCount ≠ info.RestartCount then
    { locals with noHealthcheckStableSince := some now, noHealthcheckRestartCount := info.RestartCount }
  else locals

/-- The end of a turn of the loop. -/
def State.again (locals : Locals) (o : Observation) : State :=
  if locals.deadlineMs - o.remaining ≤ 0 then .checking locals else .polling locals

/-- A turn of the loop. -/
def poll (startTime : Int) (locals : Locals) (o : Observation) : State :=
  match o.inspection with
  | .error message =>
    if isDockerNotFoundError message then .done { healthy := false, error := "Container not found" }
    else .again locals o
  | .info info =>
    let locals := extended startTime locals info
    if info.Restarting then
      .done { healthy := false, exitCode := info.ExitCode
              error := s!"Container is in restart loop (exit code: {info.ExitCode})" }
    else if info.Running = false ∧ info.ExitCode ≠ 0 then
      .done { healthy := false, exitCode := info.ExitCode
              error := s!"Container exited with code {info.ExitCode}" }
    else if info.Running then
      match info.Health with
      | some status =>
        if status = "healthy" then .done { healthy := true } else .again locals o
      | none =>
        let locals := observed locals info o.since
        if locals.noHealthcheckStableSince.any (noHealthcheckStableMs ≤ o.check - ·) then
          .done { healthy := true }
        else .again locals o
    else
      .again { locals with noHealthcheckStableSince := none, noHealthcheckRestartCount := none } o

def stableForMs (locals : Locals) (info : Info) (now : Int) : Int :=
  match locals.noHealthcheckStableSince with
  | some since => if locals.noHealthcheckRestartCount = info.RestartCount then now - since else 0
  | none => 0

/-- The inspection after the loop. -/
def finalCheck (locals : Locals) (o : Observation) : WaitForHealthyResult :=
  match o.inspection with
  | .error _ => { healthy := false, error := "Container check timed out" }
  | .info info =>
    if info.Restarting then
      { healthy := false, exitCode := info.ExitCode
        error := s!"Container entered restart loop (exit code: {info.ExitCode})" }
    else match info.Health with
    | some status =>
      if status = "healthy" then { healthy := true }
      else { healthy := false, exitCode := info.ExitCode, error := s!"Container healthcheck is {status}" }
    | none =>
      if info.Running then
        if noHealthcheckStableMs ≤ stableForMs locals info o.check then { healthy := true }
        else
          { healthy := false, exitCode := info.ExitCode
            error := "Container has no healthcheck and did not remain stable for 5s" }
      else
        { healthy := false, exitCode := info.ExitCode
          error := "Container did not become healthy within timeout" }

def next (startTime : Int) (s : State) (o : Observation) : Option State :=
  match s with
  | .polling locals =>
    some (if o.loop < locals.deadlineMs then poll startTime locals o else .done (finalCheck locals o))
  | .checking locals => some (.done (finalCheck locals o))
  | .done _ => none

def waitForHealthy (startTime timeoutMs : Int) : State := .polling { deadlineMs := startTime + timeoutMs }

/-! ## The window -/

variable {o : Observation} {info : Info} {locals : Locals} {seen : List Observation}

/-- Running, not restarting, and as often restarted as `restartCount` says if there is no healthcheck. -/
structure Info.Steady (restartCount : Option Nat) (info : Info) : Prop where
  running : info.Running = true
  not_restarting : info.Restarting = false
  restartCount_eq : info.Health = none → info.RestartCount = restartCount

/-- What an inspection shows, if it does not fail, is steady. -/
def Observation.Steady (restartCount : Option Nat) (o : Observation) : Prop :=
  ∀ info ∈ o.inspection.info?, info.Steady restartCount

/-- The last observations, from one that showed a container at the time `since` on, are steady. -/
def SteadySince (seen : List Observation) (since : Int) (restartCount : Option Nat) : Prop :=
  ∃ before first rest, seen = before ++ first :: rest ∧ first.since = since ∧
    first.inspection.info?.isSome ∧ ∀ o ∈ first :: rest, o.Steady restartCount

theorem SteadySince.snoc (h : SteadySince seen since restartCount) (ho : o.Steady restartCount) :
    SteadySince (seen ++ [o]) since restartCount := by
  obtain ⟨before, first, rest, rfl, hsince, hshown, hall⟩ := h
  refine ⟨before, first, rest ++ [o], by simp, hsince, hshown, fun o' ho' => ?_⟩
  rw [← List.cons_append, List.mem_append, List.mem_singleton] at ho'
  rcases ho' with ho' | rfl
  · exact hall o' ho'
  · exact ho

theorem SteadySince.single (hi : o.inspection = .info info) (ho : o.Steady restartCount) :
    SteadySince (seen ++ [o]) o.since restartCount := by
  refine ⟨seen, o, [], rfl, rfl, by rw [hi]; rfl, fun o' ho' => ?_⟩
  rw [List.mem_singleton.mp ho']
  exact ho

/-- The last of the observations, and the window before it. -/
def Stable (seen : List Observation) : Prop :=
  ∃ before last since, seen = before ++ [last] ∧ noHealthcheckStableMs ≤ last.check - since ∧
    ∃ info, last.inspection = .info info ∧ info.Health = none ∧
      SteadySince seen since info.RestartCount

/-- An inspection said that the container is healthy. -/
def ReportedHealthy (seen : List Observation) : Prop :=
  ∃ o ∈ seen, ∃ info ∈ o.inspection.info?, info.Health = some "healthy"

/-- What the variables say of the observations so far. -/
def Locals.Describes (seen : List Observation) (locals : Locals) : Prop :=
  ∀ since ∈ locals.noHealthcheckStableSince, SteadySince seen since locals.noHealthcheckRestartCount

def State.Inv (seen : List Observation) : State → Prop
  | .polling locals => locals.Describes seen
  | .checking locals => locals.Describes seen
  | .done result => result.healthy = true → ReportedHealthy seen ∨ Stable seen

theorem Locals.Describes.again (h : locals.Describes seen) :
    (State.again locals o).Inv seen := by
  rw [State.again]
  split <;> exact h

theorem Locals.Describes.extended (h : locals.Describes seen) :
    (extended startTime locals info).Describes seen := by
  rw [WaitForHealthy.extended]
  split <;> exact h

/-- An observation that fails, or that shows the container running, leaves the window open. -/
theorem Locals.Describes.snoc (h : locals.Describes seen)
    (ho : o.Steady locals.noHealthcheckRestartCount) : locals.Describes (seen ++ [o]) :=
  fun since hsince => (h since hsince).snoc ho

theorem reportedHealthy_snoc (hi : o.inspection = .info info) (hhealth : info.Health = some "healthy") :
    ReportedHealthy (seen ++ [o]) :=
  ⟨o, List.mem_append_right _ (.head _), info, by rw [hi]; rfl, hhealth⟩

theorem steady_of_eq (hi : o.inspection = .info info) (h : info.Steady restartCount) :
    o.Steady restartCount := by
  intro info' hinfo'
  rw [hi] at hinfo'
  obtain rfl := Option.some.inj hinfo'
  exact h

theorem steady_of_error (hi : o.inspection = .error message) : o.Steady restartCount := by
  intro info hinfo
  rw [hi] at hinfo
  cases hinfo

theorem observed_restartCount (locals : Locals) (info : Info) (now : Int) :
    (observed locals info now).noHealthcheckRestartCount = info.RestartCount := by
  rw [observed]
  split
  · rfl
  · next h => exact not_not.mp (not_or.mp h).2

theorem Locals.Describes.observed (h : locals.Describes seen)
    (hi : o.inspection = .info info) (hsteady : info.Steady info.RestartCount) :
    (observed locals info o.since).Describes (seen ++ [o]) := by
  rw [WaitForHealthy.observed]
  split
  · intro since hsince
    obtain rfl := Option.some.inj hsince
    exact .single hi (steady_of_eq hi hsteady)
  · next hkeep =>
    have hcount := not_not.mp (not_or.mp hkeep).2
    exact h.snoc (hcount ▸ steady_of_eq hi hsteady)

/-- The window that ends with the observation `o`. -/
theorem Locals.Describes.stable (h : locals.Describes (seen ++ [o]))
    (hi : o.inspection = .info info) (hhealth : info.Health = none)
    (hcount : locals.noHealthcheckRestartCount = info.RestartCount)
    (hsince : since ∈ locals.noHealthcheckStableSince)
    (hle : noHealthcheckStableMs ≤ o.check - since) : Stable (seen ++ [o]) :=
  ⟨seen, o, since, rfl, hle, info, hi, hhealth, hcount ▸ h since hsince⟩

theorem poll_inv (h : locals.Describes seen) :
    (poll startTime locals o).Inv (seen ++ [o]) := by
  rw [poll]
  cases hi : o.inspection with
  | error message =>
    dsimp only
    split
    · exact nofun
    · exact (h.snoc (steady_of_error hi)).again
  | info info =>
    have hext : (extended startTime locals info).Describes seen := h.extended
    dsimp only
    split
    · exact nofun
    next hrestarting =>
    rw [Bool.not_eq_true] at hrestarting
    split
    · exact nofun
    split
    next hrunning =>
      cases hhealth : info.Health with
      | some status =>
        dsimp only
        split
        next hstatus =>
          exact fun _ => .inl (reportedHealthy_snoc hi (hstatus ▸ hhealth))
        · refine (hext.snoc (steady_of_eq hi ⟨hrunning, hrestarting, fun hnone => ?_⟩)).again
          rw [hhealth] at hnone
          cases hnone
      | none =>
        dsimp only
        have hobserved := hext.observed hi ⟨hrunning, hrestarting, fun _ => rfl⟩
        split
        next hstable =>
          obtain ⟨since, hsince, hle⟩ := (Option.any_eq_true _ _).mp hstable
          exact fun _ => .inr (hobserved.stable hi hhealth (observed_restartCount ..) hsince
            (of_decide_eq_true hle))
        · exact hobserved.again
    · exact Locals.Describes.again nofun

theorem finalCheck_inv (h : locals.Describes seen) :
    (State.done (finalCheck locals o)).Inv (seen ++ [o]) := by
  intro hhealthy
  rw [finalCheck] at hhealthy
  cases hi : o.inspection with
  | error message =>
    rw [hi] at hhealthy
    cases hhealthy
  | info info =>
    rw [hi] at hhealthy
    dsimp only at hhealthy
    split at hhealthy
    · cases hhealthy
    next hrestarting =>
    rw [Bool.not_eq_true] at hrestarting
    cases hhealth : info.Health with
    | some status =>
      rw [hhealth] at hhealthy
      dsimp only at hhealthy
      split at hhealthy
      next hstatus => exact .inl (reportedHealthy_snoc hi (hstatus ▸ hhealth))
      · cases hhealthy
    | none =>
      rw [hhealth] at hhealthy
      dsimp only at hhealthy
      split at hhealthy
      next hrunning =>
        split at hhealthy
        next hle =>
          rw [stableForMs] at hle
          split at hle
          next since hsince =>
            split at hle
            next hcount =>
              have hsteady : info.Steady locals.noHealthcheckRestartCount :=
                ⟨hrunning, hrestarting, fun _ => hcount.symm⟩
              exact .inr ((h.snoc (steady_of_eq hi hsteady)).stable hi hhealth hcount hsince hle)
            · exact absurd hle (by decide)
          · exact absurd hle (by decide)
        · cases hhealthy
      · cases hhealthy

theorem next_inv {s t : State} (h : Fires (next startTime) s o t)
    (hs : s.Inv seen) : t.Inv (seen ++ [o]) := by
  rw [Fires] at h
  cases s with
  | polling locals =>
    obtain rfl := Option.some.inj h
    split
    · exact poll_inv hs
    · exact finalCheck_inv hs
  | checking locals =>
    obtain rfl := Option.some.inj h
    exact finalCheck_inv hs
  | done => cases h

/-- Healthy is what an inspection reported, or what no inspection of a long enough window denied. -/
theorem reportedHealthy_or_stable
    (h : exec (next startTime) (waitForHealthy startTime timeoutMs) observations = some (.done result))
    (hhealthy : result.healthy = true) : ReportedHealthy observations ∨ Stable observations :=
  (Run.of_exec h).historic (H := State.Inv) (fun _ _ _ _ => next_inv) nofun hhealthy

/-! ## What healthy means -/

/-- Docker reports no health. -/
def NoHealthcheck (observations : List Observation) : Prop :=
  ∀ o ∈ observations, ∀ info ∈ o.inspection.info?, info.Health = none

/-- Docker reports the health of the container while it runs. -/
def HasHealthcheck (observations : List Observation) : Prop :=
  ∀ o ∈ observations, ∀ info ∈ o.inspection.info?, info.Running = true → info.Health ≠ none

def Observation.Shows (restartCount : Option Nat) (o : Observation) : Prop :=
  ∃ info ∈ o.inspection.info?,
    info.Running = true ∧ info.Restarting = false ∧ info.RestartCount = restartCount

def Observation.Failed (o : Observation) : Prop := o.inspection.info? = none

/-- The last observations, over the stability period at least, are as `p` says. The first and the last one
of them show the container running, not restarting and restarted as often. -/
def StableWindow (p : Option Nat → Observation → Prop) (observations : List Observation) : Prop :=
  ∃ window restartCount, window <:+ observations ∧ (∀ o ∈ window, p restartCount o) ∧
    ∃ first ∈ window.head?, ∃ last ∈ window.getLast?, noHealthcheckStableMs ≤ last.check - first.since ∧
      first.Shows restartCount ∧ last.Shows restartCount

theorem Observation.Steady.shows (h : o.Steady restartCount) (hi : o.inspection = .info info)
    (hhealth : info.Health = none) : o.Shows restartCount := by
  have hinfo : info ∈ o.inspection.info? := by rw [hi]; rfl
  have hsteady := h info hinfo
  exact ⟨info, hinfo, hsteady.running, hsteady.not_restarting, hsteady.restartCount_eq hhealth⟩

theorem Inspection.error_or_info (inspection : Inspection) :
    inspection.info? = none ∨ ∃ info, inspection = .info info := by
  cases inspection with
  | error => exact .inl rfl
  | info info => exact .inr ⟨info, rfl⟩

theorem getLast?_window {before before' rest : List Observation} {last first : Observation}
    (h : before ++ [last] = before' ++ first :: rest) : (first :: rest).getLast? = some last := by
  have := congrArg List.getLast? h
  rw [List.getLast?_concat, List.getLast?_append_of_ne_nil _ (List.cons_ne_nil first rest)] at this
  exact this.symm

/-- Without a healthcheck what is steady fails or shows the container running. -/
theorem Stable.window (h : Stable observations) (hno : NoHealthcheck observations) :
    StableWindow (fun restartCount o => o.Failed ∨ o.Shows restartCount) observations := by
  obtain ⟨_, last, since, hlast, hle, info, hi, hhealth, before, first, rest, heq, rfl, hshown, hsteady⟩ := h
  have hshows : ∀ o ∈ first :: rest, o.inspection.info?.isSome → o.Shows info.RestartCount := by
    intro o ho hsome
    rcases o.inspection.error_or_info with hnone | ⟨info', hi'⟩
    · rw [hnone] at hsome
      cases hsome
    · have hmem : o ∈ observations := heq ▸ List.mem_append_right before ho
      exact (hsteady o ho).shows hi' (hno o hmem info' (by rw [hi']; rfl))
  have hgetLast := getLast?_window (hlast.symm.trans heq)
  refine ⟨first :: rest, info.RestartCount, ⟨before, heq.symm⟩, fun o ho => ?_, first, rfl, last, hgetLast, hle,
    hshows first (.head _) hshown, ?_⟩
  · rcases o.inspection.error_or_info with hnone | ⟨info', hi'⟩
    · exact .inl hnone
    · exact .inr (hshows o ho (by rw [hi']; rfl))
  · exact hshows last (List.mem_of_getLast? hgetLast) (by rw [hi]; rfl)

/-- A container that is said to be healthy was reported as such, or has been running for the stability
period without a restart; inspections that fail meanwhile neither count nor start the period again. -/
theorem healthy_of_window
    (h : exec (next startTime) (waitForHealthy startTime timeoutMs) observations = some (.done result))
    (hhealthy : result.healthy = true) :
    (NoHealthcheck observations →
      StableWindow (fun restartCount o => o.Failed ∨ o.Shows restartCount) observations) ∧
    (HasHealthcheck observations → ReportedHealthy observations) := by
  rcases reportedHealthy_or_stable h hhealthy with hreported | hstable
  · refine ⟨fun hno => ?_, fun _ => hreported⟩
    obtain ⟨o, ho, info, hinfo, hhealth⟩ := hreported
    rw [hno o ho info hinfo] at hhealth
    cases hhealth
  · refine ⟨hstable.window, fun hhas => ?_⟩
    obtain ⟨before, last, since, rfl, _, info, hi, hhealth, hsince⟩ := hstable
    obtain ⟨_, first, rest, heq, _, _, hsteady⟩ := hsince
    have hinfo : info ∈ last.inspection.info? := by rw [hi]; rfl
    have hlast : last ∈ first :: rest := List.mem_of_getLast? (getLast?_window heq)
    exact absurd hhealth
      (hhas last (List.mem_append_right _ (.head _)) info hinfo (hsteady last hlast info hinfo).running)

def up : Inspection := .info { Running := true, RestartCount := some 0 }
def timeout : Inspection := .error "The operation was aborted due to timeout".toList

/-- The inspection in the middle fails. -/
def interrupted : List Observation :=
  [⟨0, up, 100, 100, 200⟩, ⟨700, timeout, 0, 0, 4600⟩, ⟨5100, up, 5100, 5100, 5100⟩]

/-- A healthcheck that takes two inspections. -/
def checked : List Observation :=
  [⟨0, .info { Running := true, Health := some "starting" }, 0, 0, 100⟩,
    ⟨600, .info { Running := true, Health := some "healthy" }, 0, 0, 700⟩]

theorem healthy_of_window_examples :
    StableWindow (fun restartCount o => o.Failed ∨ o.Shows restartCount) interrupted ∧
      ReportedHealthy checked := by
  constructor
  · refine (@healthy_of_window 0 15000 interrupted { healthy := true } rfl rfl).1 ?_
    intro o ho info hinfo
    simp only [interrupted, List.mem_cons, List.not_mem_nil, or_false] at ho
    rcases ho with rfl | rfl | rfl <;> cases hinfo <;> rfl
  · refine (@healthy_of_window 0 15000 checked { healthy := true } rfl rfl).2 ?_
    intro o ho info hinfo _
    simp only [checked, List.mem_cons, List.not_mem_nil, or_false] at ho
    rcases ho with rfl | rfl <;> cases hinfo <;> exact nofun

/-- The observations of the window do not all show the container. -/
theorem not_forall_window_shows :
    ¬ ∀ startTime timeoutMs observations result,
      exec (next startTime) (waitForHealthy startTime timeoutMs) observations = some (.done result) →
      result.healthy = true → NoHealthcheck observations →
      StableWindow (fun restartCount o => o.Shows restartCount) observations := by
  intro h
  obtain ⟨window, _, hsuffix, hall, first, hfirst, last, hlast, hle, -⟩ :=
    h 0 15000 interrupted { healthy := true } rfl rfl fun o ho info hinfo => by
      simp only [interrupted, List.mem_cons, List.not_mem_nil, or_false] at ho
      rcases ho with rfl | rfl | rfl <;> cases hinfo <;> rfl
  have hmiddle : ⟨700, timeout, 0, 0, 4600⟩ ∉ window := fun hmem => nomatch hall _ hmem
  rw [← List.mem_tails] at hsuffix
  simp only [interrupted, List.tails, List.mem_cons, List.not_mem_nil, or_false] at hsuffix
  rcases hsuffix with rfl | rfl | rfl | rfl
  · exact hmiddle (.tail _ (.head _))
  · exact hmiddle (.head _)
  · cases hfirst
    cases hlast
    exact absurd hle (by decide)
  · cases hfirst

end OpenLander.WaitForHealthy
