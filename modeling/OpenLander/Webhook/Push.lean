import OpenLander.Theory.Json

/-! # Push deliveries

`handleWebhook` (`src/webhook/index.ts`) on push events. A delivery says which branches and tags were created,
moved or deleted. The payload of each provider is read as one branch with one commit, and an environment that
tracks the branch is deployed, or the project if none does and the branch is that of the filter. -/

namespace OpenLander.Webhook.Push
open Theory

inductive WebhookSource
  | github | gitlab | bitbucket
  deriving DecidableEq, Repr

/-! ## Payloads -/

def getString : Option Json → List Char
  | some (.string text) => text
  | _ => []

def nestedUnknown (obj : Json) : List String → Option Json
  | [] => some obj
  | key :: keys => (obj.get key.toList).bind (nestedUnknown · keys)

def nestedString (obj : Json) (keys : List String) : List Char := getString (nestedUnknown obj keys)

/-- `left || right` -/
def orElse (left right : List Char) : List Char := if left = [] then right else left

structure ParsedPushEvent where
  branch : List Char
  commitSha : List Char
  repoUrl : List Char

/-- The event, unless a part is empty. -/
def parsedPush (branch commitSha repoUrl : List Char) : Option ParsedPushEvent :=
  if branch = [] ∨ commitSha = [] then none else some ⟨branch, commitSha, repoUrl⟩

/-- `refs/heads/` -/
def headsPrefix : List Char := ['r', 'e', 'f', 's', '/', 'h', 'e', 'a', 'd', 's', '/']

def branchFromRef (ref : List Char) : List Char :=
  if headsPrefix.isPrefixOf ref then ref.drop headsPrefix.length else ref

def parseGitHubPayload (payload : Json) : Option ParsedPushEvent :=
  parsedPush (branchFromRef (getString (payload.get "ref".toList)))
    (orElse (getString (payload.get "after".toList)) (nestedString payload ["head_commit", "id"]))
    (orElse (nestedString payload ["repository", "clone_url"]) (nestedString payload ["repository", "html_url"]))

def parseGitLabPayload (payload : Json) : Option ParsedPushEvent :=
  parsedPush (branchFromRef (getString (payload.get "ref".toList)))
    (orElse (getString (payload.get "checkout_sha".toList)) (getString (payload.get "after".toList)))
    (orElse (nestedString payload ["project", "git_http_url"])
      (orElse (nestedString payload ["project", "web_url"]) (nestedString payload ["project", "homepage"])))

/-- The elements of an array. -/
def elements : Option Json → Option (List Json)
  | some (.array entries) => some entries
  | _ => none

/-- The first of the strings that is not empty. -/
def firstHref (links : List Json) : List Char :=
  (links.find? fun link => nestedString link ["href"] ≠ []).elim [] (nestedString · ["href"])

def bitbucketCloneUrl (payload : Json) : List Char :=
  (elements (nestedUnknown payload ["repository", "links", "clone"])).elim [] firstHref

/-- The name and the commit of a change, if it has both. -/
def changed (entry : Json) : Option (List Char × List Char) :=
  let maybeBranch := nestedString entry ["new", "name"]
  let maybeSha := nestedString entry ["new", "target", "hash"]
  if maybeBranch ≠ [] ∧ maybeSha ≠ [] then some (maybeBranch, maybeSha) else none

def parseBitbucketPayload (payload : Json) : Option ParsedPushEvent :=
  (elements (nestedUnknown payload ["push", "changes"])).bind fun changes =>
    -- the loop stops at the first entry with both
    let (branch, commitSha) := (changes.findSome? changed).getD ([], [])
    parsedPush branch commitSha
      (orElse (nestedString payload ["repository", "links", "html", "href"]) (bitbucketCloneUrl payload))

/-- `typeof payload === 'object'`, but for `null`. -/
def isObject : Json → Bool
  | .array _ | .object _ => true
  | _ => false

def parsePushPayload (source : WebhookSource) (body : List Char) : Option ParsedPushEvent :=
  (Json.parse body).bind fun payload =>
    if isObject payload then
      match source with
      | .github => parseGitHubPayload payload
      | .gitlab => parseGitLabPayload payload
      | .bitbucket => parseBitbucketPayload payload
    else none

/-! ## The handler -/

inductive EnvironmentType
  | production | development
  deriving DecidableEq, Repr

structure Environment where
  id : String
  type : EnvironmentType
  branch : Option (List Char)
  deriving DecidableEq

def resolvePushEnvironment (environments : List Environment) (branch : List Char) : Option Environment :=
  let branchMatches := environments.filter (·.branch = some branch)
  let production := if branch = "main".toList then branchMatches.find? (·.type = .production) else none
  production.or ((branchMatches.find? (·.type = .development)).or branchMatches.head?)

structure WebhookConfig where
  enabled : Bool
  branch_filter : Option (List Char)

/-- `config.branch_filter || 'main'` -/
def WebhookConfig.expectedBranch (config : WebhookConfig) : List Char :=
  orElse (config.branch_filter.getD []) "main".toList

/-- A request, and what the handler finds. -/
structure Call where
  source : WebhookSource
  headers : String → Option String
  body : List Char
  projectExists : Bool
  config : Option WebhookConfig
  /-- `verifySourceSignature` -/
  verified : Bool
  environments : List Environment
  /-- `acquireProjectLock`, where there is an agent pool. -/
  lockAcquired : Bool

inductive Outcome
  | refused (message : String)
  /-- The event is of a pull request. -/
  | pullRequest
  /-- The project's lock is held by another session. -/
  | busy
  | deployEnvironment (environment : Environment)
  | redeploy

def isPREvent (source : WebhookSource) (headers : String → Option String) : Bool :=
  match source with
  | .github => headers "x-github-event" = some "pull_request"
  | .gitlab => headers "x-gitlab-event" = some "Merge Request Hook"
  | .bitbucket => "pullrequest:".toList.isPrefixOf ((headers "x-event-key").getD "").toList

def isPushEvent (source : WebhookSource) (headers : String → Option String) : Bool :=
  match source with
  | .github => headers "x-github-event" = some "push"
  | .gitlab => headers "x-gitlab-event" = some "Push Hook"
  | .bitbucket => headers "x-event-key" = some "repo:push"

/-- What the handler does with the branch of a push. -/
def handlePush (call : Call) (config : WebhookConfig) (branch : List Char) : Outcome :=
  match resolvePushEnvironment call.environments branch with
  | some environment => if call.lockAcquired then .deployEnvironment environment else .busy
  | none =>
    if branch ≠ config.expectedBranch then
      .refused
        s!"Ignored push to '{String.ofList branch}' (filter '{String.ofList config.expectedBranch}')."
    else if call.lockAcquired then .redeploy
    else .busy

def handleWebhook (call : Call) : Outcome :=
  if (call.headers "x-openlander-project-id").getD "" = "" then .refused "Missing project id."
  else if !call.projectExists then .refused "Project not found."
  else
    match call.config with
    | none => .refused "Webhook config missing or disabled."
    | some config =>
      if !config.enabled then .refused "Webhook config missing or disabled."
      else if !call.verified then .refused "Signature verification failed."
      else if isPREvent call.source call.headers then .pullRequest
      else if !isPushEvent call.source call.headers then .refused "Ignored non-push event."
      else
        match parsePushPayload call.source call.body with
        | none => .refused "Invalid push payload."
        | some parsed => handlePush call config parsed.branch

/-! ## Deliveries -/

inductive Ref
  | branch (name : List Char)
  | tag (name : List Char)
  deriving DecidableEq

/-- `refs/tags/` -/
def tagsPrefix : List Char := ['r', 'e', 'f', 's', '/', 't', 'a', 'g', 's', '/']

namespace Ref

def name : Ref → List Char
  | branch name | tag name => name

def full : Ref → List Char
  | branch name => headsPrefix ++ name
  | tag name => tagsPrefix ++ name

def kind : Ref → List Char
  | branch _ => "branch".toList
  | tag _ => "tag".toList

end Ref

/-- A ref that was set to a commit, or deleted. -/
structure Change where
  ref : Ref
  commit : Option (List Char)
  name_ne : ref.name ≠ []
  commit_ne : ∀ sha ∈ commit, sha ≠ []

/-- The `after` of a deletion. -/
def zeros : List Char := List.replicate 40 '0'

def string? (text : List Char) : Option Json := some (.string text)

structure GitHubPush (payload : Json) (change : Change) : Prop where
  ref : payload.get "ref".toList = string? change.ref.full
  after : payload.get "after".toList = string? (change.commit.getD zeros)

structure GitLabPush (payload : Json) (change : Change) : Prop where
  ref : payload.get "ref".toList = string? change.ref.full
  after : payload.get "after".toList = string? (change.commit.getD zeros)
  checkout_sha : payload.get "checkout_sha".toList = some (change.commit.elim .null .string)

/-- An entry of `push.changes`. The new state of a deleted ref is `null`. -/
structure BitbucketChange (entry : Json) (change : Change) : Prop where
  deleted : change.commit = none → entry.get "new".toList = some .null
  name : ∀ sha ∈ change.commit, nestedUnknown entry ["new", "name"] = string? change.ref.name
  type : ∀ sha ∈ change.commit, nestedUnknown entry ["new", "type"] = string? change.ref.kind
  hash : ∀ sha ∈ change.commit, nestedUnknown entry ["new", "target", "hash"] = string? sha

/-- The event and the payload with which a provider delivers changes. -/
inductive Delivers : WebhookSource → Option String → Json → List Change → Prop
  | github (h : GitHubPush payload change) : Delivers .github (some "push") payload [change]
  | gitlab (h : GitLabPush payload change) :
    Delivers .gitlab (some (match change.ref with | .branch _ => "Push Hook" | .tag _ => "Tag Push Hook"))
      payload [change]
  | bitbucket (hchanges : nestedUnknown payload ["push", "changes"] = some (.array entries))
    (h : List.Forall₂ BitbucketChange entries changes) : Delivers .bitbucket (some "repo:push") payload changes

def eventHeader : WebhookSource → String
  | .github => "x-github-event"
  | .gitlab => "x-gitlab-event"
  | .bitbucket => "x-event-key"

/-- A verified delivery of changes to a project. -/
structure PushDelivery (call : Call) (config : WebhookConfig) (changes : List Change) : Prop where
  projectId : (call.headers "x-openlander-project-id").getD "" ≠ ""
  projectExists : call.projectExists = true
  config_eq : call.config = some config
  enabled : config.enabled = true
  verified : call.verified = true
  delivers : ∃ payload, Json.parse call.body = some payload ∧
    Delivers call.source (call.headers (eventHeader call.source)) payload changes

/-! ## What a delivery asks for -/

/-- A change sets the branch to a commit. -/
def Sets (changes : List Change) (branch : List Char) : Prop :=
  ∃ change ∈ changes, change.ref = .branch branch ∧ change.commit.isSome

/-- An environment tracks the branch. -/
def Tracked (call : Call) (branch : List Char) : Prop := ∃ e ∈ call.environments, e.branch = some branch

/-- A push to the branch is to be deployed. -/
def Deployable (call : Call) (config : WebhookConfig) (branch : List Char) : Prop :=
  Tracked call branch ∨ ¬Tracked call branch ∧ branch = config.expectedBranch

/-- The delivery sets a branch that is to be deployed. -/
def Wanted (call : Call) (config : WebhookConfig) (changes : List Change) : Prop :=
  ∃ branch, Sets changes branch ∧ Deployable call config branch

def Outcome.Dispatches : Outcome → Prop
  | deployEnvironment _ | redeploy => True
  | _ => False

/-- The delivery is deployed if it asks for it, an environment only if its branch was set. -/
structure Exact (call : Call) (config : WebhookConfig) (changes : List Change) : Prop where
  dispatches_iff : (handleWebhook call).Dispatches ↔ Wanted call config changes
  environment : ∀ e, handleWebhook call = .deployEnvironment e →
    ∃ branch, e.branch = some branch ∧ Sets changes branch

/-- The branch that a change is taken for: a tag has its full name with GitHub and is another event with
GitLab, and a deletion is not told apart by either of them. -/
def Change.shownAs (source : WebhookSource) (change : Change) : Option (List Char) :=
  match source with
  | .github => some (match change.ref with | .branch name => name | .tag _ => change.ref.full)
  | .gitlab => match change.ref with | .branch name => some name | .tag _ => none
  | .bitbucket => change.commit.map fun _ => change.ref.name

/-- The first change that is taken for a branch stands for all: it is to be deployed if and only if the
delivery asks for it, and its branch was set where an environment tracks it. -/
def Represented (call : Call) (config : WebhookConfig) (changes : List Change) : Prop :=
  match changes.findSome? (·.shownAs call.source) with
  | some branch => (Deployable call config branch ↔ Wanted call config changes) ∧
    (Tracked call branch → Sets changes branch)
  | none => ¬Wanted call config changes

/-! ## Reading a payload -/

theorem orElse_of_ne (h : left ≠ []) : orElse left right = left := if_neg h

theorem branchFromRef_branch (name : List Char) : branchFromRef (Ref.branch name).full = name := by
  rw [branchFromRef, Ref.full, if_pos (List.isPrefixOf_iff_prefix.mpr (List.prefix_append ..)), List.drop_left]

theorem branchFromRef_tag (name : List Char) :
    branchFromRef (Ref.tag name).full = (Ref.tag name).full := if_neg (by simp [headsPrefix, tagsPrefix, Ref.full])

theorem full_ne_nil (ref : Ref) : ref.full ≠ [] := by
  cases ref <;> simp [Ref.full, headsPrefix, tagsPrefix]

/-- The name that a ref is read as. -/
theorem branchFromRef_full (ref : Ref) :
    branchFromRef ref.full = match ref with | .branch name => name | .tag _ => ref.full := by
  cases ref with
  | branch name => exact branchFromRef_branch name
  | tag name => exact branchFromRef_tag name

theorem branch_parsedPush (hbranch : branch ≠ []) (hsha : sha ≠ []) :
    (parsedPush branch sha url).map (·.branch) = some branch := by
  rw [parsedPush, if_neg (not_or.mpr ⟨hbranch, hsha⟩)]
  rfl

namespace Change
variable {change : Change}

theorem after_ne_nil (change : Change) : change.commit.getD zeros ≠ [] := by
  cases h : change.commit with
  | none => simp [zeros]
  | some sha => exact change.commit_ne sha h

theorem branchFromRef_ne_nil (change : Change) : branchFromRef change.ref.full ≠ [] := by
  rw [branchFromRef_full]
  have hname := change.name_ne
  cases h : change.ref with
  | branch name => rwa [h] at hname
  | tag name => exact full_ne_nil _

end Change

theorem GitHubPush.branch (h : GitHubPush payload change) :
    (parseGitHubPayload payload).map (·.branch) = change.shownAs .github := by
  rw [parseGitHubPayload, h.ref, h.after]
  rw [show getString (string? (change.commit.getD zeros)) = change.commit.getD zeros from rfl,
    orElse_of_ne change.after_ne_nil]
  rw [show getString (string? change.ref.full) = change.ref.full from rfl,
    branch_parsedPush change.branchFromRef_ne_nil change.after_ne_nil, branchFromRef_full]
  rfl

theorem GitLabPush.branch (h : GitLabPush payload change) (href : change.ref = .branch name) :
    (parseGitLabPayload payload).map (·.branch) = some name := by
  have hsha : orElse (getString (payload.get "checkout_sha".toList)) (getString (payload.get "after".toList)) ≠ [] := by
    rw [h.checkout_sha, h.after]
    cases hcommit : change.commit with
    | none => simp [orElse, getString, string?, zeros]
    | some sha =>
      have hne := change.commit_ne sha hcommit
      simp [orElse, getString, hne]
  rw [parseGitLabPayload, h.ref, show getString (string? change.ref.full) = change.ref.full from rfl,
    branch_parsedPush change.branchFromRef_ne_nil hsha, href, branchFromRef_branch]

theorem BitbucketChange.changed (h : BitbucketChange entry change) :
    (changed entry).map (·.1) = change.shownAs .bitbucket ∧ ∀ m ∈ Push.changed entry, m.1 ≠ [] ∧ m.2 ≠ [] := by
  cases hcommit : change.commit with
  | none =>
    have hnew := h.deleted hcommit
    have hname : nestedString entry ["new", "name"] = [] := by
      rw [nestedString, nestedUnknown, hnew]
      rfl
    simp [Push.changed, hname, Change.shownAs, hcommit]
  | some sha =>
    have hname : nestedString entry ["new", "name"] = change.ref.name := by
      rw [nestedString, h.name sha hcommit]
      rfl
    have hhash : nestedString entry ["new", "target", "hash"] = sha := by
      rw [nestedString, h.hash sha hcommit]
      rfl
    have hne := change.name_ne
    have hsha := change.commit_ne sha hcommit
    simp [Push.changed, hname, hhash, hne, hsha, Change.shownAs, hcommit]

theorem findSome?_changed (h : List.Forall₂ BitbucketChange entries changes) :
    (entries.findSome? changed).map (·.1) = changes.findSome? (·.shownAs .bitbucket) ∧
      ∀ m ∈ entries.findSome? changed, m.1 ≠ [] ∧ m.2 ≠ [] := by
  induction h with
  | nil => exact ⟨rfl, nofun⟩
  | @cons entry change entries changes hentry _ ih =>
    obtain ⟨hshown, hne⟩ := hentry.changed
    rw [List.findSome?_cons, List.findSome?_cons, ← hshown]
    cases hchanged : changed entry with
    | none => exact ih
    | some m =>
      rw [hchanged] at hne
      exact ⟨rfl, hne⟩

theorem branch_parseBitbucketPayload (hchanges : nestedUnknown payload ["push", "changes"] = some (.array entries))
    (h : List.Forall₂ BitbucketChange entries changes) :
    (parseBitbucketPayload payload).map (·.branch) = changes.findSome? (·.shownAs .bitbucket) := by
  obtain ⟨hshown, hne⟩ := findSome?_changed h
  rw [parseBitbucketPayload, hchanges, elements, Option.bind_some, ← hshown]
  cases hfind : entries.findSome? changed with
  | none => rfl
  | some m =>
    obtain ⟨hbranch, hsha⟩ := hne m hfind
    exact branch_parsedPush hbranch hsha

theorem isObject_of_get (h : (payload : Json).get key = some value) : isObject payload = true := by
  cases payload with
  | object members => rfl
  | _ => cases h

/-- What the handler reads of a push event is the first change that is taken for a branch. -/
theorem branch_parsePushPayload (hparse : Json.parse body = some payload)
    (h : Delivers source event payload changes)
    (hevent : ∀ headers : String → Option String, headers (eventHeader source) = event →
      isPushEvent source headers = true) :
    (parsePushPayload source body).map (·.branch) = changes.findSome? (·.shownAs source) := by
  rw [parsePushPayload, hparse, Option.bind_some]
  cases h with
  | github h =>
    rw [if_pos (isObject_of_get h.ref), List.findSome?_singleton]
    exact h.branch
  | @gitlab _ change h =>
    rw [if_pos (isObject_of_get h.ref), List.findSome?_singleton]
    cases href : change.ref with
    | branch name =>
      refine (h.branch href).trans ?_
      rw [Change.shownAs, href]
    | tag name =>
      have := hevent (fun _ => some "Tag Push Hook") (by rw [href])
      exact absurd this (by decide)
  | bitbucket hchanges h =>
    have hobject : isObject payload = true := by
      rw [nestedUnknown] at hchanges
      obtain ⟨push, hpush, _⟩ := Option.bind_eq_some_iff.mp hchanges
      exact isObject_of_get hpush
    rw [if_pos hobject]
    exact branch_parseBitbucketPayload hchanges h

/-! ## The environment of a branch -/

section
variable {call : Call} {config : WebhookConfig} {changes : List Change}

theorem resolvePushEnvironment_mem (h : resolvePushEnvironment environments branch = some e) :
    e ∈ environments ∧ e.branch = some branch := by
  have hmem : e ∈ environments.filter (·.branch = some branch) := by
    rw [resolvePushEnvironment] at h
    rcases Option.or_eq_some_iff.mp h with h | ⟨-, h⟩
    · split at h
      · exact List.mem_of_find?_eq_some h
      · cases h
    · rcases Option.or_eq_some_iff.mp h with h | ⟨-, h⟩
      · exact List.mem_of_find?_eq_some h
      · exact List.mem_of_head? h
  obtain ⟨hmem, hbranch⟩ := List.mem_filter.mp hmem
  exact ⟨hmem, of_decide_eq_true hbranch⟩

theorem resolvePushEnvironment_eq_none (h : resolvePushEnvironment call.environments branch = none) :
    ¬Tracked call branch := by
  rintro ⟨e, he, hbranch⟩
  have hmem : e ∈ call.environments.filter (·.branch = some branch) :=
    List.mem_filter.mpr ⟨he, decide_eq_true hbranch⟩
  rw [resolvePushEnvironment, Option.or_eq_none_iff, Option.or_eq_none_iff, List.head?_eq_none_iff] at h
  rw [h.2.2] at hmem
  cases hmem

theorem handlePush_dispatches_iff (hlock : call.lockAcquired = true) :
    (handlePush call config branch).Dispatches ↔ Deployable call config branch := by
  rw [handlePush]
  cases hresolve : resolvePushEnvironment call.environments branch with
  | some e =>
    obtain ⟨he, hbranch⟩ := resolvePushEnvironment_mem hresolve
    simp only [hlock, if_true, Outcome.Dispatches, true_iff]
    exact .inl ⟨e, he, hbranch⟩
  | none =>
    have htracked := resolvePushEnvironment_eq_none hresolve
    simp only [hlock, if_true, Deployable, htracked, not_false_eq_true, false_or, true_and]
    split
    next hne => exact iff_of_false id hne
    next heq => exact iff_of_true trivial (not_not.mp heq)

theorem handlePush_not_dispatches (hlock : call.lockAcquired = false) :
    ¬(handlePush call config branch).Dispatches := by
  rw [handlePush]
  cases resolvePushEnvironment call.environments branch with
  | some e =>
    rw [hlock]
    exact id
  | none =>
    rw [hlock]
    dsimp only
    split <;> exact id

theorem branch_of_handlePush (h : handlePush call config branch = .deployEnvironment e) :
    e.branch = some branch ∧ Tracked call branch := by
  rw [handlePush] at h
  cases hresolve : resolvePushEnvironment call.environments branch with
  | some e' =>
    rw [hresolve] at h
    dsimp only at h
    split at h
    · obtain rfl := Outcome.deployEnvironment.inj h
      obtain ⟨he, hbranch⟩ := resolvePushEnvironment_mem hresolve
      exact ⟨hbranch, e', he, hbranch⟩
    · cases h
  | none =>
    rw [hresolve] at h
    dsimp only at h
    split at h
    · cases h
    · split at h <;> cases h

theorem handlePush_of_tracked (hlock : call.lockAcquired = true) (h : Tracked call branch) :
    ∃ e, handlePush call config branch = .deployEnvironment e ∧ e.branch = some branch := by
  cases hresolve : resolvePushEnvironment call.environments branch with
  | some e =>
    refine ⟨e, ?_, (resolvePushEnvironment_mem hresolve).2⟩
    rw [handlePush, hresolve]
    exact if_pos hlock
  | none => exact absurd h (resolvePushEnvironment_eq_none hresolve)

/-! ## Deliveries -/

theorem isPREvent_of_delivers (h : Delivers source (headers (eventHeader source)) payload changes) :
    isPREvent source headers = false := by
  generalize hevent : headers (eventHeader source) = event at h
  cases h with
  | github h => rw [isPREvent, show headers "x-github-event" = _ from hevent]; rfl
  | gitlab h =>
    rw [isPREvent, show headers "x-gitlab-event" = _ from hevent]
    split <;> rfl
  | bitbucket hchanges h => rw [isPREvent, show headers "x-event-key" = _ from hevent]; rfl

/-- The source, the event and the payload are read up to the branch. -/
theorem handleWebhook_eq (h : PushDelivery call config changes) :
    match changes.findSome? (·.shownAs call.source) with
    | some branch => handleWebhook call = handlePush call config branch
    | none => ∃ message, handleWebhook call = .refused message := by
  obtain ⟨payload, hparse, hdelivers⟩ := h.delivers
  have hhandle : handleWebhook call =
      if !isPushEvent call.source call.headers then .refused "Ignored non-push event."
      else
        match parsePushPayload call.source call.body with
        | none => .refused "Invalid push payload."
        | some parsed => handlePush call config parsed.branch := by
    rw [handleWebhook, if_neg h.projectId, h.projectExists, h.config_eq]
    simp only [h.enabled, h.verified, isPREvent_of_delivers hdelivers, Bool.not_true, Bool.false_eq_true, if_false]
  rw [hhandle]
  cases hpush : isPushEvent call.source call.headers with
  | true =>
    have hbranch := branch_parsePushPayload hparse hdelivers fun headers hheaders => by
      rw [← hpush]
      cases hsource : call.source <;> simp only [hsource, eventHeader] at hheaders <;>
        simp only [isPushEvent, hheaders]
    rw [← hbranch]
    cases parsePushPayload call.source call.body with
    | none => exact ⟨_, rfl⟩
    | some parsed => rfl
  | false =>
    generalize hsource : call.source = source at *
    generalize hevent : call.headers (eventHeader source) = event at hdelivers
    cases hdelivers with
    | github h =>
      rw [isPushEvent, show call.headers "x-github-event" = _ from hevent] at hpush
      cases hpush
    | @gitlab _ change h =>
      cases href : change.ref with
      | branch name =>
        rw [isPushEvent, show call.headers "x-gitlab-event" = _ from hevent, href] at hpush
        cases hpush
      | tag name =>
        rw [List.findSome?_singleton, Change.shownAs, href]
        exact ⟨_, rfl⟩
    | bitbucket hchanges h =>
      rw [isPushEvent, show call.headers "x-event-key" = _ from hevent] at hpush
      cases hpush

/-- A delivery is deployed exactly as it asks if and only if the change that is taken for all represents it, or
the project is busy and there was nothing to deploy. -/
theorem exact_push_iff (h : PushDelivery call config changes) :
    Exact call config changes ↔
      if call.lockAcquired then Represented call config changes else ¬Wanted call config changes := by
  have heq := handleWebhook_eq h
  rw [Represented]
  cases hshown : changes.findSome? (·.shownAs call.source) with
  | none =>
    rw [hshown] at heq
    obtain ⟨message, heq⟩ := heq
    rw [ite_self]
    constructor
    · intro hexact hwanted
      have := hexact.dispatches_iff.mpr hwanted
      rw [heq] at this
      exact this
    · intro hwanted
      exact ⟨by rw [heq]; exact iff_of_false id hwanted, by rw [heq]; exact nofun⟩
  | some branch =>
    rw [hshown] at heq
    dsimp only at heq ⊢
    cases hlock : call.lockAcquired with
    | false =>
      have hnot := @handlePush_not_dispatches call config branch hlock
      rw [if_neg Bool.false_ne_true]
      constructor
      · exact fun hexact hwanted => hnot (heq ▸ hexact.dispatches_iff.mpr hwanted)
      · intro hwanted
        refine ⟨by rw [heq]; exact iff_of_false hnot hwanted, fun e he => ?_⟩
        rw [heq] at he
        rw [he] at hnot
        exact absurd trivial hnot
    | true =>
      have hdispatches := @handlePush_dispatches_iff call config branch hlock
      rw [if_pos rfl]
      constructor
      · intro hexact
        refine ⟨?_, fun htracked => ?_⟩
        · rw [← hdispatches, ← heq]
          exact hexact.dispatches_iff
        · obtain ⟨e, he, hbranch⟩ := @handlePush_of_tracked _ config _ hlock htracked
          obtain ⟨branch', hbranch', hsets⟩ := hexact.environment e (heq.trans he)
          rw [hbranch] at hbranch'
          exact Option.some.inj hbranch' ▸ hsets
      · rintro ⟨hiff, hsets⟩
        refine ⟨by rw [heq, hdispatches, hiff], fun e he => ?_⟩
        rw [heq] at he
        obtain ⟨hbranch, htracked⟩ := branch_of_handlePush he
        exact ⟨branch, hbranch, hsets htracked⟩

end

/-! ## A push and a deletion -/

def main : List Char := ['m', 'a', 'i', 'n']

/-- A delivery of GitHub about the branch `main`, to a project with an environment for it. -/
def mainCall (after : List Char) : Call where
  source := .github
  headers key := if key = "x-github-event" then some "push" else some "p"
  body := Json.stringify [("ref".toList, .text (headsPrefix ++ main)), ("after".toList, .text after)]
  projectExists := true
  config := some ⟨true, none⟩
  verified := true
  environments := [⟨"e", .production, some main⟩]
  lockAcquired := true

def mainChange (commit : Option (List Char)) (commit_ne : ∀ sha ∈ commit, sha ≠ []) : Change :=
  ⟨.branch main, commit, by decide, commit_ne⟩

def pushed : Change := mainChange (some ['a', '1']) (by decide)
def deleted : Change := mainChange none (by decide)

theorem pushDelivery_mainCall (commit : Option (List Char)) (hne : ∀ sha ∈ commit, sha ≠ []) :
    PushDelivery (mainCall (commit.getD zeros)) ⟨true, none⟩ [mainChange commit hne] where
  projectId := by simp [mainCall]
  projectExists := rfl
  config_eq := rfl
  enabled := rfl
  verified := rfl
  delivers := ⟨_, Json.parse_stringify _, .github ⟨rfl, rfl⟩⟩

theorem tracked_mainCall (after : List Char) : Tracked (mainCall after) main :=
  ⟨⟨"e", .production, some main⟩, .head _, rfl⟩

theorem exact_pushed : Exact (mainCall ['a', '1']) ⟨true, none⟩ [pushed] := by
  have hsets : Sets [pushed] main := ⟨pushed, .head _, rfl, rfl⟩
  have hdeployable : Deployable (mainCall ['a', '1']) ⟨true, none⟩ main := .inl (tracked_mainCall _)
  exact (exact_push_iff (pushDelivery_mainCall (some ['a', '1']) (by decide))).mpr
    ⟨iff_of_true hdeployable ⟨main, hsets, hdeployable⟩, fun _ => hsets⟩

/-- The branch is deleted, and its environment is deployed. -/
theorem not_forall_exact_push : ¬∀ (call : Call) (config : WebhookConfig) (changes : List Change),
    PushDelivery call config changes → Exact call config changes := by
  intro h
  have hexact := h _ _ _ (pushDelivery_mainCall none (by decide))
  have hhandle := handleWebhook_eq (pushDelivery_mainCall none (by decide))
  obtain ⟨e, he, -⟩ := @handlePush_of_tracked (mainCall zeros) ⟨true, none⟩ main rfl (tracked_mainCall _)
  obtain ⟨_, -, change, hchange, -, hcommit⟩ := hexact.environment e (hhandle.trans he)
  rw [List.mem_singleton.mp hchange] at hcommit
  cases hcommit

end OpenLander.Webhook.Push
