import OpenLander.Compose.Names
import OpenLander.Theory.Prog

/-! # The swap of a stateful container

`prepareApprovedStatefulSwap` (`src/pipeline/compose.ts`, 622-679) stops the container of a stateful
service, backs its volumes up, renames it and takes it off its networks. Where one of these calls
rejects, the `catch` takes the rename back if it has returned, connects the container to its
networks again and starts it. The name that it gives back is that of the parameters, not the one
that the container had. -/

namespace OpenLander.Compose.SwapPreparation
open Theory

/-- The networks of a container, each with the aliases in it. -/
structure Networks where
  entries : List (String × List String)
  nodup : (entries.map (·.1)).Nodup

namespace Networks

/-- A network that the container is not connected to is left out. -/
def disconnect (s : Networks) (name : String) : Networks where
  entries := s.entries.filter (·.1 ≠ name)
  nodup := s.nodup.sublist (List.filter_sublist.map _)

/-- A container that is connected already keeps its aliases. -/
def connect (s : Networks) (name : String) (aliases : List String) : Networks :=
  if h : name ∈ s.entries.map (·.1) then s
  else
    { entries := s.entries ++ [(name, aliases)]
      nodup := by
        rw [List.map_append, List.nodup_append]
        refine ⟨s.nodup, List.nodup_singleton _, fun a ha b hb hab => h ?_⟩
        have hname : b = name := List.mem_singleton.mp hb
        rwa [← hname, ← hab] }

end Networks

structure Container where
  id : String
  name : String
  running : Bool
  networks : Networks

/-- The container, and the names of all others. -/
structure World where
  container : Container
  otherNames : List String

def World.isTaken (w : World) (name : String) : Bool :=
  name = w.container.name || name ∈ w.otherNames

def World.update (f : Container → Container) (w : World) : World :=
  { w with container := f w.container }

/-- What the function waits for, up to the `catch`. -/
inductive Step
  | inspectContainer
  | inspectPreservedName
  | stopContainer
  | pullImage
  | backupVolume (name : String)
  | writeManifest
  | renameContainer
  | disconnect (network : String)
  deriving DecidableEq

/-- A call returns, or it rejects, before or after it has had its effect. -/
inductive Outcome
  | returns | fails | lost
  deriving DecidableEq

inductive SwapError
  | call (step : Step)
  | containerChanged
  /-- Another container has the name of the preserved one. -/
  | nameInUse
  /-- Docker does not rename to a name in use. -/
  | conflict
  deriving DecidableEq

structure Params where
  containerId : String
  /-- The volumes that are backed up, each once. -/
  backupVolumes : List String
  containerName : String
  actionRunId : String

def Params.preservedContainerName (params : Params) : String :=
  sanitizeComposeProjectName
    (params.containerName ++ "-preserved-" ++ String.ofList (params.actionRunId.toList.take 12))

structure PreservedStatefulContainer where
  originalContainerId : String
  originalContainerName : String
  preservedContainerName : String
  networks : List (String × List String)
  deriving DecidableEq

section
variable (outcome : Step → Outcome) (params : Params)

def perform (step : Step) (effect : World → World) : Prog World SwapError Unit :=
  match outcome step with
  | .returns => .modify effect
  | .fails => throw (.call step)
  | .lost => do
    .modify effect
    throw (.call step)

/-- A loop that waits for each round. -/
def each (f : α → Prog World SwapError Unit) : List α → Prog World SwapError Unit
  | [] => pure ()
  | a :: rest => do
    f a
    each f rest

/-- Nothing is to be found under the name. -/
def assertContainerNameAvailable : Prog World SwapError Unit := do
  perform outcome .inspectPreservedName id
  if ← .read (·.isTaken params.preservedContainerName) then throw .nameInUse

def backupComposeStatefulVolumes : Prog World SwapError Unit := do
  perform outcome .pullImage id
  each (fun name => perform outcome (.backupVolume name) id) params.backupVolumes
  perform outcome .writeManifest id

def rename (name : String) : World → World := World.update ({ · with name })

def renameContainer : Prog World SwapError Unit := do
  if ← .read (·.isTaken params.preservedContainerName) then throw .conflict
  else perform outcome .renameContainer (rename params.preservedContainerName)

/-- The `try` of the source, with `renamed`. -/
def swap (networks : List (String × List String)) :
    Prog (World × Bool) SwapError PreservedStatefulContainer := do
  perform outcome .stopContainer (World.update ({ · with running := false }))
  backupComposeStatefulVolumes outcome params
  renameContainer outcome params
  .assign fun _ => true
  each (fun network : String × List String =>
    perform outcome (.disconnect network.1)
      (World.update fun c => { c with networks := c.networks.disconnect network.1 })) networks
  return {
    originalContainerId := params.containerId
    originalContainerName := params.containerName
    preservedContainerName := params.preservedContainerName
    networks }

/-- The rename of the `catch`. -/
def renameBack : Prog World SwapError Unit := do
  if ← .read (·.isTaken params.containerName) then throw .conflict
  else .modify (rename params.containerName)

def reconnect (networks : List (String × List String)) : Prog World SwapError Unit :=
  each (fun network : String × List String =>
    .modify (World.update fun c => { c with networks := c.networks.connect network.1 network.2 }))
    networks

def startContainer : Prog World SwapError Unit := .modify (World.update ({ · with running := true }))

/-- The `catch` of the source. -/
def undo (networks : List (String × List String)) (error : SwapError) :
    Prog (World × Bool) SwapError PreservedStatefulContainer := do
  let renamed : Bool ← .read (·.2)
  if renamed then renameBack params
  reconnect networks
  startContainer
  throw error

def prepareApprovedStatefulSwap : Prog World SwapError PreservedStatefulContainer := do
  perform outcome .inspectContainer id
  let inspection : Container ← .read (·.container)
  if inspection.id ≠ params.containerId then throw .containerChanged
  assertContainerNameAvailable outcome params
  .withVars false (tryCatch (swap outcome params inspection.networks.entries)
    (undo params inspection.networks.entries))

end

/-! ## Restored containers -/

/-- The container has its name, is connected to each network with the aliases there were, and runs. -/
structure Restored (w w' : World) : Prop where
  name : w'.container.name = w.container.name
  networks : ∀ network ∈ w.container.networks.entries, network ∈ w'.container.networks.entries
  running : w'.container.running = true

section
variable (outcome : Step → Outcome) (params : Params)

/-- The run gets to the `try`. -/
structure EntersTry (w : World) : Prop where
  inspected : outcome .inspectContainer = .returns
  id : w.container.id = params.containerId
  inspectedName : outcome .inspectPreservedName = .returns
  free : w.isTaken params.preservedContainerName = false

structure ReachesRename : Prop where
  stop : outcome .stopContainer = .returns
  pull : outcome .pullImage = .returns
  volumes : ∀ name ∈ params.backupVolumes, outcome (.backupVolume name) = .returns
  manifest : outcome .writeManifest = .returns

/-- A rename has no effect, or it returns and the name of the parameters is that of the container. -/
def RenameUndone (w : World) : Prop :=
  ReachesRename outcome params → outcome .renameContainer = .fails ∨
    outcome .renameContainer = .returns ∧ w.container.name = params.containerName

/-- Where the `try` can reject: before the rename or with a rename that has failed, with a rename that
has been lost, and after the rename. -/
inductive Caught (w w' : World) : Bool → Prop
  | before (hname : w'.container.name = w.container.name)
      (h : ReachesRename outcome params → outcome .renameContainer = .fails) : Caught w w' false
  | lost (hname : w'.container.name = params.preservedContainerName)
      (hreaches : ReachesRename outcome params) (h : outcome .renameContainer = .lost) :
      Caught w w' false
  | after (hname : w'.container.name = params.preservedContainerName)
      (hreaches : ReachesRename outcome params) (h : outcome .renameContainer = .returns) :
      Caught w w' true

end

/-- The others are as they were, and the container has no other networks than it had. -/
structure Within (w w' : World) : Prop where
  others : w'.otherNames = w.otherNames
  networks : ∀ network ∈ w'.container.networks.entries, network ∈ w.container.networks.entries

section
variable {outcome : Step → Outcome} {params : Params} {w w' : World}

theorem Within.refl (w : World) : Within w w := ⟨rfl, fun _ h => h⟩

theorem Within.disconnect (h : Within w w') (name : String) :
    Within w (w'.update fun c => { c with networks := c.networks.disconnect name }) :=
  ⟨h.others, fun network hmem => h.networks network (List.mem_filter.mp hmem).1⟩

/-- A network of the container is connected with the aliases there were. -/
theorem Within.connect (h : Within w w') {network : String × List String}
    (hmem : network ∈ w.container.networks.entries) :
    Within w (w'.update fun c => { c with networks := c.networks.connect network.1 network.2 }) ∧
      network ∈ (w'.container.networks.connect network.1 network.2).entries ∧
      ∀ other ∈ w'.container.networks.entries,
        other ∈ (w'.container.networks.connect network.1 network.2).entries := by
  by_cases hconnected : network.1 ∈ w'.container.networks.entries.map (·.1)
  · have hconnect : w'.container.networks.connect network.1 network.2 = w'.container.networks :=
      dif_pos hconnected
    obtain ⟨other, hother, hname⟩ := List.mem_map.mp hconnected
    have hsame : other = network := List.inj_on_of_nodup_map w.container.networks.nodup
      (h.networks other hother) hmem hname
    refine ⟨⟨h.others, ?_⟩, ?_, ?_⟩
    · change ∀ n ∈ (w'.container.networks.connect network.1 network.2).entries, _
      rw [hconnect]
      exact h.networks
    · rw [hconnect, ← hsame]
      exact hother
    · rw [hconnect]
      exact fun _ hn => hn
  · have hconnect : (w'.container.networks.connect network.1 network.2).entries =
        w'.container.networks.entries ++ [network] := congrArg Networks.entries (dif_neg hconnected)
    refine ⟨⟨h.others, ?_⟩, ?_, ?_⟩
    · change ∀ n ∈ (w'.container.networks.connect network.1 network.2).entries, _
      rw [hconnect]
      intro n hn
      rcases List.mem_append.mp hn with hn | hn
      · exact h.networks n hn
      · rw [List.mem_singleton.mp hn]
        exact hmem
    · rw [hconnect]
      exact List.mem_append_right _ (.head _)
    · rw [hconnect]
      exact fun _ hn => List.mem_append_left _ hn

/-! ## Runs -/

/-- What a call leaves, whether it returns or rejects. -/
theorem perform_ends (step : Step) (effect : World → World) :
    (perform outcome step effect).Ends w fun r w' =>
      match outcome step with
      | .returns => r = .ok () ∧ w' = effect w
      | .fails => r = .error (.call step) ∧ w' = w
      | .lost => r = .error (.call step) ∧ w' = effect w := by
  rw [perform]
  cases outcome step <;> exact ⟨rfl, rfl⟩

/-- A call without effect on the container. -/
theorem perform_id_ends (step : Step) :
    (perform outcome step id).Ends w fun r w' =>
      w' = w ∧ ((∃ u, r = .ok u) ↔ outcome step = .returns) := by
  rw [perform]
  cases outcome step with
  | returns => exact ⟨rfl, iff_of_true ⟨(), rfl⟩ rfl⟩
  | fails => exact ⟨rfl, iff_of_false nofun nofun⟩
  | lost => exact ⟨rfl, iff_of_false nofun nofun⟩

theorem each_perform_ends (step : α → Step) (l : List α) :
    (each (fun a => perform outcome (step a) id) l).Ends w fun r w' =>
      w' = w ∧ ((∃ u, r = .ok u) ↔ ∀ a ∈ l, outcome (step a) = .returns) := by
  induction l with
  | nil => exact ⟨rfl, iff_of_true ⟨(), rfl⟩ nofun⟩
  | cons a l ih =>
    rw [each]
    refine (perform_id_ends (step a)).bind (fun _ w' ⟨hw, hok⟩ => ?_) fun e w' ⟨hw, hok⟩ => ?_
    · rw [hw]
      refine ih.mono fun r w'' ⟨hw', hrest⟩ => ⟨hw', hrest.trans ?_⟩
      rw [List.forall_mem_cons, and_iff_right (hok.mp ⟨_, rfl⟩)]
    · refine ⟨hw, iff_of_false nofun fun hall => ?_⟩
      exact nomatch hok.mpr (hall a (.head _))

theorem backup_ends :
    (backupComposeStatefulVolumes outcome params).Ends w fun r w' =>
      w' = w ∧ ((∃ u, r = .ok u) ↔ outcome .pullImage = .returns ∧
        (∀ name ∈ params.backupVolumes, outcome (.backupVolume name) = .returns) ∧
          outcome .writeManifest = .returns) := by
  rw [backupComposeStatefulVolumes]
  refine (perform_id_ends .pullImage).bind (fun _ w' ⟨hw, hpull⟩ => ?_) fun e w' ⟨hw, hpull⟩ => ?_
  · rw [hw]
    refine (each_perform_ends Step.backupVolume _).bind (fun _ w'' ⟨hw', hvolumes⟩ => ?_)
      fun e w'' ⟨hw', hvolumes⟩ => ?_
    · rw [hw']
      refine (perform_id_ends .writeManifest).mono fun r w₃ ⟨hw₃, hmanifest⟩ =>
        ⟨hw₃, hmanifest.trans ?_⟩
      rw [and_iff_right (hpull.mp ⟨_, rfl⟩), and_iff_right (hvolumes.mp ⟨_, rfl⟩)]
    · exact ⟨hw', iff_of_false nofun fun hall => nomatch hvolumes.mpr hall.2.1⟩
  · exact ⟨hw, iff_of_false nofun fun hall => nomatch hpull.mpr hall.1⟩

/-- A loop keeps what each of its rounds keeps. -/
theorem each_ends {f : α → Prog World SwapError Unit} {I : World → Prop} {l : List α}
    (hf : ∀ a ∈ l, ∀ w, I w → (f a).Ends w fun _ w' => I w') (hw : I w) :
    (each f l).Ends w fun _ w' => I w' := by
  induction l generalizing w with
  | nil => exact hw
  | cons a l ih =>
    rw [each]
    refine (hf a (.head _) w hw).bind (fun _ w' hw' => ?_) fun _ _ hw' => hw'
    exact ih (fun b hb => hf b (.tail _ hb)) hw'

/-- A call that returns has had its effect. -/
theorem perform_ok_iff (step : Step) (effect : World → World) :
    (perform outcome step effect).Ends w fun r w' =>
      (w' = w ∨ w' = effect w) ∧ ((∃ u, r = .ok u) ↔ outcome step = .returns) ∧
        (outcome step = .returns → w' = effect w) := by
  refine (perform_ends step effect).mono fun r w' h => ?_
  cases hstep : outcome step <;> simp only [hstep] at h
  · exact ⟨.inr h.2, iff_of_true ⟨(), h.1⟩ rfl, fun _ => h.2⟩
  · exact ⟨.inl h.2, iff_of_false (fun ⟨_, hok⟩ => nomatch h.1.symm.trans hok) nofun, nofun⟩
  · exact ⟨.inr h.2, iff_of_false (fun ⟨_, hok⟩ => nomatch h.1.symm.trans hok) nofun, nofun⟩

/-- A rename that rejects may have had its effect. -/
theorem renameContainer_ends (h : Within w w') (hname : w'.container.name = w.container.name)
    (hfree : w.isTaken params.preservedContainerName = false) :
    (renameContainer outcome params).Ends w' fun r w'' =>
      Within w w'' ∧ ((∃ u, r = .ok u) ↔ outcome .renameContainer = .returns) ∧
        w''.container.name = if outcome .renameContainer = .fails then w.container.name
          else params.preservedContainerName := by
  have hfree' : w'.isTaken params.preservedContainerName = false := by
    rw [← hfree, World.isTaken, World.isTaken, hname, h.others]
  rw [renameContainer, Prog.ends_read_bind, hfree']
  refine (perform_ends .renameContainer _).mono fun r w'' hends => ?_
  cases hrename : outcome .renameContainer <;> simp only [hrename] at hends
  · obtain ⟨rfl, rfl⟩ := hends
    exact ⟨⟨h.others, h.networks⟩, iff_of_true ⟨(), rfl⟩ rfl, (if_neg nofun).symm⟩
  · obtain ⟨rfl, rfl⟩ := hends
    exact ⟨h, iff_of_false nofun nofun, by rw [if_pos rfl, hname]⟩
  · obtain ⟨rfl, rfl⟩ := hends
    exact ⟨⟨h.others, h.networks⟩, iff_of_false nofun nofun, (if_neg nofun).symm⟩

/-- The container is taken off some of its networks. -/
theorem disconnects_ends (networks : List (String × List String)) (h : Within w w')
    (hname : w'.container.name = name) :
    (each (fun network : String × List String =>
      perform outcome (.disconnect network.1)
        (World.update fun c => { c with networks := c.networks.disconnect network.1 }))
      networks).Ends w' fun _ w'' => Within w w'' ∧ w''.container.name = name := by
  refine each_ends (I := fun w'' => Within w w'' ∧ w''.container.name = name) ?_ ⟨h, hname⟩
  intro network _ w₁ ⟨hw₁, hname₁⟩
  refine (perform_ok_iff _ _).mono fun _ w₂ hw₂ => ?_
  rcases hw₂.1 with rfl | rfl
  · exact ⟨hw₁, hname₁⟩
  · exact ⟨hw₁.disconnect network.1, hname₁⟩

/-- Where the `try` rejects. -/
theorem swap_ends (hfree : w.isTaken params.preservedContainerName = false) :
    (swap outcome params w.container.networks.entries).Ends (w, false) fun r s =>
      ∀ e, r = .error e → Within w s.1 ∧ Caught outcome params w s.1 s.2 := by
  rw [swap]
  refine (perform_ok_iff .stopContainer _).lift_bind (fun _ w₁ hstop => ?_)
    fun e w₁ hstop _ _ => ?_
  · have hstopped : outcome .stopContainer = .returns := hstop.2.1.mp ⟨_, rfl⟩
    rw [hstop.2.2 hstopped]
    refine backup_ends.lift_bind (fun _ w₂ hbackup => ?_) fun e w₂ hbackup _ _ => ?_
    · obtain ⟨hpull, hvolumes, hmanifest⟩ := hbackup.2.mp ⟨_, rfl⟩
      have hreaches : ReachesRename outcome params := ⟨hstopped, hpull, hvolumes, hmanifest⟩
      rw [hbackup.1]
      have hends := @renameContainer_ends outcome params w (w.update ({ · with running := false }))
        ⟨rfl, fun _ h => h⟩ rfl hfree
      refine hends.lift_bind (fun _ w₃ hrename => ?_) fun e w₃ hrename _ _ => ?_
      · have hrenamed : outcome .renameContainer = .returns := hrename.2.1.mp ⟨_, rfl⟩
        rw [hrenamed, if_neg nofun] at hrename
        rw [Prog.ends_assign_bind]
        refine (disconnects_ends _ hrename.1 hrename.2.2).lift_bind (fun _ w₄ _ => nofun)
          fun e w₄ hw₄ _ _ => ⟨hw₄.1, .after hw₄.2 hreaches hrenamed⟩
      · cases houtcome : outcome .renameContainer with
        | returns => exact nomatch hrename.2.1.mpr houtcome
        | fails =>
          rw [houtcome, if_pos rfl] at hrename
          exact ⟨hrename.1, .before hrename.2.2 fun _ => houtcome⟩
        | lost =>
          rw [houtcome, if_neg nofun] at hrename
          exact ⟨hrename.1, .lost hrename.2.2 hreaches houtcome⟩
    · refine ⟨hbackup.1 ▸ ⟨rfl, fun _ h => h⟩, .before (hbackup.1 ▸ rfl) fun hreaches => ?_⟩
      exact nomatch hbackup.2.mpr ⟨hreaches.pull, hreaches.volumes, hreaches.manifest⟩
  · have hbefore : Within w w₁ ∧ w₁.container.name = w.container.name := by
      rcases hstop.1 with rfl | rfl
      · exact ⟨.refl _, rfl⟩
      · exact ⟨⟨rfl, fun _ h => h⟩, rfl⟩
    refine ⟨hbefore.1, .before hbefore.2 fun hreaches => ?_⟩
    exact nomatch hstop.2.1.mpr hreaches.stop

/-- The networks of the `catch` are all connected in the end. -/
theorem reconnect_ends {networks : List (String × List String)}
    (hsub : ∀ network ∈ networks, network ∈ w.container.networks.entries) (h : Within w w') :
    (reconnect networks).Ends w' fun r w'' =>
      r = .ok () ∧ Within w w'' ∧ w''.container.name = w'.container.name ∧
        (∀ network ∈ w'.container.networks.entries, network ∈ w''.container.networks.entries) ∧
          ∀ network ∈ networks, network ∈ w''.container.networks.entries := by
  induction networks generalizing w' with
  | nil => exact ⟨rfl, h, rfl, fun _ hn => hn, nofun⟩
  | cons network rest ih =>
    obtain ⟨hwithin, hmem, hkept⟩ := h.connect (hsub network (.head _))
    obtain ⟨hok, hwithin', hname, hkept', hrest⟩ := ih (fun n hn => hsub n (.tail _ hn)) hwithin
    refine ⟨hok, hwithin', hname, fun n hn => hkept' n (hkept n hn), ?_⟩
    exact List.forall_mem_cons.mpr ⟨hkept' network hmem, hrest⟩

theorem renameBack_ends :
    (renameBack params).Ends w fun r w' =>
      r = .ok () ∧ w' = rename params.containerName w ∨
        r = .error .conflict ∧ w' = w ∧ w.isTaken params.containerName = true := by
  rw [renameBack, Prog.ends_read_bind]
  cases htaken : w.isTaken params.containerName with
  | true => exact .inr ⟨rfl, rfl, rfl⟩
  | false => exact .inl ⟨rfl, rfl⟩

/-- The end of the `catch`, once the name is what it will be. -/
theorem restart_ends (h : Within w w') (renamed : Bool) (error : SwapError) :
    (do
      reconnect w.container.networks.entries
      startContainer
      throw error : Prog (World × Bool) SwapError PreservedStatefulContainer).Ends (w', renamed)
      fun r s => r = .error error ∧ (Restored w s.1 ↔ w'.container.name = w.container.name) := by
  refine (reconnect_ends (fun _ hn => hn) h).lift_bind (fun _ w₁ hends => ?_) fun e w₁ hends => ?_
  · obtain ⟨-, -, hname, -, hall⟩ := hends
    refine ⟨rfl, fun hrestored => hname.symm.trans hrestored.name, fun hw' => ?_⟩
    exact ⟨hname.trans hw', hall, rfl⟩
  · exact nomatch hends.1

/-- The `catch` throws the error on, and gives back the name where `RenameUndone`. -/
theorem undo_ends {renamed : Bool} (hunique : w.container.name ∉ w.otherNames)
    (hfree : w.isTaken params.preservedContainerName = false) (h : Within w w')
    (hcaught : Caught outcome params w w' renamed) (error : SwapError) :
    (undo params w.container.networks.entries error).Ends (w', renamed) fun r s =>
      (∃ e, r = .error e) ∧ (Restored w s.1 ↔ RenameUndone outcome params w) := by
  have hpreserved : params.preservedContainerName ≠ w.container.name := by
    intro heq
    rw [World.isTaken, decide_eq_true heq] at hfree
    exact nomatch hfree
  rw [undo, Prog.ends_read_bind]
  cases hcaught with
  | before hname hfails =>
    refine (restart_ends h false error).mono fun r s ⟨hr, hrestored⟩ => ⟨⟨_, hr⟩, ?_⟩
    exact hrestored.trans (iff_of_true hname fun hreaches => .inl (hfails hreaches))
  | lost hname hreaches hlost =>
    refine (restart_ends h false error).mono fun r s ⟨hr, hrestored⟩ => ⟨⟨_, hr⟩, ?_⟩
    refine hrestored.trans (iff_of_false (hname ▸ hpreserved) fun hundone => ?_)
    rcases hundone hreaches with hfails | ⟨hreturns, -⟩
    · exact nomatch hlost.symm.trans hfails
    · exact nomatch hlost.symm.trans hreturns
  | after hname hreaches hreturns =>
    have hundone : RenameUndone outcome params w ↔ w.container.name = params.containerName := by
      refine ⟨fun hundone => ?_, fun heq _ => .inr ⟨hreturns, heq⟩⟩
      rcases hundone hreaches with hfails | ⟨-, heq⟩
      · exact nomatch hreturns.symm.trans hfails
      · exact heq
    rw [hundone]
    refine renameBack_ends.lift_bind (fun _ w₁ hback => ?_) fun e w₁ hback => ⟨⟨e, rfl⟩, ?_⟩
    · obtain ⟨-, rfl⟩ | ⟨hr, -⟩ := hback
      · have hw₁ : Within w (rename params.containerName w') := ⟨h.others, h.networks⟩
        obtain ⟨hr, hrestored⟩ := restart_ends hw₁ true error
        exact ⟨⟨_, hr⟩, hrestored.trans eq_comm⟩
      · exact nomatch hr
    · obtain ⟨hr, -⟩ | ⟨-, rfl, htaken⟩ := hback
      · exact nomatch hr
      · refine iff_of_false (fun hrestored => hpreserved (hname.symm.trans hrestored.name)) ?_
        intro heq
        rw [World.isTaken, hname, h.others, ← heq, decide_eq_false hpreserved.symm] at htaken
        exact hunique (of_decide_eq_true htaken)

theorem assertContainerNameAvailable_ends :
    (assertContainerNameAvailable outcome params).Ends w fun r w' =>
      w' = w ∧ ((∃ u, r = .ok u) ↔ outcome .inspectPreservedName = .returns ∧
        w.isTaken params.preservedContainerName = false) := by
  rw [assertContainerNameAvailable]
  refine (perform_id_ends .inspectPreservedName).bind (fun _ w₁ ⟨hw₁, hreturns⟩ => ?_)
    fun e w₁ ⟨hw₁, hreturns⟩ => ⟨hw₁, iff_of_false nofun fun h => nomatch hreturns.mpr h.1⟩
  rw [hw₁, Prog.ends_read_bind]
  cases htaken : w.isTaken params.preservedContainerName with
  | true => exact ⟨rfl, iff_of_false nofun nofun⟩
  | false => exact ⟨rfl, iff_of_true ⟨(), rfl⟩ ⟨hreturns.mp ⟨_, rfl⟩, rfl⟩⟩

/-- The checks ahead of the `try` change nothing. -/
theorem prepare_ends {Q : Except SwapError PreservedStatefulContainer → World → Prop}
    (hentered : EntersTry outcome params w →
      (Prog.withVars false (tryCatch (swap outcome params w.container.networks.entries)
        (undo params w.container.networks.entries))).Ends w Q)
    (hrejects : ¬ EntersTry outcome params w → ∀ e, Q (.error e) w) :
    (prepareApprovedStatefulSwap outcome params).Ends w Q := by
  rw [prepareApprovedStatefulSwap]
  refine (perform_id_ends .inspectContainer).bind (fun _ w₁ ⟨hw₁, hinspected⟩ => ?_)
    fun e w₁ ⟨hw₁, hinspected⟩ => ?_
  · rw [hw₁, Prog.ends_read_bind]
    by_cases hid : w.container.id = params.containerId
    · rw [if_neg (not_not.mpr hid)]
      refine assertContainerNameAvailable_ends.bind (fun _ w₂ ⟨hw₂, hfree⟩ => ?_)
        fun e w₂ ⟨hw₂, hfree⟩ => ?_
      · rw [hw₂]
        obtain ⟨hinspectedName, hfree⟩ := hfree.mp ⟨_, rfl⟩
        exact hentered ⟨hinspected.mp ⟨_, rfl⟩, hid, hinspectedName, hfree⟩
      · rw [hw₂]
        exact hrejects (fun h => nomatch hfree.mpr ⟨h.inspectedName, h.free⟩) e
    · rw [if_pos hid]
      exact hrejects (fun h => hid h.id) .containerChanged
  · rw [hw₁]
    exact hrejects (fun h => nomatch hinspected.mpr h.inspected) e

/-- A run that does not get to the `try` rejects and leaves everything as it was. In the `try`, a run
that rejects gives the container back where the rename has had no effect, or has returned, with the
container under the name of the parameters. -/
theorem prepareApprovedStatefulSwap_restores_iff (hunique : w.container.name ∉ w.otherNames) :
    (¬ EntersTry outcome params w → (prepareApprovedStatefulSwap outcome params).Ends w
      fun r w' => (∃ e, r = .error e) ∧ w' = w) ∧
    (EntersTry outcome params w → (prepareApprovedStatefulSwap outcome params).Ends w
      fun r w' => ∀ e, r = .error e → (Restored w w' ↔ RenameUndone outcome params w)) := by
  constructor
  · exact fun hnot => prepare_ends (fun h => absurd h hnot) fun _ e => ⟨⟨e, rfl⟩, rfl⟩
  · intro hentered
    refine prepare_ends (fun _ => .withVars ?_) fun hnot => absurd hentered hnot
    refine (swap_ends hentered.free).tryCatch (fun _ _ _ => nofun) fun e s hcaught => ?_
    obtain ⟨hwithin, hcaught⟩ := hcaught e rfl
    refine (undo_ends hunique hentered.free hwithin hcaught e).mono ?_
    exact fun _ _ ⟨_, hrestored⟩ _ _ => hrestored

end

/-- The one network cannot be left. -/
def disconnectFails : Step → Outcome
  | .disconnect _ => .fails
  | _ => .returns

def shopParams : Params where
  containerId := "c1"
  backupVolumes := ["shop-data"]
  containerName := "shop-db"
  actionRunId := "0123456789abcdef"

def shopWorld (name : String) : World where
  container :=
    { id := "c1", name, running := true, networks := ⟨[("shop-net", ["db"])], by decide⟩ }
  otherNames := ["shop-web"]

theorem prepareApprovedStatefulSwap_restores_disconnect :
    RenameUndone disconnectFails shopParams (shopWorld "shop-db") ∧
      Restored (shopWorld "shop-db")
        ((prepareApprovedStatefulSwap disconnectFails shopParams).run (shopWorld "shop-db")).2 := by
  have hundone : RenameUndone disconnectFails shopParams (shopWorld "shop-db") :=
    fun _ => .inr ⟨rfl, rfl⟩
  have hends := (@prepareApprovedStatefulSwap_restores_iff disconnectFails shopParams
    (shopWorld "shop-db") (by decide)).2 ⟨rfl, rfl, rfl, by decide⟩
  exact ⟨hundone, (hends (.call (.disconnect "shop-net")) (by decide)).mpr hundone⟩

/-- The container of the service is not called what the service is to be called. -/
theorem not_forall_rejection_restores :
    ¬ ∀ (outcome : Step → Outcome) (params : Params) (w : World),
      w.container.name ∉ w.otherNames → EntersTry outcome params w →
        (prepareApprovedStatefulSwap outcome params).Ends w
          fun r w' => ∀ e, r = .error e → Restored w w' := by
  intro h
  have hrestored := h disconnectFails shopParams (shopWorld "shop-postgres") (by decide)
    ⟨rfl, rfl, rfl, by decide⟩ (.call (.disconnect "shop-net")) (by decide)
  exact absurd hrestored.name (by decide)

end OpenLander.Compose.SwapPreparation
