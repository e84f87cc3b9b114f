import OpenLander.Pipeline.ServiceLinker
import OpenLander.Theory.Run

/-! # Disconnecting undoes connecting

Calls of `connect` for one project and one managed service, between which workloads come to the
project and variables are changed. `disconnect` takes back what they have set, and nothing else, as
long as a call that sets something records it, on the one connection of the pair and over nothing
that is still in place, and the variables stay in the scope that they were set in (`Meets`). -/

namespace OpenLander.Pipeline.ServiceLinker
open Theory
open ResolveEnv (Record Store EnvVarRow)
open Db.AttachService (Tables AttachError AttachResult attachServiceToProject attachedServiceIds
  moveServices movedRow)

variable {pair : Pair} {projectId : String}

/-! ## Variables -/

section
variable {store store' : Store} {scope scope' : EnvScope} {key key' value : String}

theorem EnvScope.eq_of_covers {row : EnvVarRow} (h : scope.covers row) (h' : scope'.covers row) :
    scope = scope' := by
  cases scope <;> cases scope' <;> simp_all [EnvScope.covers]

/-- A row of another scope or key. -/
theorem EnvScope.not_both {row : EnvVarRow} (hne : (scope', key') ≠ (scope, key))
    (h : scope'.covers row ∧ row.key = key') : ¬ (scope.covers row ∧ row.key = key) := by
  intro h'
  refine hne (Prod.ext (EnvScope.eq_of_covers h.1 h'.1) ?_)
  exact h.2.symm.trans h'.2

theorem filter_map_eq_filter {α : Type u} {l : List α} {f : α → α} {p : α → Bool}
    (hp : ∀ a, p (f a) = p a) (hf : ∀ a, p a → f a = a) : (l.map f).filter p = l.filter p := by
  rw [List.filter_map, show p ∘ f = p from funext hp]
  exact (List.map_congr_left fun a ha => hf a (List.of_mem_filter ha)).trans (List.map_id _)

/-- What is not the key in the scope stays. -/
theorem getVars_upsertEnvVar (hne : (scope', key') ≠ (scope, key)) :
    getVars (upsertEnvVar projectId store scope key value) scope' key' =
      getVars store scope' key' := by
  rw [getVars, getVars, Db.AttachService.select_apply, Db.AttachService.select_apply, upsertEnvVar]
  dsimp only
  split
  · congr 2
    refine filter_map_eq_filter (fun row => ?_) fun row hrow => if_neg fun hkey => ?_
    · split <;> cases scope' <;> rfl
    · simp only [Bool.and_eq_true, beq_iff_eq] at hrow hkey
      exact EnvScope.not_both hne hrow hkey
  · congr 2
    rw [List.filter_append, List.filter_cons_of_neg, List.filter_nil, List.append_nil]
    intro hrow
    simp only [Bool.and_eq_true, beq_iff_eq] at hrow
    refine EnvScope.not_both hne hrow ⟨?_, rfl⟩
    cases scope <;> simp [EnvScope.covers, EnvScope.row, EnvScope.serviceId]

theorem getVars_setVars {vars : List (String × String)}
    (hne : ∀ entry ∈ vars, (scope', key') ≠ (scope, entry.1)) :
    getVars (setVars projectId store scope vars) scope' key' = getVars store scope' key' := by
  induction vars generalizing store with
  | nil => rfl
  | cons entry vars ih =>
    obtain ⟨hentry, hvars⟩ := List.forall_mem_cons.mp hne
    rw [setVars, List.foldl_cons, ← setVars, ih hvars, getVars_upsertEnvVar hentry]

theorem getVars_deleteEnvVar : getVars (deleteEnvVar store scope key) scope' key' =
    if (scope', key') = (scope, key) then none else getVars store scope' key' := by
  rw [getVars, getVars, Db.AttachService.select_apply, Db.AttachService.select_apply, deleteEnvVar,
    List.filter_filter]
  split
  next heq =>
    obtain ⟨rfl, rfl⟩ := Prod.mk.inj heq
    simp
  next hne =>
    congr 2
    refine List.filter_congr fun row _ => ?_
    by_cases hrow : scope'.covers row ∧ row.key = key'
    · have hnot : (scope.covers row && row.key == key) = false := by
        simpa using EnvScope.not_both hne hrow
      rw [hnot, Bool.not_false, Bool.and_true]
    · have hnot : (scope'.covers row && row.key == key') = false := by simpa using hrow
      rw [hnot, Bool.false_and]

theorem getVars_deleteVars {keys : List String} :
    getVars (deleteVars store scope keys) scope' key' =
      if scope' = scope ∧ key' ∈ keys then none else getVars store scope' key' := by
  induction keys generalizing store with
  | nil => simp [deleteVars]
  | cons key keys ih =>
    rw [deleteVars, List.foldl_cons, ← deleteVars, ih, getVars_deleteEnvVar]
    simp only [Prod.mk.injEq, List.mem_cons]
    split
    next h => rw [if_pos ⟨h.1, .inr h.2⟩]
    next hnot =>
      by_cases hscope : scope' = scope
      · simp_all
      · simp [hscope]

end

/-! ## What attaching a service moves -/

section
variable {tables tables' : Tables} {result : AttachResult} {serviceId : String}

/-- Nothing, or the service with its children comes to the project, and variables of the project
that it leaves may become its own. -/
theorem of_attach (h : attachServiceToProject projectId serviceId tables = .ok (result, tables')) :
    tables' = tables ∨ ∃ svc ∈ tables.services, svc.id = serviceId ∧
      tables'.projects = tables.projects ∧
      tables'.services =
        moveServices projectId (attachedServiceIds tables svc) tables.services ∧
      (tables'.envVars = tables.envVars ∨ ∃ source, source ≠ projectId ∧
        tables'.envVars = tables.envVars.map
          (movedRow source projectId serviceId (attachedServiceIds tables svc) tables.envVars)) := by
  simp only [attachServiceToProject] at h
  split at h
  · nomatch h
  next svc hsvc =>
  have hmem : svc ∈ tables.services ∧ svc.id = serviceId :=
    ⟨List.mem_of_find?_eq_some hsvc, by simpa using List.find?_some hsvc⟩
  split at h
  · nomatch h
  next source _ =>
  split at h
  · obtain ⟨_, rfl⟩ := Prod.mk.inj (Except.ok.inj h)
    exact .inl rfl
  next hne =>
  split at h
  · nomatch h
  refine .inr ⟨svc, hmem.1, hmem.2, ?_⟩
  split at h
  · obtain ⟨_, rfl⟩ := Prod.mk.inj (Except.ok.inj h)
    exact ⟨rfl, rfl, .inl rfl⟩
  · obtain ⟨_, rfl⟩ := Prod.mk.inj (Except.ok.inj h)
    exact ⟨rfl, rfl, .inr ⟨source, hne, Db.AttachService.promoteEnvVars_moveServiceEnvVars ..⟩⟩

section
variable {attached : List String} {services : List Db.AttachService.ServiceRow}
  {row : Db.AttachService.ServiceRow}

/-- A service row is what it was, but for the project of those that come along. -/
theorem of_mem_moveServices (h : row ∈ moveServices projectId attached services) :
    ∃ row' ∈ services, row'.id = row.id ∧ row'.kind = row.kind ∧
      (row'.projectId = row.projectId ∨ row'.id ∈ attached) := by
  obtain ⟨row', hmem, rfl⟩ := List.mem_map.mp h
  refine ⟨row', hmem, ?_⟩
  split
  next hmoved => exact ⟨rfl, rfl, .inr hmoved⟩
  next => exact ⟨rfl, rfl, .inl rfl⟩

theorem exists_mem_moveServices (h : row ∈ services) :
    ∃ row' ∈ moveServices projectId attached services, row'.id = row.id ∧
      (row'.projectId = row.projectId ∨ row'.projectId = some projectId) := by
  refine ⟨_, List.mem_map.mpr ⟨row, h, rfl⟩, ?_⟩
  split
  · exact ⟨rfl, .inr rfl⟩
  · exact ⟨rfl, .inl rfl⟩

end

/-- The variables of the project and of its other services stay. -/
theorem getVars_attach {scope : EnvScope}
    (h : attachServiceToProject projectId serviceId tables = .ok (result, tables'))
    (hscope : scope = .group projectId ∨ ∃ id, id ≠ serviceId ∧ scope = .service id) :
    getVars tables'.toStore scope key = getVars tables.toStore scope key := by
  obtain rfl | ⟨svc, _, _, _, _, hsame | ⟨source, hne, hrows⟩⟩ := of_attach h
  · rfl
  · rw [getVars, getVars, Db.AttachService.select_apply, Db.AttachService.select_apply, hsame]
  · refine Db.AttachService.select_map hrows (fun _ => Db.AttachService.movedRow_key)
      (fun _ => Db.AttachService.movedRow_value) fun row _ _ => ?_
    cases hpromotable : Db.AttachService.isPromotable source serviceId tables.envVars row with
    | true =>
      obtain ⟨hsource, hnone, _⟩ : row.projectId = source ∧ row.serviceId = none ∧ _ :=
        of_decide_eq_true hpromotable
      obtain rfl | ⟨id, hid, rfl⟩ := hscope
      · have hproject : (row.projectId == projectId) = false := beq_false_of_ne (hsource ▸ hne)
        simp [EnvScope.covers, Db.AttachService.movedRow_serviceId, hpromotable, hproject]
      · simp [EnvScope.covers, Db.AttachService.movedRow_serviceId, hpromotable, hnone,
          beq_false_of_ne hid.symm]
    | false =>
      obtain rfl | ⟨id, _, rfl⟩ := hscope
      · cases howner : row.serviceId with
        | none => rw [Db.AttachService.movedRow_of_none hpromotable howner]
        | some owner =>
          simp [EnvScope.covers, Db.AttachService.movedRow_serviceId, hpromotable, howner]
      · simp [EnvScope.covers, Db.AttachService.movedRow_serviceId, hpromotable,
          Db.AttachService.movedRow_environmentId]

end

/-! ## Connections -/

namespace LinkedTables
variable {db db' : LinkedTables} {connection : ConnectionRow}

theorem consumerBelongsToProject_iff : db.consumerBelongsToProject projectId connection ↔
    connection.consumer = canonicalId projectId ∨
      ∃ row ∈ db.services, row.id = connection.consumer ∧ row.projectId = some projectId := by
  simp [consumerBelongsToProject]

theorem mem_pairRows : connection ∈ db.pairRows pair ↔ connection ∈ db.connections ∧
    connection.provider = pair.service.id ∧
      db.consumerBelongsToProject pair.projectId connection := by
  simp [pairRows]

theorem mem_of_consumer {row : Db.AttachService.ServiceRow} (h : db.consumer projectId = some row) :
    row ∈ db.services ∧ row.projectId = some projectId ∧ isDeployable row.kind := by
  have hmem : row ∈ db.getDeployablesByGroup projectId := by
    rw [consumer, Option.or_eq_some_iff] at h
    obtain hcanonical | ⟨_, hfirst⟩ := h
    · exact List.mem_of_find?_eq_some hcanonical
    · exact List.mem_of_head? hfirst
  simpa [getDeployablesByGroup] using hmem

/-- The scope depends on which services there are. -/
theorem envScope_congr (hprojects : db'.projects = db.projects)
    (hservices : (∃ row ∈ db'.services, row.id = canonicalId projectId) ↔
      ∃ row ∈ db.services, row.id = canonicalId projectId) :
    db'.envScope projectId = db.envScope projectId := by
  simp only [envScope, hprojects, List.any_eq_true, decide_eq_true_eq]
  simp only [hservices]

theorem getServiceConnection_cases (db : LinkedTables) (pair : Pair) :
    (∃ connection, db.getServiceConnectionByProjectAndService pair = some connection ∧
      connection ∈ db.pairRows pair) ∨
    db.getServiceConnectionByProjectAndService pair = none ∧ db.pairRows pair = [] := by
  cases hpick : db.getServiceConnectionByProjectAndService pair with
  | none => exact .inr ⟨rfl, pair.limitOne.eq_nil_of_pick _ hpick⟩
  | some connection => exact .inl ⟨connection, rfl, pair.limitOne.mem_of_pick _ _ hpick⟩

theorem services_recordConnection : (db.recordConnection pair).services = db.services := by
  rw [recordConnection]
  split
  · rw [upsertServiceConnection]
    split <;> rfl
  · rfl

theorem services_disconnect : (db.disconnect pair).services = db.services := by
  rw [disconnect]
  split <;> rfl

theorem connections_disconnect_subset : (db.disconnect pair).connections ⊆ db.connections := by
  rw [disconnect]
  split
  · exact List.Subset.refl _
  · exact List.filter_subset_self _

theorem pairRows_disconnect : (db.disconnect pair).pairRows pair = [] := by
  rw [disconnect]
  obtain ⟨connection, hfound, _⟩ | ⟨hnone, hnil⟩ := getServiceConnection_cases db pair
  · rw [hfound]
    refine List.eq_nil_iff_forall_not_mem.mpr fun row hrow => ?_
    obtain ⟨hmem, hprovider, hbelongs⟩ := mem_pairRows.mp hrow
    obtain ⟨hmem, hnot⟩ := List.mem_filter.mp hmem
    exact of_decide_eq_true hnot (mem_pairRows.mpr ⟨hmem, hprovider, hbelongs⟩)
  · rw [hnone]
    exact hnil

end LinkedTables

/-! ## The condition -/

open LinkedTables

/-- The tables that a call of `connect` works on, once the service is under the project. -/
def Meets.connect (pair : Pair) (s : State) (given : Credentials) (db : LinkedTables) : Prop :=
  let vars := (db.recordConnection pair).injectedVars pair given
  (db.consumer pair.projectId = none → vars = []) ∧
  (∀ consumer, db.consumer pair.projectId = some consumer →
    ∀ connection ∈ db.pairRows pair, connection.consumer = consumer.id) ∧
  (vars = [] ∨ ∀ entry ∈ s.injected, entry.2 ∈ vars.map (·.1))

/-- A call of `connect` that sets a variable has a workload to record it with, and sets all that
earlier calls have set and is still in place; the pair has no connection of another workload; the
deployable service of the project is created while nothing is in place or on record; a workload that
is attached brings no connection of the pair along. -/
def Meets (pair : Pair) (s : State) : Event → Prop
  | .connect given => ∀ moved, attachServiceToProject pair.projectId pair.service.id s.db.toTables =
      .ok moved → Meets.connect pair s given { s.db with toTables := moved.2 }
  | .createWorkload row => row.id = canonicalId pair.projectId →
      s.injected = [] ∧ ∀ connection ∈ s.db.pairRows pair, connection.keys = []
  | .attachWorkload serviceId => ∀ svc ∈ s.db.services, svc.id = serviceId →
      ∀ connection ∈ s.db.connections, connection.provider = pair.service.id →
        connection.consumer ∈ attachedServiceIds s.db.toTables svc →
          connection ∈ s.db.pairRows pair
  | _ => True

/-- What the steps that meet the condition preserve. -/
structure Ready (pair : Pair) (s : State) : Prop where
  service : ∃ row ∈ s.db.services, row.id = pair.service.id
  managed : ∀ row ∈ s.db.services, row.id = pair.service.id → isDeployable row.kind = false
  consumers : ∀ connection ∈ s.db.connections, connection.provider = pair.service.id →
    connection.consumer ≠ pair.service.id ∧ ∃ row ∈ s.db.services, row.id = connection.consumer
  single : ∀ connection ∈ s.db.pairRows pair, ∀ connection' ∈ s.db.pairRows pair,
    connection = connection'
  recorded : ∀ entry ∈ s.injected, entry.1 = s.db.envScope pair.projectId ∧
    ∃ connection ∈ s.db.pairRows pair, entry.2 ∈ connection.keys
  ever : ∀ connection ∈ s.db.pairRows pair, ∀ key ∈ connection.keys,
    (s.db.envScope pair.projectId, key) ∈ s.ever

namespace Ready
variable {s t : State} {db : LinkedTables}

/-- The services may move and the variables may change, as long as the connections of the pair and
the scope stay. -/
theorem congr (hr : Ready pair s) {injected : List (EnvScope × String)}
    (hmanaged : ∀ row ∈ db.services, row.id = pair.service.id → isDeployable row.kind = false)
    (hservices : ∀ id, (∃ row ∈ s.db.services, row.id = id) → ∃ row ∈ db.services, row.id = id)
    (hconnections : db.connections = s.db.connections)
    (hpair : ∀ connection ∈ db.pairRows pair, connection ∈ s.db.pairRows pair)
    (hpair' : ∀ connection ∈ s.db.pairRows pair, connection ∈ db.pairRows pair)
    (hscope : db.envScope pair.projectId = s.db.envScope pair.projectId)
    (hinjected : ∀ entry ∈ injected, entry ∈ s.injected) :
    Ready pair { s with db, injected } where
  service := hservices _ hr.service
  managed := hmanaged
  consumers connection hmem hprovider := by
    rw [hconnections] at hmem
    exact (hr.consumers connection hmem hprovider).imp_right (hservices _)
  single connection hmem connection' hmem' :=
    hr.single connection (hpair _ hmem) connection' (hpair _ hmem')
  recorded entry hentry := by
    obtain ⟨hentryScope, connection, hmem, hkey⟩ := hr.recorded entry (hinjected entry hentry)
    exact ⟨hentryScope.trans hscope.symm, connection, hpair' _ hmem, hkey⟩
  ever connection hmem key hkey := by
    rw [show State.db { s with db, injected } = db from rfl, hscope]
    exact hr.ever connection (hpair _ hmem) key hkey

/-- A step that leaves connections, services and projects alone. -/
theorem edit (hr : Ready pair s) (store : Store) {injected : List (EnvScope × String)}
    (hinjected : ∀ entry ∈ injected, entry ∈ s.injected) :
    Ready pair { s with db := { s.db with toStore := store }, injected } :=
  hr.congr hr.managed (fun _ h => h) rfl (fun _ h => h) (fun _ h => h) rfl hinjected

theorem mem_touchService {serviceId : String} {row : Db.AttachService.ServiceRow} :
    row ∈ (touchService db serviceId).services ↔ row ∈ db.services := by
  simp only [touchService, List.mem_append, List.mem_filter, decide_eq_true_eq]
  rw [← and_or_left, and_iff_left (Classical.em _)]

theorem touch (hr : Ready pair s) (serviceId : String) :
    Ready pair { s with db := touchService s.db serviceId } := by
  have hbelongs : ∀ connection,
      (touchService s.db serviceId).consumerBelongsToProject pair.projectId connection ↔
        s.db.consumerBelongsToProject pair.projectId connection := by
    intro connection
    rw [consumerBelongsToProject_iff, consumerBelongsToProject_iff]
    simp only [mem_touchService]
  refine hr.congr ?_ ?_ rfl ?_ ?_ ?_ fun _ h => h
  · intro row hrow
    exact hr.managed row (mem_touchService.mp hrow)
  · intro id ⟨row, hrow, hid⟩
    exact ⟨row, mem_touchService.mpr hrow, hid⟩
  · intro connection hmem
    obtain ⟨hmem, hprovider, h⟩ := mem_pairRows.mp hmem
    exact mem_pairRows.mpr ⟨hmem, hprovider, (hbelongs connection).mp h⟩
  · intro connection hmem
    obtain ⟨hmem, hprovider, h⟩ := mem_pairRows.mp hmem
    exact mem_pairRows.mpr ⟨hmem, hprovider, (hbelongs connection).mpr h⟩
  · exact envScope_congr rfl (by simp only [mem_touchService])

/-- A workload that brings no connection of the pair along comes to the project. -/
theorem attach (hr : Ready pair s) {serviceId : String} {moved : AttachResult × Tables}
    (h : attachServiceToProject pair.projectId serviceId s.db.toTables = .ok moved)
    (hmeets : ∀ svc ∈ s.db.services, svc.id = serviceId →
      ∀ connection ∈ s.db.connections, connection.provider = pair.service.id →
        connection.consumer ∈ attachedServiceIds s.db.toTables svc →
          connection ∈ s.db.pairRows pair) :
    Ready pair { s with db := { s.db with toTables := moved.2 } } := by
  obtain ⟨result, tables⟩ := moved
  obtain rfl | ⟨svc, hsvc, hid, hprojects, hservices, _⟩ := of_attach h
  · exact hr
  have hmeets := hmeets svc hsvc hid
  have hkeeps : ∀ row ∈ s.db.services, ∃ row' ∈ tables.services, row'.id = row.id ∧
      (row'.projectId = row.projectId ∨ row'.projectId = some pair.projectId) := by
    intro row hrow
    rw [hservices]
    exact exists_mem_moveServices hrow
  have hold : ∀ row ∈ tables.services, ∃ row' ∈ s.db.services, row'.id = row.id ∧
      row'.kind = row.kind ∧ (row'.projectId = row.projectId ∨
        row'.id ∈ attachedServiceIds s.db.toTables svc) := by
    intro row hrow
    rw [hservices] at hrow
    exact of_mem_moveServices hrow
  refine hr.congr ?_ ?_ rfl ?_ ?_ ?_ fun _ h => h
  · intro row hrow hid
    obtain ⟨row', hrow', hid', hkind, _⟩ := hold row hrow
    rw [← hkind]
    exact hr.managed row' hrow' (hid'.trans hid)
  · intro id ⟨row, hrow, hid⟩
    obtain ⟨row', hrow', hid', _⟩ := hkeeps row hrow
    exact ⟨row', hrow', hid'.trans hid⟩
  · intro connection hmem
    obtain ⟨hmem, hprovider, hbelongs⟩ := mem_pairRows.mp hmem
    obtain hcanonical | ⟨row, hrow, hid, hproject⟩ := consumerBelongsToProject_iff.mp hbelongs
    · exact mem_pairRows.mpr ⟨hmem, hprovider, consumerBelongsToProject_iff.mpr (.inl hcanonical)⟩
    · obtain ⟨row', hrow', hid', _, hsame | hmoved⟩ := hold row hrow
      · refine mem_pairRows.mpr ⟨hmem, hprovider, consumerBelongsToProject_iff.mpr (.inr ?_)⟩
        exact ⟨row', hrow', hid'.trans hid, hsame.trans hproject⟩
      · rw [hid', hid] at hmoved
        exact hmeets connection hmem hprovider hmoved
  · intro connection hmem
    obtain ⟨hmem, hprovider, hbelongs⟩ := mem_pairRows.mp hmem
    refine mem_pairRows.mpr ⟨hmem, hprovider, consumerBelongsToProject_iff.mpr ?_⟩
    refine (consumerBelongsToProject_iff.mp hbelongs).imp_right fun ⟨row, hrow, hid, hproject⟩ => ?_
    obtain ⟨row', hrow', hid', hproject'⟩ := hkeeps row hrow
    exact ⟨row', hrow', hid'.trans hid, hproject'.elim (·.trans hproject) id⟩
  · refine envScope_congr hprojects ⟨?_, ?_⟩
    · intro ⟨row, hrow, hid⟩
      obtain ⟨row', hrow', hid', _⟩ := hold row hrow
      exact ⟨row', hrow', hid'.trans hid⟩
    · intro ⟨row, hrow, hid⟩
      obtain ⟨row', hrow', hid', _⟩ := hkeeps row hrow
      exact ⟨row', hrow', hid'.trans hid⟩

/-- The service itself is no consumer of the pair. -/
theorem attachService (hr : Ready pair s) {moved : AttachResult × Tables}
    (h : attachServiceToProject pair.projectId pair.service.id s.db.toTables = .ok moved) :
    Ready pair { s with db := { s.db with toTables := moved.2 } } := by
  refine hr.attach h fun svc hsvc hid connection hmem hprovider hattached => ?_
  have hkind := hr.managed svc hsvc hid
  have hself : connection.consumer = pair.service.id := by
    cases hcompose : svc.kind with
    | compose =>
      rw [hcompose] at hkind
      nomatch hkind
    | git | image | composeChild | managed =>
      simpa [attachedServiceIds, hcompose, hid] using hattached
  exact absurd hself (hr.consumers connection hmem hprovider).1

theorem createWorkload (hr : Ready pair s) {row : Db.AttachService.ServiceRow}
    (hnew : ∀ other ∈ s.db.services, other.id ≠ row.id)
    (hmeets : Meets pair s (.createWorkload row)) :
    Ready pair { s with db := { s.db with services := row :: s.db.services } } := by
  have hkeeps : ∀ id, (∃ row ∈ s.db.services, row.id = id) →
      ∃ row' ∈ row :: s.db.services, row'.id = id :=
    fun id => Exists.imp fun _ => And.imp_left (.tail _)
  have hmanaged : ∀ row' ∈ row :: s.db.services, row'.id = pair.service.id →
      isDeployable row'.kind = false := by
    intro row' hrow' hid
    cases hrow' with
    | head =>
      obtain ⟨other, hother, hid'⟩ := hr.service
      exact absurd (hid'.trans hid.symm) (hnew other hother)
    | tail _ hrow' => exact hr.managed row' hrow' hid
  have hpair : ∀ connection,
      connection ∈ ({ s.db with services := row :: s.db.services } : LinkedTables).pairRows pair ↔
        connection ∈ s.db.pairRows pair := by
    intro connection
    rw [mem_pairRows, mem_pairRows]
    refine and_congr_right fun hmem => and_congr_right fun hprovider => ?_
    rw [consumerBelongsToProject_iff, consumerBelongsToProject_iff]
    refine or_congr_right ?_
    obtain ⟨_, other, hother, hid⟩ := hr.consumers connection hmem hprovider
    simp only [List.mem_cons, exists_eq_or_imp, or_iff_right_iff_imp]
    exact fun hrow => absurd (hid.trans hrow.1.symm) (hnew other hother)
  by_cases hcanonical : row.id = canonicalId pair.projectId
  · obtain ⟨hinjected, hkeys⟩ := hmeets hcanonical
    refine ⟨hkeeps _ hr.service, hmanaged, fun connection hmem hprovider =>
      (hr.consumers connection hmem hprovider).imp_right (hkeeps _), ?_, ?_, ?_⟩
    · intro connection hmem connection' hmem'
      exact hr.single connection ((hpair _).mp hmem) connection' ((hpair _).mp hmem')
    · intro entry hentry
      rw [show s.injected = [] from hinjected] at hentry
      nomatch hentry
    · intro connection hmem key hkey
      rw [hkeys connection ((hpair _).mp hmem)] at hkey
      nomatch hkey
  · refine hr.congr hmanaged hkeeps rfl (fun _ => (hpair _).mp) (fun _ => (hpair _).mpr) ?_
      fun _ h => h
    exact envScope_congr rfl (by simp [hcanonical])

/-! ### A call of `connect` -/

/-- The connection is on record afterwards, as the only one of the pair. -/
theorem recordConnection (hr : Ready pair s)
    (hconsumer : ∀ consumer, s.db.consumer pair.projectId = some consumer →
      ∀ connection ∈ s.db.pairRows pair, connection.consumer = consumer.id) :
    Ready pair { s with db := s.db.recordConnection pair } := by
  rw [LinkedTables.recordConnection]
  split
  next consumer hfound =>
    rw [upsertServiceConnection]
    split
    · exact hr
    next hnew =>
      obtain ⟨hrow, hproject, hdeployable⟩ := mem_of_consumer hfound
      have hself : consumer.id ≠ pair.service.id := fun hid =>
        Bool.false_ne_true ((hr.managed consumer hrow hid).symm.trans hdeployable)
      have hempty : ∀ connection, connection ∉ s.db.pairRows pair := by
        intro connection hmem
        have hid := hconsumer consumer hfound connection hmem
        obtain ⟨hmem, hprovider, _⟩ := mem_pairRows.mp hmem
        exact hnew (List.any_eq_true.mpr ⟨connection, hmem, by simp [hid, hprovider]⟩)
      have honly : ∀ connection, connection ∈ ({ s.db with connections := s.db.connections ++
            [{ consumer := consumer.id, provider := pair.service.id }] } : LinkedTables).pairRows
              pair →
          connection = { consumer := consumer.id, provider := pair.service.id } := by
        intro connection hmem
        obtain ⟨hmem, hprovider, hbelongs⟩ := mem_pairRows.mp hmem
        obtain hmem | hmem := List.mem_append.mp hmem
        · exact absurd (mem_pairRows.mpr ⟨hmem, hprovider, hbelongs⟩) (hempty connection)
        · exact List.mem_singleton.mp hmem
      refine ⟨hr.service, hr.managed, ?_, ?_, ?_, ?_⟩
      · intro connection hmem hprovider
        obtain hmem | hmem := List.mem_append.mp hmem
        · exact hr.consumers connection hmem hprovider
        · rw [List.mem_singleton.mp hmem]
          exact ⟨hself, consumer, hrow, rfl⟩
      · intro connection hmem connection' hmem'
        exact (honly connection hmem).trans (honly connection' hmem').symm
      · intro entry hentry
        obtain ⟨_, connection, hmem, _⟩ := hr.recorded entry hentry
        exact absurd hmem (hempty connection)
      · intro connection hmem key hkey
        rw [honly connection hmem] at hkey
        nomatch hkey
  next => exact hr

theorem exists_pairRow {consumer : Db.AttachService.ServiceRow}
    (h : db.consumer pair.projectId = some consumer) :
    ∃ connection, connection ∈ (db.recordConnection pair).pairRows pair := by
  obtain ⟨hrow, hproject, _⟩ := mem_of_consumer h
  simp only [LinkedTables.recordConnection, h, upsertServiceConnection]
  split
  next hfound =>
    obtain ⟨connection, hmem, hids⟩ := List.any_eq_true.mp hfound
    obtain ⟨hid, hprovider⟩ := of_decide_eq_true hids
    refine ⟨connection, mem_pairRows.mpr ⟨hmem, hprovider, ?_⟩⟩
    exact consumerBelongsToProject_iff.mpr (.inr ⟨consumer, hrow, hid.symm, hproject⟩)
  next =>
    refine ⟨{ consumer := consumer.id, provider := pair.service.id }, mem_pairRows.mpr
      ⟨List.mem_append.mpr (.inr (.head _)), rfl, ?_⟩⟩
    exact consumerBelongsToProject_iff.mpr (.inr ⟨consumer, hrow, rfl, hproject⟩)

/-- The keys are recorded over those of earlier calls that are still in place. -/
theorem updateServiceConnection (hr : Ready pair s) {connection : ConnectionRow}
    {keys : List String} (hmem : connection ∈ s.db.pairRows pair)
    (hkeys : ∀ entry ∈ s.injected, entry.2 ∈ keys) :
    let entries := keys.map (s.db.envScope pair.projectId, ·)
    Ready pair
      { db := s.db.updateServiceConnection connection keys
        injected := entries ++ s.injected, ever := entries ++ s.ever } := by
  intro entries
  have hold : ∀ row ∈ (s.db.updateServiceConnection connection keys).connections,
      ∃ row' ∈ s.db.connections, row.consumer = row'.consumer ∧ row.provider = row'.provider ∧
        (row'.consumer = connection.consumer ∧ row'.provider = connection.provider →
          row = { row' with autoInjectedEnvKeys := some keys }) := by
    intro row hrow
    obtain ⟨row', hrow', rfl⟩ := List.mem_map.mp hrow
    refine ⟨row', hrow', ?_⟩
    split
    next => exact ⟨rfl, rfl, fun _ => rfl⟩
    next hother => exact ⟨rfl, rfl, fun hsame => absurd hsame hother⟩
  have hbelongs : ∀ row row', row.consumer = row'.consumer →
      (s.db.updateServiceConnection connection keys).consumerBelongsToProject pair.projectId row →
        s.db.consumerBelongsToProject pair.projectId row' := by
    intro row row' hsame h
    rw [consumerBelongsToProject_iff] at h ⊢
    rwa [← hsame]
  have hrows : ∀ row, row ∈ (s.db.updateServiceConnection connection keys).pairRows pair →
      row = { connection with autoInjectedEnvKeys := some keys } := by
    intro row hrow
    obtain ⟨hrow, hprovider, h⟩ := mem_pairRows.mp hrow
    obtain ⟨row', hrow', hconsumer, hprovider', hrow⟩ := hold row hrow
    have hmem' : row' ∈ s.db.pairRows pair :=
      mem_pairRows.mpr ⟨hrow', hprovider'.symm.trans hprovider, hbelongs row row' hconsumer h⟩
    obtain rfl := hr.single row' hmem' connection hmem
    exact hrow ⟨rfl, rfl⟩
  have hself : { connection with autoInjectedEnvKeys := some keys } ∈
      (s.db.updateServiceConnection connection keys).pairRows pair := by
    obtain ⟨hmem, hprovider, h⟩ := mem_pairRows.mp hmem
    refine mem_pairRows.mpr ⟨List.mem_map.mpr ⟨connection, hmem, if_pos ⟨rfl, rfl⟩⟩, hprovider, ?_⟩
    rw [consumerBelongsToProject_iff] at h ⊢
    exact h
  refine ⟨hr.service, hr.managed, ?_, ?_, ?_, ?_⟩
  · intro row hrow hprovider
    obtain ⟨row', hrow', hconsumer, hprovider', _⟩ := hold row hrow
    rw [hconsumer]
    exact hr.consumers row' hrow' (hprovider'.symm.trans hprovider)
  · intro row hrow row' hrow'
    exact (hrows row hrow).trans (hrows row' hrow').symm
  · intro entry hentry
    obtain hentry | hentry := List.mem_append.mp hentry
    · obtain ⟨key, hkey, rfl⟩ := List.mem_map.mp hentry
      exact ⟨rfl, _, hself, hkey⟩
    · exact ⟨(hr.recorded entry hentry).1, _, hself, hkeys entry hentry⟩
  · intro row hrow key hkey
    rw [hrows row hrow] at hkey
    exact List.mem_append.mpr (.inl (List.mem_map.mpr ⟨key, hkey, rfl⟩))

theorem recordKeys (hr : Ready pair s) {keys : List String}
    (hworkload : s.db.consumer pair.projectId = none → keys = [])
    (hrow : ∀ consumer, s.db.consumer pair.projectId = some consumer →
      ∃ connection, connection ∈ s.db.pairRows pair)
    (hkeys : keys = [] ∨ ∀ entry ∈ s.injected, entry.2 ∈ keys) :
    let db := s.db.recordKeys pair keys
    let entries := keys.map (db.envScope pair.projectId, ·)
    Ready pair { db, injected := entries ++ s.injected, ever := entries ++ s.ever } := by
  obtain rfl | hkeys := hkeys
  · have hsame : s.db.recordKeys pair [] = s.db := by
      rw [LinkedTables.recordKeys]
      split
      · exact if_pos rfl
      · rfl
    rw [hsame]
    exact hr
  cases hconsumer : s.db.consumer pair.projectId with
  | none =>
    obtain rfl := hworkload hconsumer
    rw [LinkedTables.recordKeys, hconsumer]
    exact hr
  | some consumer =>
    obtain ⟨connection, hfound, hmem⟩ | ⟨_, hnil⟩ := getServiceConnection_cases s.db pair
    · rw [LinkedTables.recordKeys, hconsumer, Option.bind_some, hfound]
      dsimp only
      split
      next hnone =>
        rw [hnone]
        exact hr
      next => exact hr.updateServiceConnection hmem hkeys
    · obtain ⟨connection, hmem⟩ := hrow consumer hconsumer
      rw [hnil] at hmem
      nomatch hmem

/-- The rest of a call of `connect` that meets the condition. -/
theorem link (hr : Ready pair s) (hmeets : Meets.connect pair s given s.db) :
    let keys := (s.db.link pair given).1
    let db := (s.db.link pair given).2
    let entries := keys.map (db.envScope pair.projectId, ·)
    Ready pair { db, injected := entries ++ s.injected, ever := entries ++ s.ever } := by
  obtain ⟨hworkload, hconsumer, hkeys⟩ := hmeets
  have hsame : (s.db.recordConnection pair).consumer pair.projectId =
      s.db.consumer pair.projectId := by
    have hservices : (s.db.recordConnection pair).services = s.db.services :=
      services_recordConnection
    rw [consumer, getDeployablesByGroup, hservices]
    rfl
  have hinject := (hr.recordConnection hconsumer).edit
    (setVars pair.projectId (s.db.recordConnection pair).toStore
      ((s.db.recordConnection pair).envScope pair.projectId)
      ((s.db.recordConnection pair).injectedVars pair given)) fun _ h => h
  refine hinject.recordKeys (fun hnone => ?_) (fun consumer hfound => ?_) ?_
  · rw [hworkload (hsame.symm.trans hnone), List.map_nil]
  · exact exists_pairRow (hsame.symm.trans hfound)
  · exact hkeys.imp_left fun hnil => by rw [hnil, List.map_nil]

theorem disconnect (hr : Ready pair s) :
    Ready pair { s with db := s.db.disconnect pair, injected := [] } := by
  have hempty : ∀ connection, connection ∉ (s.db.disconnect pair).pairRows pair := fun _ => by
    rw [pairRows_disconnect]
    exact List.not_mem_nil
  have hservices : (s.db.disconnect pair).services = s.db.services := services_disconnect
  refine ⟨?_, ?_, ?_, ?_, nofun, ?_⟩
  · exact hservices ▸ hr.service
  · exact hservices ▸ hr.managed
  · intro connection hmem hprovider
    rw [show State.db { s with db := s.db.disconnect pair, injected := [] } = _ from rfl, hservices]
    exact hr.consumers connection (connections_disconnect_subset hmem) hprovider
  · exact fun connection hmem => absurd hmem (hempty connection)
  · exact fun connection hmem => absurd hmem (hempty connection)

/-- The state keeps what it is about. -/
theorem next (hr : Ready pair s) (hmeets : Meets pair s e) (ht : next pair s e = some t) :
    Ready pair t := by
  cases e with
  | connect given =>
    have hconnect : LinkedTables.connect pair s.db given =
        (attachServiceToProject pair.projectId pair.service.id s.db.toTables).map fun moved =>
          LinkedTables.link pair { s.db with toTables := moved.2 } given := rfl
    rw [ServiceLinker.next, hconnect] at ht
    cases hattach : attachServiceToProject pair.projectId pair.service.id s.db.toTables with
    | error error =>
      rw [hattach] at ht
      obtain rfl := Option.some.inj ht
      exact hr
    | ok moved =>
      rw [hattach] at ht
      obtain rfl := Option.some.inj ht
      exact (hr.attachService hattach).link (hmeets moved hattach)
  | createWorkload row =>
    obtain ⟨⟨_, _, hnew⟩, ht⟩ := Option.ite_none_right_eq_some.mp ht
    obtain rfl := Option.some.inj ht
    exact hr.createWorkload hnew hmeets
  | attachWorkload serviceId =>
    obtain ⟨_, ht⟩ := Option.ite_none_right_eq_some.mp ht
    split at ht
    · obtain rfl := Option.some.inj ht
      exact hr
    next moved hmoved =>
      obtain rfl := Option.some.inj ht
      exact (hr.attach hmoved hmeets).touch serviceId
  | touch serviceId =>
    obtain rfl := Option.some.inj ht
    exact hr.touch serviceId
  | edit scope key value =>
    obtain rfl := Option.some.inj ht
    exact hr.edit _ fun entry hentry => (List.mem_filter.mp hentry).1
  | disconnect =>
    obtain rfl := Option.some.inj ht
    exact hr.disconnect

/-! ### What the two operations do to the variables -/

/-- What is in place is in the scope and on the record that `disconnect` goes by. -/
theorem getVars_disconnect_injected (hr : Ready pair s) {entry : EnvScope × String}
    (h : entry ∈ s.injected) : getVars (s.db.disconnect pair).toStore entry.1 entry.2 = none := by
  obtain ⟨hscope, connection, hmem, hkey⟩ := hr.recorded entry h
  rw [LinkedTables.disconnect]
  obtain ⟨found, hfound, hmem'⟩ | ⟨_, hnil⟩ := getServiceConnection_cases s.db pair
  · obtain rfl := hr.single connection hmem found hmem'
    rw [hfound]
    exact getVars_deleteVars.trans (if_pos ⟨hscope, hkey⟩)
  · rw [hnil] at hmem
    nomatch hmem

/-- What is on record has been set by `connect`. -/
theorem getVars_disconnect (hr : Ready pair s) {entry : EnvScope × String} (h : entry ∉ s.ever) :
    getVars (s.db.disconnect pair).toStore entry.1 entry.2 =
      getVars s.db.toStore entry.1 entry.2 := by
  rw [LinkedTables.disconnect]
  obtain ⟨connection, hfound, hmem⟩ | ⟨hnone, _⟩ := getServiceConnection_cases s.db pair
  · rw [hfound]
    refine getVars_deleteVars.trans (if_neg fun ⟨hscope, hkey⟩ => h ?_)
    rw [← Prod.mk.eta (p := entry), hscope]
    exact hr.ever connection hmem _ hkey
  · rw [hnone]

end Ready

/-- The project, and its workloads. -/
def LinkedTables.InProject (db : LinkedTables) (projectId : String) (scope : EnvScope) : Prop :=
  scope = .group projectId ∨
    ∃ row ∈ db.getDeployablesByGroup projectId, scope = .service row.id

namespace LinkedTables
variable {db : LinkedTables} {scope : EnvScope}

theorem toStore_recordConnection : (db.recordConnection pair).toStore = db.toStore := by
  rw [recordConnection]
  split
  · rw [upsertServiceConnection]
    split <;> rfl
  · rfl

theorem toStore_recordKeys {keys : List String} :
    (db.recordKeys pair keys).toStore = db.toStore := by
  rw [recordKeys]
  split
  · split <;> rfl
  · rfl

theorem envScope_recordKeys {keys : List String} :
    (db.recordKeys pair keys).envScope projectId = db.envScope projectId := by
  rw [recordKeys]
  split
  · split <;> rfl
  · rfl

theorem getVars_link
    (h : ∀ name ∈ (db.link pair given).1, (scope, key) ≠
      ((db.link pair given).2.envScope pair.projectId, name)) :
    getVars (db.link pair given).2.toStore scope key = getVars db.toStore scope key := by
  have hscope : (db.link pair given).2.envScope pair.projectId =
      (db.recordConnection pair).envScope pair.projectId := envScope_recordKeys
  rw [hscope] at h
  have hstore : (db.link pair given).2.toStore = _ := toStore_recordKeys
  have hrecorded : (db.recordConnection pair).toStore = db.toStore := toStore_recordConnection
  rw [hstore, ← hrecorded]
  exact getVars_setVars fun entry hentry => h entry.1 (List.mem_map_of_mem hentry)

end LinkedTables

/-! ## The runs -/

/-- No call of `connect` for the pair has been made. -/
structure Start (pair : Pair) (s : State) : Prop where
  service : ∃ row ∈ s.db.services, row.id = pair.service.id
  managed : ∀ row ∈ s.db.services, row.id = pair.service.id → isDeployable row.kind = false
  consumers : ∀ connection ∈ s.db.connections, connection.provider = pair.service.id →
    connection.consumer ≠ pair.service.id ∧ ∃ row ∈ s.db.services, row.id = connection.consumer
  unconnected : s.db.pairRows pair = []
  injected : s.injected = []

/-- `disconnect` takes back what `connect` has set and leaves the rest, without a connection; and
`connect` changes nothing in the project but what it sets. -/
def CancelsOut (pair : Pair) (s : State) : Prop :=
  (∀ t, next pair s .disconnect = some t →
    (∀ entry ∈ s.injected, getVars t.db.toStore entry.1 entry.2 = none) ∧
    (∀ entry ∉ s.ever, getVars t.db.toStore entry.1 entry.2 =
      getVars s.db.toStore entry.1 entry.2) ∧
    t.db.pairRows pair = []) ∧
  ∀ given t, next pair s (.connect given) = some t → ∀ entry ∉ t.ever,
    s.db.InProject pair.projectId entry.1 →
      getVars t.db.toStore entry.1 entry.2 = getVars s.db.toStore entry.1 entry.2

theorem Ready.start {s : State} (h : Start pair s) : Ready pair s where
  service := h.service
  managed := h.managed
  consumers := h.consumers
  single connection hmem := by
    rw [h.unconnected] at hmem
    nomatch hmem
  recorded entry hentry := by
    rw [h.injected] at hentry
    nomatch hentry
  ever connection hmem := by
    rw [h.unconnected] at hmem
    nomatch hmem

theorem Ready.cancelsOut {s : State} (hr : Ready pair s) : CancelsOut pair s := by
  constructor
  · intro t ht
    obtain rfl := Option.some.inj ht
    exact ⟨fun entry h => hr.getVars_disconnect_injected h, fun entry h => hr.getVars_disconnect h,
      pairRows_disconnect⟩
  · intro given t ht entry hentry hscope
    rw [ServiceLinker.next, LinkedTables.connect] at ht
    cases hattach : attachServiceToProject pair.projectId pair.service.id s.db.toTables with
    | error error =>
      rw [hattach] at ht
      obtain rfl := Option.some.inj ht
      rfl
    | ok moved =>
      rw [hattach] at ht
      obtain rfl := Option.some.inj ht
      have hlink : getVars (LinkedTables.link pair { s.db with toTables := moved.2 } given).2.toStore
          entry.1 entry.2 = getVars moved.2.toStore entry.1 entry.2 := by
        refine getVars_link fun name hname heq => hentry ?_
        exact List.mem_append.mpr (.inl (List.mem_map.mpr ⟨name, hname, heq.symm⟩))
      refine hlink.trans (getVars_attach hattach ?_)
      refine hscope.imp_right fun ⟨row, hrow, heq⟩ => ⟨row.id, fun hid => ?_, heq⟩
      obtain ⟨hmem, hdeployable⟩ := List.mem_filter.mp hrow
      have hkind := hr.managed row hmem hid
      simp [hkind] at hdeployable

/-- In a run whose steps meet the condition. -/
theorem connectDisconnect {s t : State} (hs : Start pair s)
    (h : Run (Guarded (Fires (next pair)) (Meets pair)) s es t) : CancelsOut pair t :=
  (h.invariant (I := Ready pair) (fun _ _ _ ⟨hstep, hmeets⟩ hr => hr.next hmeets hstep)
    (.start hs)).cancelsOut

/-! ## A cache for a shop -/

/-- A managed Redis, for a project. -/
def cache : Pair where
  projectId := "shop"
  service := { id := "cache", name := "cache", kind := "redis" }
  kind _ := "redis"
  limitOne := {
    pick := List.head?
    mem_of_pick := fun _ _ => List.mem_of_head?
    eq_nil_of_pick := fun _ => List.head?_eq_none_iff.mp }

/-- The cache in the pool, and the workloads of the shop. -/
def unlinked (workloads : List Db.AttachService.ServiceRow) : State where
  db := {
    projects := ["shop", "__orphan_managed"]
    services := workloads ++ [⟨"cache", some "__orphan_managed", .managed, none⟩] }
  injected := []
  ever := []

theorem start_unlinked {workloads : List Db.AttachService.ServiceRow}
    (h : ∀ row ∈ workloads, row.id ≠ "cache") : Start cache (unlinked workloads) where
  service := ⟨_, List.mem_append.mpr (.inr (.head _)), rfl⟩
  managed row hrow hid := by
    obtain hrow | hrow := List.mem_append.mp hrow
    · exact absurd hid (h row hrow)
    · obtain rfl := List.mem_singleton.mp hrow
      rfl
  consumers := nofun
  unconnected := rfl
  injected := rfl

/-- The variable is set for the workload, and taken back. -/
theorem connectDisconnect_cache : ∃ t : State,
    (t.injected = [(.service "shop__svc", "REDIS_URL")] ∧
      getVars t.db.toStore (.service "shop__svc") "REDIS_URL" = some "redis://cache:6379") ∧
      CancelsOut cache t := by
  have hstart : Start cache (unlinked [⟨"shop__svc", some "shop", .git, none⟩]) :=
    start_unlinked (by decide)
  have hstep : Fires (next cache) (unlinked [⟨"shop__svc", some "shop", .git, none⟩])
      (.connect {}) _ := rfl
  refine ⟨_, ?_, connectDisconnect hstart (.single ⟨hstep, ?_⟩)⟩
  · decide
  · intro moved hmoved
    obtain rfl := Except.ok.inj hmoved
    refine ⟨fun hnone => ?_, fun _ _ connection hmem => ?_, .inr nofun⟩
    · revert hnone
      decide
    · nomatch hmem

/-- Without a workload to record the keys with, they stay. -/
theorem not_connectDisconnect : ¬ ∀ (pair : Pair) (s t : State) es, Start pair s →
    Run (Fires (next pair)) s es t → CancelsOut pair t := by
  intro h
  have hcancels := h cache (unlinked []) _ [.connect {}] (start_unlinked (by decide)) (.of_exec rfl)
  have habsent := (hcancels.1 _ rfl).1 (.group "shop", "REDIS_URL") (by decide)
  revert habsent
  decide

end OpenLander.Pipeline.ServiceLinker
