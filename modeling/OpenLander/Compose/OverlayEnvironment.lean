import OpenLander.Compose.Overlay

/-! # The environment of merged compose files

What `parseComposeFiles` gives for a service, key by key, next to what its files say one after the
other. A list on a list is appended and loses its repetitions, and a list on a map or a map on a list
replaces it. -/

namespace OpenLander.Compose.Overlay
open Theory

/-! ## Variables -/

/-- The name of an item and its value, or a bare name. -/
def readItem (item : String) : Option (String × Option String) :=
  let line := trim item.toList
  if line.isEmpty then none
  else if '=' ∉ line then some (String.ofList line, none)
  else if (splitItem line).1.isEmpty then none
  else some (String.ofList (splitItem line).1, some (String.ofList (splitItem line).2))

def assignments : ComposeEnvironment → List (String × Option String)
  | .list items => items.filterMap readItem
  | .map entries => entries.map fun (key, value) => (key, some value)

/-- What an environment says of each variable. -/
def assigned (environment : Option ComposeEnvironment) (name : String) : Option (Option String) :=
  environment.bind fun environment => fromEntries (assignments environment) name

/-- The environment of a service, by the files together. -/
def environmentOf (files : List Value) (service : String) : Option ComposeEnvironment :=
  match parseComposeFiles files with
  | .ok services => (services.lookup service).join
  | .error _ => none

/-! ## One file after the other -/

/-- What a marker stands for. -/
def consume (value : Value) : Value :=
  if isComposeResetValue value then value.get "value" else value

def consumeEntries : Value → Value
  | .record keys value => .record keys fun key => consume (value key)
  | value => value

/-- Whether there is a marker on the way down, and what is there in the end. -/
def declared (value : Value) : List String → Bool × Value
  | [] => (isComposeResetValue value, consume value)
  | key :: keys =>
    let (reset, found) := declared ((consume value).get key) keys
    (isComposeResetValue value || reset, found)

def environmentPath (service : String) : List String := ["services", service, "environment"]

/-- A file overrides what the earlier ones say. With a marker it takes all of that back. -/
def overrideVariables (service : String) (earlier : String → Option (Option String)) (file : Value)
    (name : String) : Option (Option String) :=
  let (reset, environment) := declared file (environmentPath service)
  (assigned (parseEnvironment (consumeEntries environment)) name).or
    (if reset then none else earlier name)

def fileVariables (files : List Value) (service : String) : String → Option (Option String) :=
  (files.map parseComposeDocument).foldl (overrideVariables service) fun _ => none

/-- The merged files have no markers, and say of each variable what they say one after the other. -/
structure Overlaid (files : List Value) : Prop where
  clean : Clean (mergeFiles files)
  environment : ∀ service,
    assigned (environmentOf files service) = fileVariables files service

/-! ## Environments that are kept -/

def Value.follow (value : Value) (path : List String) : Value := path.foldl Value.get value

def nameOf (item : Value) : Option String := (readItem item.text).map (·.1)

/-- The last item of the name. -/
def Last (items : List Value) (name : String) (item : Value) : Prop :=
  ∃ before after, items = before ++ item :: after ∧ nameOf item = some name ∧
    ∀ other ∈ after, nameOf other ≠ some name

/-- The last item of the name that is no repetition. -/
def LastNew (items : List Value) (name : String) (item : Value) : Prop :=
  ∃ before after, items = before ++ item :: after ∧ nameOf item = some name ∧
    isFirst before item = true ∧ ∀ between other rest, after = between ++ other :: rest →
      nameOf other = some name → isFirst (before ++ item :: between) other = false

/-- The last new item of a name says what its last item says. -/
def NoneReverted (items : List Value) : Prop :=
  ∀ name item, Last items name item →
    ∃ new, LastNew items name new ∧ readItem new.text = readItem item.text

/-- Every variable of the base is one of the overlay. -/
def Covers (base overlay : Value) : Prop :=
  ∀ name, (assigned (parseEnvironment base) name).isSome →
    (assigned (parseEnvironment overlay) name).isSome

/-- Two lists are the value of a variable: both together read like the later one. -/
def ListsAgree (name : String) : Value → Value → Prop
  | .list base, .list overlay => isReplaced ["environment", name] = true ∨
    (Value.list (distinct [] (base ++ overlay))).text = (Value.list overlay).text
  | _, _ => True

def KeepsVariables : Value → Value → Prop
  | .list base, .list overlay => NoneReverted (base ++ overlay)
  | .record baseKeys baseValue, .record keys value =>
    ∀ key ∈ keys, ListsAgree key ((Value.record baseKeys baseValue).get key) (value key)
  | base, overlay => Covers base overlay

/-- Where the overlay has something else than a record on the way down, or spells the environment in
the other way, it says every variable that there was. -/
def KeepsEnvironment : Value → Value → List String → Prop
  | base, overlay, [] => isComposeResetValue overlay = false → KeepsVariables base overlay
  | .record baseKeys baseValue, .record keys value, key :: path =>
    isComposeResetValue (.record keys value) = false → key ∈ keys →
      KeepsEnvironment ((Value.record baseKeys baseValue).get key) (value key) path
  | base, overlay, key :: path =>
    isComposeResetValue overlay = false →
      Covers (base.follow (key :: path)) (overlay.follow (key :: path))

section
variable {v base overlay : Value} {items before : List Value} {path : List String}
  {keys baseKeys : List String} {value baseValue : String → Value} {service name : String}

/-! ## Documents without markers -/

theorem consume_of_clean (h : Clean v) : consume v = v := by
  rw [consume, h v (.refl v)]
  rfl

theorem declared_of_clean (h : Clean v) : declared v path = (false, v.follow path) := by
  induction path generalizing v with
  | nil => rw [declared, consume_of_clean h, h v (.refl v)]; rfl
  | cons key path ih =>
    rw [declared, consume_of_clean h, ih (h.get key), h v (.refl v)]
    rfl

theorem declared_of_reset (h : isComposeResetValue v = true) (hclean : Clean (v.get "value")) :
    declared v path = (true, (v.get "value").follow path) := by
  have hconsume : consume v = v.get "value" := if_pos h
  cases path with
  | nil => rw [declared, hconsume, h]; rfl
  | cons key path =>
    rw [declared, hconsume, declared_of_clean (hclean.get key), h]
    rfl

theorem parseEnvironment_consumeEntries (h : Clean v) :
    parseEnvironment (consumeEntries v) = parseEnvironment v := by
  cases v with
  | record keys value =>
    rw [consumeEntries, parseEnvironment, parseEnvironment]
    have hvalue : ∀ key ∈ keys, consume (value key) = value key :=
      fun key hkey => consume_of_clean ((clean_record.mp h).2 key hkey)
    congr 2
    exact List.map_congr_left fun key hkey => by rw [hvalue key hkey]
  | _ => rfl

theorem Clean.follow (h : Clean v) : Clean (v.follow path) := by
  induction path generalizing v with
  | nil => exact h
  | cons key path ih => exact ih (h.get key)

theorem follow_undefined : Value.undefined.follow path = .undefined := by
  induction path with
  | nil => rfl
  | cons key path ih => exact ih

/-- A value that replaces another one says what both say one after the other where it covers it. -/
theorem covers_iff : Covers base overlay ↔
    ∀ name, assigned (parseEnvironment overlay) name =
      (assigned (parseEnvironment overlay) name).or (assigned (parseEnvironment base) name) := by
  refine forall_congr' fun name => ?_
  cases assigned (parseEnvironment overlay) name <;>
    cases assigned (parseEnvironment base) name <;> simp

/-! ## Records -/

/-- Each key has the value that a function gives it. -/
theorem fromEntries_map_self (f : String → α) (name : String) :
    fromEntries (keys.map fun key => (key, f key)) name =
      if name ∈ keys then some (f name) else none := by
  by_cases hname : name ∈ keys
  · rw [if_pos hname]
    have hmem : name ∈ (keys.map fun key => (key, f key)).map (·.1) := by simpa using hname
    obtain ⟨found, hfound⟩ := Option.isSome_iff_exists.mp (fromEntries_isSome.mpr hmem)
    obtain ⟨key, -, hkey⟩ := List.mem_map.mp (mem_of_fromEntries hfound)
    rw [hfound, ← (Prod.mk.inj hkey).2, (Prod.mk.inj hkey).1]
  · rw [if_neg hname]
    rw [← Option.not_isSome_iff_eq_none, fromEntries_isSome, List.map_map]
    simpa using hname

theorem assigned_record (name : String) :
    assigned (parseEnvironment (.record keys value)) name =
      if name ∈ keys then some (some (variableText (value name))) else none := by
  rw [parseEnvironment, assigned, Option.bind_some, assignments, List.map_map]
  exact fromEntries_map_self (fun key => some (variableText (value key))) name

/-! ## Lists -/

theorem assigned_list (name : String) :
    assigned (parseEnvironment (.list items)) name =
      fromEntries (items.filterMap fun item => readItem item.text) name := by
  rw [parseEnvironment, assigned, Option.bind_some, assignments, List.filterMap_map]
  rfl

theorem concat_eq_append_cons {l before after : List α} :
    l ++ [y] = before ++ x :: after ↔
      l = before ∧ y = x ∧ after = [] ∨ ∃ rest, after = rest ++ [y] ∧ l = before ++ x :: rest := by
  constructor
  · intro h
    rcases after.eq_nil_or_concat with rfl | ⟨rest, z, rfl⟩
    · obtain ⟨hl, hy⟩ := List.append_inj' h rfl
      exact .inl ⟨hl, List.singleton_inj.mp hy, rfl⟩
    · rw [List.concat_eq_append, ← List.cons_append, ← List.append_assoc] at h
      obtain ⟨hl, hy⟩ := List.append_inj' h rfl
      exact .inr ⟨rest, by rw [List.concat_eq_append, List.singleton_inj.mp hy], hl⟩
  · rintro (⟨rfl, rfl, rfl⟩ | ⟨rest, rfl, rfl⟩)
    · rfl
    · rw [List.append_assoc, List.cons_append]

/-- The last item of a longer list. -/
theorem last_concat {y : Value} : Last (items ++ [y]) name v ↔
    if nameOf y = some name then v = y else Last items name v := by
  by_cases hy : nameOf y = some name
  · rw [if_pos hy]
    constructor
    · rintro ⟨before, after, heq, hname, hafter⟩
      rcases concat_eq_append_cons.mp heq with ⟨-, hv, -⟩ | ⟨rest, rfl, -⟩
      · exact hv.symm
      · exact absurd hy (hafter y (List.mem_append_right rest (.head _)))
    · rintro rfl
      exact ⟨items, [], rfl, hy, nofun⟩
  · rw [if_neg hy]
    constructor
    · rintro ⟨before, after, heq, hname, hafter⟩
      rcases concat_eq_append_cons.mp heq with ⟨-, rfl, -⟩ | ⟨rest, rfl, hitems⟩
      · exact absurd hname hy
      · exact ⟨before, rest, hitems, hname, fun other h => hafter other (List.mem_append_left _ h)⟩
    · rintro ⟨before, after, rfl, hname, hafter⟩
      refine ⟨before, after ++ [y], by rw [List.append_assoc, List.cons_append], hname, ?_⟩
      intro other hother
      rcases List.mem_append.mp hother with hother | hother
      · exact hafter other hother
      · rwa [List.mem_singleton.mp hother]

theorem nameOf_eq_some : nameOf v = some name ↔
    ∃ assignment, readItem v.text = some (name, assignment) := by
  rw [nameOf, Option.map_eq_some_iff]
  constructor
  · rintro ⟨⟨found, assignment⟩, h, rfl⟩
    exact ⟨assignment, h⟩
  · exact fun ⟨assignment, h⟩ => ⟨_, h, rfl⟩

/-- What is said of a name, after one more item. -/
theorem fromEntries_readItem_concat (y : Value) :
    fromEntries ((items ++ [y]).filterMap fun item => readItem item.text) name =
      if nameOf y = some name then (readItem y.text).map (·.2)
      else fromEntries (items.filterMap fun item => readItem item.text) name := by
  rw [List.filterMap_append, nameOf]
  cases hread : readItem y.text with
  | none =>
    simp only [List.filterMap_cons, hread, List.filterMap_nil, List.append_nil]
    rfl
  | some entry =>
    simp only [List.filterMap_cons, hread, List.filterMap_nil, fromEntries_concat,
      Option.map_some, Option.some_inj]

theorem readItem_eq_of_nameOf (h : nameOf v = some name) :
    (readItem v.text).map (·.2) = some assignment ↔ readItem v.text = some (name, assignment) := by
  obtain ⟨found, hread⟩ := nameOf_eq_some.mp h
  rw [hread, Option.map_some, Option.some_inj, Option.some_inj, Prod.mk.injEq, eq_self, true_and]

/-- What is said of a name is what its last item says. -/
theorem fromEntries_readItem_iff : fromEntries (items.filterMap fun item => readItem item.text) name =
    some assignment ↔ ∃ v, Last items name v ∧ readItem v.text = some (name, assignment) := by
  induction items using List.reverseRecOn with
  | nil =>
    refine iff_of_false nofun fun ⟨_, ⟨_, _, h, _⟩, _⟩ => ?_
    exact List.append_ne_nil_of_right_ne_nil _ (List.cons_ne_nil _ _) h.symm
  | append_singleton items y ih =>
    rw [fromEntries_readItem_concat]
    simp only [last_concat]
    by_cases hy : nameOf y = some name
    · simp only [if_pos hy, exists_eq_left, readItem_eq_of_nameOf hy]
    · simp only [if_neg hy, ih]

theorem distinct_concat (y : Value) :
    distinct before (items ++ [y]) =
      distinct before items ++ if isFirst (before ++ items) y then [y] else [] := by
  induction items generalizing before with
  | nil =>
    rw [List.nil_append, distinct, distinct, distinct, List.append_nil, List.nil_append]
  | cons item items ih =>
    rw [List.cons_append, distinct, distinct, ih, List.append_cons before item items]
    split
    · rw [List.cons_append]
    · rfl

theorem lastNew_concat {y : Value} : LastNew (items ++ [y]) name v ↔
    if nameOf y = some name ∧ isFirst items y = true then v = y else LastNew items name v := by
  by_cases hy : nameOf y = some name ∧ isFirst items y = true
  · rw [if_pos hy]
    constructor
    · rintro ⟨before, after, heq, hname, hfirst, hafter⟩
      rcases concat_eq_append_cons.mp heq with ⟨-, hv, -⟩ | ⟨rest, rfl, hitems⟩
      · exact hv.symm
      · have hrepeated := hafter rest y [] rfl hy.1
        rw [← hitems, hy.2] at hrepeated
        cases hrepeated
    · rintro rfl
      refine ⟨items, [], rfl, hy.1, hy.2, fun between other rest h => ?_⟩
      exact absurd h.symm (List.append_ne_nil_of_right_ne_nil _ (List.cons_ne_nil _ _))
  · rw [if_neg hy]
    constructor
    · rintro ⟨before, after, heq, hname, hfirst, hafter⟩
      rcases concat_eq_append_cons.mp heq with ⟨rfl, rfl, -⟩ | ⟨rest, rfl, hitems⟩
      · exact absurd ⟨hname, hfirst⟩ hy
      · refine ⟨before, rest, hitems, hname, hfirst, fun between other rest' h => ?_⟩
        exact hafter between other (rest' ++ [y]) (by rw [h, List.append_assoc, List.cons_append])
    · rintro ⟨before, after, rfl, hname, hfirst, hafter⟩
      refine ⟨before, after ++ [y], by rw [List.append_assoc, List.cons_append], hname, hfirst, ?_⟩
      intro between other rest h hother
      rcases concat_eq_append_cons.mp h with ⟨rfl, rfl, -⟩ | ⟨rest, -, hafter'⟩
      · exact Bool.eq_false_iff.mpr fun hnew => hy ⟨hother, hnew⟩
      · exact hafter between other rest hafter' hother

theorem fromEntries_distinct_iff :
    fromEntries ((distinct [] items).filterMap fun item => readItem item.text) name =
      some assignment ↔ ∃ v, LastNew items name v ∧ readItem v.text = some (name, assignment) := by
  induction items using List.reverseRecOn with
  | nil =>
    refine iff_of_false nofun fun ⟨_, ⟨_, _, h, _⟩, _⟩ => ?_
    exact List.append_ne_nil_of_right_ne_nil _ (List.cons_ne_nil _ _) h.symm
  | append_singleton items y ih =>
    rw [distinct_concat, List.nil_append]
    simp only [lastNew_concat]
    cases hfirst : isFirst items y with
    | true =>
      rw [if_pos rfl, fromEntries_readItem_concat]
      by_cases hy : nameOf y = some name
      · simp only [hy, and_self, if_true, exists_eq_left, readItem_eq_of_nameOf hy]
      · simp only [hy, false_and, if_false, ih]
    | false =>
      simp only [Bool.false_eq_true, if_false, and_false, List.append_nil, ih]

theorem noneReverted_iff : NoneReverted items ↔ ∀ name,
    assigned (parseEnvironment (.list (distinct [] items))) name =
      assigned (parseEnvironment (.list items)) name := by
  simp only [assigned_list]
  constructor
  · intro h name
    cases hlast : fromEntries (items.filterMap fun item => readItem item.text) name with
    | some assignment =>
      obtain ⟨item, hitem, hread⟩ := fromEntries_readItem_iff.mp hlast
      obtain ⟨new, hnew, heq⟩ := h name item hitem
      exact fromEntries_distinct_iff.mpr ⟨new, hnew, heq.trans hread⟩
    | none =>
      rw [← Option.not_isSome_iff_eq_none, fromEntries_isSome] at hlast ⊢
      refine fun hmem => hlast ?_
      obtain ⟨entry, hentry, rfl⟩ := List.mem_map.mp hmem
      obtain ⟨item, hitem, hread⟩ := List.mem_filterMap.mp hentry
      exact List.mem_map_of_mem (List.mem_filterMap.mpr ⟨item, mem_distinct hitem, hread⟩)
  · intro h name item hitem
    obtain ⟨-, -, -, hname, -⟩ := id hitem
    obtain ⟨assignment, hread⟩ := nameOf_eq_some.mp hname
    have hlast := fromEntries_readItem_iff.mpr ⟨item, hitem, hread⟩
    obtain ⟨new, hnew, hnewRead⟩ := fromEntries_distinct_iff.mp ((h name).trans hlast)
    exact ⟨new, hnew, hnewRead.trans hread.symm⟩

theorem assigned_list_append (items items' : List Value) (name : String) :
    assigned (parseEnvironment (.list (items ++ items'))) name =
      (assigned (parseEnvironment (.list items')) name).or
        (assigned (parseEnvironment (.list items)) name) := by
  rw [assigned_list, assigned_list, assigned_list, List.filterMap_append, fromEntries,
    List.reverse_append, List.lookup_append]
  rfl

/-! ## One step -/

/-- The list of an environment is appended. -/
theorem isReplaced_environmentPath (service : String) :
    isReplaced (environmentPath service) = false := by
  have hlast : ".".intercalate [service, "environment"] ≠ "healthcheck.test" := by
    intro h
    have hlist : service.toList ++ ".environment".toList = "healthcheck.test".toList := by
      rw [← h, ← String.toList_append, String.intercalate_cons_cons, String.intercalate_singleton,
        String.append_assoc]
      rfl
    have hreverse := congrArg (fun l : List Char => l.reverse.take 2) hlist
    rw [List.reverse_append] at hreverse
    exact absurd hreverse (by simp)
  exact decide_eq_false hlast

theorem listsAgree_iff (service : String) : ListsAgree name base overlay ↔
    variableText (mergeComposeValues base overlay (environmentPath service ++ [name])) =
      variableText (consume overlay) := by
  cases hreset : isComposeResetValue overlay with
  | true =>
    rw [merge_reset hreset, consume, if_pos hreset]
    cases overlay with
    | record => cases base <;> exact iff_of_true trivial rfl
    | _ => exact nomatch hreset
  | false =>
    rw [consume, hreset, if_neg Bool.false_ne_true]
    by_cases hkind : SameKind base overlay
    · cases base <;> cases overlay <;> try exact hkind.elim
      · next base overlay =>
        rw [merge_lists]
        change isReplaced ["environment", name] = true ∨ _ ↔
          variableText (if isReplaced ["environment", name] then _ else _) = _
        cases isReplaced ["environment", name] with
        | true => exact iff_of_true (.inl rfl) rfl
        | false => exact or_iff_right Bool.false_ne_true
      · rw [merge_records hreset]
        exact iff_of_true trivial rfl
    · rw [merge_of_not_sameKind hreset hkind]
      refine iff_of_true ?_ rfl
      cases base <;> cases overlay <;> first | trivial | exact absurd trivial hkind

/-- One file more, at the environment of a service. -/
theorem keepsVariables_iff (service : String) (hreset : isComposeResetValue overlay = false)
    (hconsumed : Consumed base overlay) : KeepsVariables base overlay ↔ ∀ name,
      assigned (parseEnvironment (mergeComposeValues base overlay (environmentPath service))) name =
        (assigned (parseEnvironment (consumeEntries overlay)) name).or
          (assigned (parseEnvironment base) name) := by
  by_cases hkind : SameKind base overlay
  · cases base <;> cases overlay <;> try exact hkind.elim
    · next base overlay =>
      rw [merge_lists, isReplaced_environmentPath, if_neg Bool.false_ne_true]
      refine noneReverted_iff.trans (forall_congr' fun name => ?_)
      have hconsume : consumeEntries (.list overlay) = .list overlay := rfl
      rw [hconsume, assigned_list_append]
    · next baseKeys baseValue keys value =>
      rw [merge_records hreset, consumeEntries]
      simp only [assigned_record, mem_foldl_insertLast]
      refine forall_congr' fun name => ?_
      by_cases hname : name ∈ keys
      · simp only [hname, or_true, if_true, Option.some_or, Option.some_inj, forall_const]
        exact listsAgree_iff service
      · simp only [hname, or_false, if_false, Option.none_or, false_imp_iff]
  · have hclean := (consumed_of_not_sameKind hreset hkind).mp hconsumed
    rw [merge_of_not_sameKind hreset hkind, parseEnvironment_consumeEntries hclean, ← covers_iff]
    cases base <;> cases overlay <;> first | exact .rfl | exact absurd trivial hkind

/-- What the environment at the end of a path is to be with one file more. -/
def Overrides (base overlay merged : Value) (path : List String) : Prop := ∀ name,
  assigned (parseEnvironment (merged.follow path)) name =
    (assigned (parseEnvironment (consumeEntries (declared overlay path).2)) name).or
      (if (declared overlay path).1 then none
        else assigned (parseEnvironment (base.follow path)) name)

/-- A marker takes back what was said. -/
theorem overrides_of_reset (h : isComposeResetValue overlay = true)
    (hclean : Clean (overlay.get "value")) : Overrides base overlay (overlay.get "value") path := by
  intro name
  rw [declared_of_reset h hclean, parseEnvironment_consumeEntries hclean.follow, if_pos rfl,
    Option.or_none]

/-- A value that is put in the place of another one. -/
theorem overrides_of_clean (hclean : Clean overlay) : Overrides base overlay overlay path ↔
    Covers (base.follow path) (overlay.follow path) := by
  rw [covers_iff, Overrides, declared_of_clean hclean]
  simp only [parseEnvironment_consumeEntries hclean.follow, Bool.false_eq_true, if_false]

theorem declared_cons (h : isComposeResetValue v = false) (key : String) :
    declared v (key :: path) = declared (v.get key) path := by
  rw [declared, consume, h]
  rfl

theorem overrides_cons {merged : Value} (h : isComposeResetValue overlay = false) (key : String) :
    Overrides base overlay merged (key :: path) ↔
      Overrides (base.get key) (overlay.get key) (merged.get key) path := by
  rw [Overrides, Overrides, declared_cons h]
  rfl

/-- A key that the file does not have. -/
theorem overrides_undefined : Overrides v .undefined v path := by
  intro name
  rw [declared_of_clean (clean_of_not_isObject rfl), follow_undefined]
  rfl

theorem keepsEnvironment_nil : KeepsEnvironment base overlay [] ↔
    (isComposeResetValue overlay = false → KeepsVariables base overlay) := by
  cases base <;> cases overlay <;> exact .rfl

theorem keepsEnvironment_of_not_sameKind (hkind : ¬SameKind base overlay) (key : String) :
    KeepsEnvironment base overlay (key :: path) ↔ (isComposeResetValue overlay = false →
      Covers (base.follow (key :: path)) (overlay.follow (key :: path))) := by
  cases base <;> cases overlay <;> first | exact .rfl | exact absurd trivial hkind

theorem keepsEnvironment_of_reset (h : isComposeResetValue overlay = true) :
    KeepsEnvironment base overlay path := by
  cases path with
  | nil => exact keepsEnvironment_nil.mpr fun hnot => by cases h.symm.trans hnot
  | cons key path =>
    cases overlay with
    | record => cases base <;> exact fun hnot => by cases h.symm.trans hnot
    | _ => cases h

/-- One file more, on the way to the environment. -/
theorem keepsEnvironment_iff {merged : List String}
    (hpath : merged ++ path = environmentPath service) (hbase : Clean base)
    (hconsumed : Consumed base overlay) : KeepsEnvironment base overlay path ↔
      Overrides base overlay (mergeComposeValues base overlay merged) path := by
  induction path generalizing merged base overlay with
  | nil =>
    cases hreset : isComposeResetValue overlay with
    | true =>
      rw [merge_reset hreset]
      exact iff_of_true (keepsEnvironment_of_reset hreset)
        (overrides_of_reset hreset ((consumed_reset hreset).mp hconsumed))
    | false =>
      rw [List.append_nil] at hpath
      rw [hpath, keepsEnvironment_nil, imp_iff_right hreset,
        keepsVariables_iff service hreset hconsumed, Overrides, declared, consume, hreset]
      rfl
  | cons key path ih =>
    cases hreset : isComposeResetValue overlay with
    | true =>
      rw [merge_reset hreset]
      exact iff_of_true (keepsEnvironment_of_reset hreset)
        (overrides_of_reset hreset ((consumed_reset hreset).mp hconsumed))
    | false =>
      by_cases hkind : SameKind base overlay
      · cases base <;> cases overlay <;> try exact hkind.elim
        · next base overlay =>
          have hlist (items : List Value) : (Value.list items).follow (key :: path) = .undefined :=
            follow_undefined
          rw [overrides_cons hreset, merge_lists]
          refine iff_of_true (fun _ name hname => ?_) ?_
          · rw [hlist] at hname
            exact nomatch hname
          · split <;> exact overrides_undefined
        · next baseKeys baseValue keys value =>
          rw [overrides_cons hreset, get_merge_records hreset]
          refine (imp_iff_right hreset).trans ?_
          by_cases hkey : key ∈ keys
          · have hget : (Value.record keys value).get key = value key := if_pos hkey
            rw [if_pos hkey, hget]
            refine (imp_iff_right hkey).trans (ih ?_ (hbase.get key) ?_)
            · rw [List.append_assoc, List.singleton_append, hpath]
            · exact ((consumed_records hreset).mp hconsumed).1 key hkey
          · have hget : (Value.record keys value).get key = .undefined := if_neg hkey
            rw [if_neg hkey, hget]
            exact iff_of_true (fun h => absurd h hkey) overrides_undefined
      · have hclean := (consumed_of_not_sameKind hreset hkind).mp hconsumed
        rw [merge_of_not_sameKind hreset hkind, overrides_of_clean hclean,
          keepsEnvironment_of_not_sameKind hkind, imp_iff_right hreset]

/-! ## The files -/

theorem lookup_parseServices (v : Value) (service : String) :
    ((parseServices v).lookup service).join =
      parseEnvironment ((v.get service).get "environment") := by
  cases v with
  | record keys value =>
    rw [parseServices, Value.get]
    by_cases hservice : service ∈ keys
    · rw [List.lookup_graph (fun name => parseEnvironment ((value name).get "environment")) hservice,
        if_pos hservice]
      rfl
    · rw [if_neg hservice, List.lookup_eq_none_iff.mpr]
      · rfl
      · intro entry hentry
        obtain ⟨name, hname, rfl⟩ := List.mem_map.mp hentry
        exact bne_iff_ne.mpr fun heq : service = name => hservice (heq ▸ hname)
  | _ => rfl

/-- The services are read off the merged files. -/
theorem environmentOf_eq (files : List Value) (service : String) :
    environmentOf files service =
      parseEnvironment ((mergeFiles files).follow (environmentPath service)) := by
  rw [environmentOf, parseComposeFiles]
  by_cases hfiles : files = []
  · rw [if_pos hfiles, hfiles]
    rfl
  · rw [if_neg hfiles]
    cases mergeFiles files with
    | undefined | null => rfl
    | _ => exact lookup_parseServices _ service

theorem mergeFiles_concat (files : List Value) (file : Value) :
    mergeFiles (files ++ [file]) =
      mergeComposeValues (mergeFiles files) (parseComposeDocument file) [] := by
  rw [mergeFiles, List.map_append, List.foldl_append]
  rfl

theorem fileVariables_concat (files : List Value) (file : Value) (service : String) :
    fileVariables (files ++ [file]) service =
      overrideVariables service (fileVariables files service) (parseComposeDocument file) := by
  rw [fileVariables, List.map_append, List.foldl_append]
  rfl

theorem overlaid_nil : Overlaid [] :=
  ⟨clean_record.mpr ⟨rfl, nofun⟩, fun _ => rfl⟩

theorem overlaid_concat_iff {files : List Value} {file : Value} (h : Overlaid files) :
    Overlaid (files ++ [file]) ↔ Consumed (mergeFiles files) (parseComposeDocument file) ∧
      ∀ service, KeepsEnvironment (mergeFiles files) (parseComposeDocument file)
        (environmentPath service) := by
  have hclean : Clean (mergeFiles (files ++ [file])) ↔
      Consumed (mergeFiles files) (parseComposeDocument file) := by
    rw [mergeFiles_concat, clean_merge_iff h.clean]
  have henvironment (hconsumed : Consumed (mergeFiles files) (parseComposeDocument file))
      (service : String) : assigned (environmentOf (files ++ [file]) service) =
        fileVariables (files ++ [file]) service ↔ KeepsEnvironment (mergeFiles files)
          (parseComposeDocument file) (environmentPath service) := by
    have hpath : [] ++ environmentPath service = environmentPath service := rfl
    rw [keepsEnvironment_iff hpath h.clean hconsumed, fileVariables_concat,
      ← h.environment service, environmentOf_eq, environmentOf_eq, mergeFiles_concat, funext_iff]
    rfl
  constructor
  · intro hoverlaid
    have hconsumed := hclean.mp hoverlaid.clean
    exact ⟨hconsumed, fun service =>
      (henvironment hconsumed service).mp (hoverlaid.environment service)⟩
  · intro ⟨hconsumed, hkeeps⟩
    exact ⟨hclean.mpr hconsumed, fun service => (henvironment hconsumed service).mpr (hkeeps service)⟩

/-- The files are without markers, and say what they say one after the other, at each stage of the
merge, just where the merge gets to the markers of each file and keeps the environments of the earlier
ones. -/
theorem overlaid_iff (files : List Value) :
    (∀ earlier, earlier <+: files → Overlaid earlier) ↔
      ∀ earlier file, earlier ++ [file] <+: files →
        Consumed (mergeFiles earlier) (parseComposeDocument file) ∧
          ∀ service, KeepsEnvironment (mergeFiles earlier) (parseComposeDocument file)
            (environmentPath service) := by
  constructor
  · intro h earlier file hprefix
    have hearlier := h earlier ((List.prefix_append earlier [file]).trans hprefix)
    exact (overlaid_concat_iff hearlier).mp (h _ hprefix)
  · intro h earlier
    induction earlier using List.reverseRecOn with
    | nil => exact fun _ => overlaid_nil
    | append_singleton earlier file ih =>
      intro hprefix
      have hearlier := ih ((List.prefix_append earlier [file]).trans hprefix)
      exact (overlaid_concat_iff hearlier).mpr (h earlier file hprefix)

/-- The tag of a service that no earlier file has stays a marker. -/
example : isComposeResetValue ((mergeFiles [.ofEntries [("services", .ofEntries [
    ("web", .ofEntries [("ports", composeResetSequence)])])]]).follow
      ["services", "web", "ports"]) = true := by
  decide

/-- The later file spells the environment as a map, and leaves out one variable. -/
theorem not_forall_overlaid : ¬ ∀ files, Overlaid files := by
  intro h
  have henvironment := (h [
    .ofEntries [("services", .ofEntries [("web", .ofEntries [
      ("environment", .list [.string "PORT=80", .string "MODE=dev"])])])],
    .ofEntries [("services", .ofEntries [("web", .ofEntries [
      ("environment", .ofEntries [("MODE", .string "prod")])])])]]).environment "web"
  exact absurd (congrFun henvironment "PORT") (by decide)

end

end OpenLander.Compose.Overlay
