import OpenLander.Theory.LineStream

/-! # Event streams

The text of server-sent events and what an `EventSource` makes of it. A connection may end anywhere in the
text: what has come of a message before its empty line is dropped, so the messages that were read are the
first ones that were written (`read_frames`). -/

namespace OpenLander.Theory.EventStream

abbrev Text := List Char

structure Message where
  event : Text
  data : Text
  lastEventId : Text
  deriving DecidableEq, Repr

/-- The buffers of a connection, the id that the source would come back with, and the messages that it
has dispatched. -/
structure Reader where
  data : Text := []
  event : Text := []
  idBuffer : Text := []
  lastEventId : Text
  messages : List Message := []
  deriving DecidableEq, Repr

namespace Reader

def field (r : Reader) (name value : Text) : Reader :=
  if name = "event".toList then { r with event := value }
  else if name = "data".toList then { r with data := r.data ++ value ++ ['\n'] }
  else if name = "id".toList then if '\x00' ∈ value then r else { r with idBuffer := value }
  else r

def dispatch (r : Reader) : Reader :=
  if r.data = [] then { r with event := [], lastEventId := r.idBuffer }
  else {
    idBuffer := r.idBuffer
    lastEventId := r.idBuffer
    messages := r.messages ++ [{
      event := if r.event = [] then "message".toList else r.event
      data := r.data.dropLast
      lastEventId := r.idBuffer }] }

/-- The value of a field, from its colon on. One space is left out. -/
def value : Text → Text
  | ':' :: ' ' :: text => text
  | ':' :: text => text
  | _ => []

def line (r : Reader) (text : Text) : Reader :=
  if text = [] then r.dispatch
  else if text.head? = some ':' then r
  else r.field (text.takeWhile (· ≠ ':')) (value (text.dropWhile (· ≠ ':')))

end Reader

/-- A line ends with a line feed, a carriage return or both. -/
def newlines : Text → Text
  | [] => []
  | '\r' :: '\n' :: text => '\n' :: newlines text
  | '\r' :: text => '\n' :: newlines text
  | c :: text => c :: newlines text

def dropBom : Text → Text
  | '\ufeff' :: text => text
  | text => text

/-- What a source has read that came with an id and got the text. -/
def read (lastEventId text : Text) : Reader :=
  (LineStream.cut (newlines (dropBom text))).1.foldl Reader.line { lastEventId }

/-! ## Writing -/

structure Frame where
  event : Text
  id : Option Text := none
  data : Text
  deriving DecidableEq, Repr

namespace Frame

def fields (f : Frame) : List Text :=
  ("event: ".toList ++ f.event) :: (f.id.map ("id: ".toList ++ ·)).toList ++ ["data: ".toList ++ f.data]

def lines (f : Frame) : List Text := f.fields ++ [[]]

def text (f : Frame) : Text := unlines ['\n'] f.lines

/-- The values are without line ends. -/
structure Valid (f : Frame) : Prop where
  named : f.event ≠ []
  fields : ∀ text ∈ f.fields, '\n' ∉ text ∧ '\r' ∉ text
  id : ∀ id ∈ f.id, '\x00' ∉ id

end Frame

/-- What the frames say to a source. -/
def messages (id : Text) : List Frame → List Message
  | [] => []
  | f :: fs => ⟨f.event, f.data, f.id.getD id⟩ :: messages (f.id.getD id) fs

/-- The id of a source after the messages. -/
def idAfter (id : Text) (ms : List Message) : Text := (ms.getLast?.map (·.lastEventId)).getD id

section
variable {r : Reader} {f : Frame} {fs : List Frame} {text name : Text} {ls : List Text}

theorem line_field (hname : ':' ∉ name) (hne : name ≠ []) (value : Text) :
    r.line (name ++ ':' :: ' ' :: value) = r.field name value := by
  have hhead : (name ++ ':' :: ' ' :: value).head? ≠ some ':' := by
    cases name with
    | nil => exact absurd rfl hne
    | cons c name =>
      rintro ⟨⟩
      exact hname (.head _)
  have hpos : ∀ c ∈ name, decide (c ≠ ':') = true := fun c hc =>
    decide_eq_true (ne_of_mem_of_not_mem hc hname)
  rw [Reader.line, if_neg (by simp), if_neg hhead, List.takeWhile_append_of_pos hpos,
    List.dropWhile_append_of_pos hpos]
  simp [Reader.value]

/-- Only an empty line is dispatched. -/
theorem line_of_ne (h : text ≠ []) (r : Reader) :
    (r.line text).messages = r.messages ∧ (r.line text).lastEventId = r.lastEventId := by
  rw [Reader.line, if_neg h]
  split
  · exact ⟨rfl, rfl⟩
  · rw [Reader.field]
    repeat' split
    all_goals exact ⟨rfl, rfl⟩

theorem foldl_of_ne (h : [] ∉ ls) (r : Reader) :
    (ls.foldl Reader.line r).messages = r.messages ∧
      (ls.foldl Reader.line r).lastEventId = r.lastEventId := by
  induction ls generalizing r with
  | nil => exact ⟨rfl, rfl⟩
  | cons text ls ih =>
    rw [List.mem_cons, not_or] at h
    obtain ⟨hmessages, hid⟩ := line_of_ne (Ne.symm h.1) r
    rw [List.foldl_cons, ← hmessages, ← hid]
    exact ih h.2 _

theorem nil_not_mem_fields (f : Frame) : [] ∉ f.fields := by
  cases hid : f.id <;> simp [Frame.fields, hid]

/-- A reader between two messages. -/
def between (id : Text) (lastEventId : Text) (ms : List Message) : Reader :=
  { idBuffer := id, lastEventId, messages := ms }

theorem foldl_lines (hf : f.Valid) (id lastEventId : Text) (ms : List Message) :
    f.lines.foldl Reader.line (between id lastEventId ms) =
      between (f.id.getD id) (f.id.getD id) (ms ++ [⟨f.event, f.data, f.id.getD id⟩]) := by
  have hevent := fun r : Reader => @line_field r "event".toList (by decide) (by decide) f.event
  have hdata := fun r : Reader => @line_field r "data".toList (by decide) (by decide) f.data
  have hend (r : Reader) (hdata : r.data = f.data ++ ['\n']) (hevent : r.event = f.event) :
      r.line [] = between r.idBuffer r.idBuffer (r.messages ++ [⟨f.event, f.data, r.idBuffer⟩]) := by
    simp [Reader.line, Reader.dispatch, hdata, hevent, hf.named, between]
  cases hid : f.id with
  | none =>
    have hlines : f.lines = ["event".toList ++ ':' :: ' ' :: f.event, "data".toList ++ ':' :: ' ' :: f.data,
        []] := by simp [Frame.lines, Frame.fields, hid]
    rw [hlines, List.foldl_cons, hevent, List.foldl_cons, hdata, List.foldl_cons, List.foldl_nil]
    exact hend _ rfl rfl
  | some id' =>
    have hlines : f.lines = ["event".toList ++ ':' :: ' ' :: f.event, "id".toList ++ ':' :: ' ' :: id',
        "data".toList ++ ':' :: ' ' :: f.data, []] := by simp [Frame.lines, Frame.fields, hid]
    have hfield (r : Reader) : r.field "id".toList id' = { r with idBuffer := id' } :=
      if_neg (hf.id id' hid)
    rw [hlines, List.foldl_cons, hevent, List.foldl_cons, line_field (by decide) (by decide), hfield,
      List.foldl_cons, hdata, List.foldl_cons, List.foldl_nil]
    exact hend _ rfl rfl

theorem idAfter_cons (id : Text) (m : Message) (ms : List Message) :
    idAfter id (m :: ms) = idAfter m.lastEventId ms := by
  cases h : ms.getLast? with
  | none =>
    obtain rfl := List.getLast?_eq_none_iff.mp h
    rfl
  | some last => simp [idAfter, List.getLast?_cons, h]

theorem messages_append (id : Text) (fs gs : List Frame) :
    messages id (fs ++ gs) = messages id fs ++ messages (idAfter id (messages id fs)) gs := by
  induction fs generalizing id with
  | nil => rfl
  | cons f fs ih =>
    rw [List.cons_append, messages, ih, messages, idAfter_cons]
    rfl

theorem messages_take (id : Text) (fs : List Frame) (k : Nat) :
    (messages id fs).take k = messages id (fs.take k) := by
  induction fs generalizing id k with
  | nil => rw [messages, List.take_nil, List.take_nil, messages]
  | cons f fs ih =>
    cases k with
    | zero => rfl
    | succ k => rw [messages, List.take_succ_cons, List.take_succ_cons, messages, ih]

theorem length_messages (id : Text) (fs : List Frame) : (messages id fs).length = fs.length := by
  induction fs generalizing id with
  | nil => rfl
  | cons f fs ih => rw [messages, List.length_cons, ih, List.length_cons]

/-- The lines that have come are read as the first messages. -/
theorem foldl_prefix (hfs : ∀ f ∈ fs, f.Valid) (h : ls <+: fs.flatMap Frame.lines)
    (id lastEventId : Text) (ms : List Message) :
    ∃ k, (ls.foldl Reader.line (between id lastEventId ms)).messages = ms ++ (messages id fs).take k ∧
      (ls.foldl Reader.line (between id lastEventId ms)).lastEventId =
        idAfter lastEventId ((messages id fs).take k) ∧
      (ls = fs.flatMap Frame.lines → (messages id fs).take k = messages id fs) := by
  induction fs generalizing ls id lastEventId ms with
  | nil =>
    obtain rfl := List.prefix_nil.mp h
    exact ⟨0, (List.append_nil ms).symm, rfl, fun _ => rfl⟩
  | cons f fs ih =>
    obtain ⟨hf, hfs⟩ := List.forall_mem_cons.mp hfs
    rw [List.flatMap_cons] at h ⊢
    by_cases hwhole : f.lines <+: ls
    · obtain ⟨ls, rfl⟩ := hwhole
      obtain ⟨k, hmessages, hid, hall⟩ := ih hfs ((List.prefix_append_right_inj _).mp h) (f.id.getD id)
        (f.id.getD id) (ms ++ [⟨f.event, f.data, f.id.getD id⟩])
      rw [List.foldl_append, foldl_lines hf]
      refine ⟨k + 1, ?_, ?_, fun heq => ?_⟩
      · rw [hmessages, List.append_assoc]
        rfl
      · rw [hid, messages, List.take_succ_cons, idAfter_cons]
      · rw [messages, List.take_succ_cons, hall (List.append_cancel_left heq)]
    · have hpart : ls <+: f.fields :=
        (List.prefix_concat_iff.mp ((List.prefix_or_prefix_of_prefix h (List.prefix_append ..)).resolve_right
          hwhole)).resolve_left fun heq => hwhole (heq ▸ List.prefix_rfl)
      obtain ⟨hmessages, hid⟩ := foldl_of_ne (fun hmem => nil_not_mem_fields f (hpart.subset hmem))
        (between id lastEventId ms)
      exact ⟨0, hmessages.trans (List.append_nil ms).symm, hid,
        fun heq => absurd (heq ▸ List.prefix_append ..) hwhole⟩

/-! ## Texts -/

theorem newlines_of_not_mem (h : '\r' ∉ text) : newlines text = text := by
  induction text with
  | nil => rfl
  | cons c text ih =>
    rw [List.mem_cons, not_or] at h
    rw [newlines, ih h.2]
    · rintro _ rfl
      exact absurd rfl h.1
    · rintro rfl
      exact absurd rfl h.1

theorem flatMap_text (fs : List Frame) : fs.flatMap Frame.text = joined (fs.flatMap Frame.lines) [] := by
  rw [joined, List.append_nil, unlines, List.flatMap_assoc]
  rfl

theorem plain_lines (hfs : ∀ f ∈ fs, f.Valid) : Plain (fs.flatMap Frame.lines) := by
  intro p hp
  obtain ⟨f, hf, hp⟩ := List.mem_flatMap.mp hp
  rcases List.mem_append.mp hp with hp | hp
  · exact ((hfs f hf).fields p hp).1
  · rw [List.mem_singleton.mp hp]
    exact List.not_mem_nil

theorem not_mem_text (hfs : ∀ f ∈ fs, f.Valid) : '\r' ∉ fs.flatMap Frame.text := by
  intro hmem
  obtain ⟨f, hf, hmem⟩ := List.mem_flatMap.mp hmem
  obtain ⟨p, hp, hmem⟩ := List.mem_flatMap.mp hmem
  rcases List.mem_append.mp hp with hp | hp
  · have hne := ((hfs f hf).fields p hp).2
    simp [hne] at hmem
  · rw [List.mem_singleton.mp hp] at hmem
    simp at hmem

theorem dropBom_of_prefix (h : text <+: fs.flatMap Frame.text) : dropBom text = text := by
  cases text with
  | nil => rfl
  | cons c text =>
    cases fs with
    | nil => simp at h
    | cons f fs =>
      have hhead : (List.flatMap Frame.text (f :: fs)).head? = some 'e' := rfl
      obtain ⟨rest, hrest⟩ := h
      rw [← hrest] at hhead
      obtain rfl : c = 'e' := Option.some.inj hhead
      rfl

end

/-- From any part of the frames that has come, the source reads the first messages, and it would come back
with the id of the last one. From all of them it reads all. -/
theorem read_frames {fs : List Frame} (hfs : ∀ f ∈ fs, f.Valid) {text : Text}
    (h : text <+: fs.flatMap Frame.text) (id : Text) :
    ∃ k, (read id text).messages = (messages [] fs).take k ∧
      (read id text).lastEventId = idAfter id ((messages [] fs).take k) ∧
      (text = fs.flatMap Frame.text → (messages [] fs).take k = messages [] fs) := by
  have hcut : LineStream.cut (fs.flatMap Frame.text) = (fs.flatMap Frame.lines, []) := by
    rw [flatMap_text, LineStream.cut_joined (plain_lines hfs) List.not_mem_nil]
  have hread : read id text = (LineStream.cut text).1.foldl Reader.line (between [] id []) := by
    rw [read, dropBom_of_prefix h, newlines_of_not_mem fun hr => not_mem_text hfs (h.subset hr)]
    rfl
  have hlines : (LineStream.cut text).1 <+: fs.flatMap Frame.lines := by
    obtain ⟨rest, hrest⟩ := h
    rw [← hrest, LineStream.cut_append] at hcut
    exact ⟨_, congrArg Prod.fst hcut⟩
  obtain ⟨k, hmessages, hid, hall⟩ := foldl_prefix hfs hlines [] id []
  rw [hread]
  refine ⟨k, hmessages, hid, fun heq => hall ?_⟩
  rw [heq, hcut]

end OpenLander.Theory.EventStream
