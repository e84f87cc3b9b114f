import Mathlib.Data.Finset.Image
import Mathlib.Data.Finset.Lattice.Basic
import Mathlib.Data.List.TakeWhile

/-! # File trees

A finite tree of files and directories with names, given by its paths: the names from the top down. An
entry below the top is in a directory. Trees are told apart by their entries alone.

`FileTree.remove` takes entries away as `rm -rf` does, which goes on where an entry cannot be removed,
and `FileTree.recreate` puts back what a `FileTree.Traversal` lists, as `tar` does: parents first, onto
what is there. -/

namespace OpenLander.Theory

inductive FileEntry
  | file (content : String)
  | dir
  deriving DecidableEq, Repr

def FileEntry.isDir : FileEntry → Bool
  | file _ => false
  | dir => true

/-- A tree whose entries below the top are in directories. -/
structure FileTree where
  paths : Finset (List String)
  entry : List String → Option FileEntry
  mem_paths : ∀ p, p ∈ paths ↔ (entry p).isSome
  entry_nil : entry [] = none
  parent : ∀ p name, p ≠ [] → (entry (p ++ [name])).isSome → entry p = some .dir

namespace FileTree

variable {s t start source : FileTree} {p q : List String}

@[ext] theorem ext (h : ∀ p, s.entry p = t.entry p) : s = t := by
  have hentry : s.entry = t.entry := funext h
  have hpaths : s.paths = t.paths := by
    ext p
    rw [s.mem_paths, t.mem_paths, hentry]
  cases s
  cases t
  cases hentry
  cases hpaths
  rfl

theorem not_mem_paths : p ∉ t.paths ↔ t.entry p = none := by
  rw [t.mem_paths, Option.not_isSome_iff_eq_none]

/-- Without any entry. -/
def empty : FileTree where
  paths := ∅
  entry _ := none
  mem_paths _ := by simp
  entry_nil := rfl
  parent _ _ _ h := nomatch h

/-! ## Removing -/

/-- What stays of the tree, a directory with all that stays in it. -/
def restrict (t : FileTree) (keep : List String → Prop) [DecidablePred keep]
    (hkeep : ∀ p name, p ≠ [] → keep (p ++ [name]) → keep p) : FileTree where
  paths := t.paths.filter keep
  entry p := if keep p then t.entry p else none
  mem_paths p := by
    rw [Finset.mem_filter, t.mem_paths]
    split
    next h => exact and_iff_left h
    next h => exact iff_of_false (fun hp => h hp.2) (by simp)
  entry_nil := by rw [t.entry_nil, ite_self]
  parent p name hp hsome := by
    split at hsome
    next h => rw [if_pos (hkeep p name hp h), t.parent p name hp hsome]
    next => exact nomatch hsome

/-- The top-level entry that the path is at or below is selected. -/
def Under (selected : String → Bool) (p : List String) : Bool := p.head?.any selected

theorem under_append (hp : p ≠ []) : Under selected (p ++ q) = Under selected p := by
  rw [Under, Under, List.head?_append_of_ne_nil _ hp]

/-- The entry stays: it is not under a selected one, or something at or below it cannot be removed. -/
def Stays (t : FileTree) (selected : String → Bool) (gone : Finset (List String))
    (p : List String) : Prop :=
  Under selected p = false ∨ ∃ q ∈ t.paths, p <+: q ∧ q ∉ gone

instance : DecidablePred (t.Stays selected gone) := fun _ =>
  inferInstanceAs (Decidable (_ ∨ _))

theorem stays_parent (selected : String → Bool) (gone : Finset (List String)) (p : List String)
    (name : String) (hp : p ≠ []) (h : t.Stays selected gone (p ++ [name])) :
    t.Stays selected gone p := by
  obtain hnot | ⟨q, hq, hprefix, hgone⟩ := h
  · exact .inl (under_append hp ▸ hnot)
  · exact .inr ⟨q, hq, (List.prefix_append p [name]).trans hprefix, hgone⟩

/-- Remove the selected top-level entries with all below them, as far as they are in `gone`. -/
def remove (t : FileTree) (selected : String → Bool) (gone : Finset (List String)) : FileTree :=
  t.restrict (t.Stays selected gone) (stays_parent selected gone)

theorem remove_entry : (t.remove selected gone).entry p =
    if t.Stays selected gone p then t.entry p else none := rfl

/-- With nothing in the way all that is selected goes. -/
theorem remove_entry_of_subset (h : t.paths ⊆ gone) : (t.remove selected gone).entry p =
    if Under selected p then none else t.entry p := by
  have hstays : t.Stays selected gone p ↔ Under selected p = false := by
    refine or_iff_left fun ⟨q, hq, _, hgone⟩ => hgone (h hq)
  rw [remove_entry, if_congr hstays rfl rfl]
  cases Under selected p with
  | true => rfl
  | false => rfl

theorem remove_eq_self_iff :
    t.remove selected gone = t ↔ ∀ p ∈ t.paths, t.Stays selected gone p := by
  constructor
  · intro heq p hp
    by_contra hnot
    have hentry : (t.remove selected gone).entry p = none := if_neg hnot
    rw [heq] at hentry
    exact not_mem_paths.mpr hentry hp
  · intro hstays
    ext1 p
    rw [remove_entry]
    split
    next => rfl
    next hnot => exact (not_mem_paths.mp fun hp => hnot (hstays p hp)).symm

/-! ## Creating -/

/-- The entry can be created: its directory is there, and nothing of the other kind is in its place. -/
def Admits (t : FileTree) (p : List String) (e : FileEntry) : Prop :=
  p ≠ [] ∧ (p.dropLast ≠ [] → t.entry p.dropLast = some .dir) ∧
    (t.entry p).all (·.isDir = e.isDir) = true

instance : Decidable (t.Admits p e) := inferInstanceAs (Decidable (_ ∧ _ ∧ _))

/-- The tree with the entry created, or written over. -/
def put (t : FileTree) (p : List String) (e : FileEntry) (h : t.Admits p e) : FileTree where
  paths := insert p t.paths
  entry := Function.update t.entry p (some e)
  mem_paths q := by
    rw [Finset.mem_insert, Function.update_apply, t.mem_paths]
    split
    next hq => simp [hq]
    next hq => exact or_iff_right hq
  entry_nil := by rw [Function.update_of_ne h.1.symm, t.entry_nil]
  parent q name hq hsome := by
    have hdir : t.entry q = some .dir := by
      rw [Function.update_apply] at hsome
      split at hsome
      next heq =>
        have hparent := h.2.1
        rw [← heq, List.dropLast_concat] at hparent
        exact hparent hq
      next => exact t.parent q name hq hsome
    rw [Function.update_apply]
    split
    next heq =>
      -- What is in the place is a directory, so the entry is one.
      have hkind := h.2.2
      rw [← heq, hdir, Option.all_some, decide_eq_true_eq] at hkind
      cases e with
      | file _ => exact nomatch hkind
      | dir => rfl
    next => exact hdir

@[simp] theorem put_entry (h : t.Admits p e) :
    (t.put p e h).entry q = if q = p then some e else t.entry q := Function.update_apply ..

def create (t : FileTree) (p : List String) (e : FileEntry) : Option FileTree :=
  if h : t.Admits p e then some (t.put p e h) else none

/-! ## Recording and re-creating -/

/-- An order of the entries of a tree in which every directory comes before what is in it. -/
structure Traversal (t : FileTree) where
  order : List (List String)
  nodup : order.Nodup
  mem_order : ∀ p, p ∈ order ↔ p ∈ t.paths
  parent_mem : ∀ before p after, order = before ++ p :: after → p.dropLast ≠ [] →
    p.dropLast ∈ before

/-- The tree with one entry. -/
def single (name : String) (e : FileEntry) : FileTree :=
  empty.put [name] e ⟨List.cons_ne_nil name [], fun h => absurd rfl h, rfl⟩

@[simp] theorem single_paths : (single name e).paths = {[name]} := rfl

@[simp] theorem single_entry : (single name e).entry p = if p = [name] then some e else none :=
  put_entry _

def singleTraversal (name : String) (e : FileEntry) : (single name e).Traversal where
  order := [[name]]
  nodup := List.nodup_singleton _
  mem_order p := by rw [List.mem_singleton, single_paths, Finset.mem_singleton]
  parent_mem before p after h hdrop := by
    cases before with
    | nil => exact absurd (by rw [← (List.cons.inj h).1]; rfl) hdrop
    | cons _ _ => exact nomatch (List.append_eq_nil_iff.mp (List.cons.inj h).2.symm).2

/-- Create the entries of the source along the paths, up to the first that cannot be created. -/
def recreate (t source : FileTree) : List (List String) → FileTree × Bool
  | [] => (t, true)
  | p :: ps =>
    match (source.entry p).bind (t.create p) with
    | some t => t.recreate source ps
    | none => (t, false)

/-- There is nothing of the other kind in the place of the source's entry. -/
def Compatible (t source : FileTree) (p : List String) : Bool :=
  (t.entry p).all fun e => (source.entry p).all fun e' => e.isDir = e'.isDir

theorem Traversal.admits (T : source.Traversal) (horder : T.order = done ++ p :: rest)
    (he : source.entry p = some e) (ht : ∀ q, t.entry q = if q ∈ done then source.entry q
      else start.entry q) : t.Admits p e ↔ start.Compatible source p = true := by
  have hnodup := T.nodup
  rw [horder] at hnodup
  have hnot : p ∉ done := fun hp =>
    List.disjoint_of_nodup_append hnodup hp List.mem_cons_self
  have hp : p ≠ [] := fun hnil => by
    rw [hnil, source.entry_nil] at he
    exact nomatch he
  have hparent : p.dropLast ≠ [] → t.entry p.dropLast = some .dir := by
    intro hdrop
    have hmem := T.parent_mem done p rest horder hdrop
    rw [ht, if_pos hmem]
    refine source.parent p.dropLast (p.getLast hp) hdrop ?_
    rw [List.dropLast_concat_getLast, he]
    rfl
  rw [Admits, ht p, if_neg hnot, Compatible, he]
  simp only [Option.all_some]
  exact ⟨fun h => h.2.2, fun h => ⟨hp, hparent, h⟩⟩

/-- What re-creating a part of a traversal makes of a tree. -/
theorem Traversal.recreate_entry (T : source.Traversal) (ps : List (List String))
    (horder : T.order = done ++ ps ++ rest)
    (ht : ∀ q, t.entry q = if q ∈ done then source.entry q else start.entry q) :
    ((t.recreate source ps).2 = true ↔ ∀ p ∈ ps, start.Compatible source p = true) ∧
      ∀ q, (t.recreate source ps).1.entry q =
        if q ∈ done ++ ps.takeWhile (start.Compatible source) then source.entry q
        else start.entry q := by
  induction ps generalizing t done with
  | nil =>
    refine ⟨iff_of_true rfl fun _ hp => (nomatch hp), fun q => ?_⟩
    rw [List.takeWhile_nil, List.append_nil]
    exact ht q
  | cons p ps ih =>
    rw [List.append_assoc, List.cons_append] at horder
    obtain ⟨e, he⟩ : ∃ e, source.entry p = some e := by
      have hp : p ∈ T.order := horder ▸ List.mem_append_right _ List.mem_cons_self
      exact Option.isSome_iff_exists.mp ((source.mem_paths p).mp ((T.mem_order p).mp hp))
    have hadmits := T.admits horder he ht
    rw [recreate, he, Option.bind_some, create]
    by_cases hcompatible : start.Compatible source p = true
    · have hput := hadmits.mpr hcompatible
      rw [dif_pos hput, List.takeWhile_cons_of_pos hcompatible]
      dsimp only
      have hafter : ∀ q, (t.put p e hput).entry q =
          if q ∈ done ++ [p] then source.entry q else start.entry q := by
        intro q
        rw [put_entry, ht q]
        by_cases hq : q = p
        · rw [if_pos hq, if_pos (List.mem_append_right _ (List.mem_singleton.mpr hq)), hq, he]
        · simp [hq]
      obtain ⟨hall, hentry⟩ := @ih _ (done ++ [p]) (by rw [horder]; simp) hafter
      refine ⟨hall.trans ?_, fun q => ?_⟩
      · rw [List.forall_mem_cons]
        exact (and_iff_right hcompatible).symm
      · rw [hentry q, List.append_assoc]
        rfl
    · rw [dif_neg (mt hadmits.mp hcompatible), List.takeWhile_cons_of_neg hcompatible]
      refine ⟨iff_of_false nofun fun h => hcompatible (h p List.mem_cons_self), fun q => ?_⟩
      rw [List.append_nil]
      exact ht q

end FileTree

end OpenLander.Theory
