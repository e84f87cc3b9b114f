import Mathlib.Data.List.Basic

/-! # Lines of a text

A text splits at `\n` or `\r\n`, as `split(/\r?\n/)` does. `joined ps last` is the text of the parts `ps`,
each with its newline, and what is behind the last one; every text is one. -/

namespace OpenLander.Theory

/-- A line without the carriage return that belongs to its ending. -/
def stripCr (line : List Char) : List Char :=
  if line.getLast? = some '\r' then line.dropLast else line

/-- `split(/\r?\n/)`. -/
def splitLines (text : List Char) : List (List Char) :=
  let parts := text.splitOn '\n'
  parts.dropLast.map stripCr ++ parts.getLast?.toList

def crlf : List Char := ['\r', '\n']

/-- `includes('\r\n')`. -/
def includesCrlf : List Char → Bool
  | [] => false
  | c :: text => (c = '\r' && text.head? = some '\n') || includesCrlf text

/-- Each line with the ending behind it. -/
def unlines (ending : List Char) (lines : List (List Char)) : List Char :=
  lines.flatMap (· ++ ending)

def joined (ps : List (List Char)) (last : List Char) : List Char := unlines ['\n'] ps ++ last

theorem joined_cons (p : List Char) (ps : List (List Char)) (last : List Char) :
    joined (p :: ps) last = p ++ '\n' :: joined ps last := by
  rw [joined, joined, unlines, unlines, List.flatMap_cons, List.append_assoc, List.append_assoc]
  rfl

/-- The parts are without newlines. -/
def Plain (ps : List (List Char)) : Prop := ∀ p ∈ ps, '\n' ∉ p

theorem exists_joined (text : List Char) :
    ∃ ps last, Plain ps ∧ '\n' ∉ last ∧ text = joined ps last := by
  induction text with
  | nil => exact ⟨[], [], nofun, nofun, rfl⟩
  | cons c text ih =>
    obtain ⟨ps, last, hps, hlast, rfl⟩ := ih
    by_cases hc : c = '\n'
    · refine ⟨[] :: ps, last, List.forall_mem_cons.mpr ⟨nofun, hps⟩, hlast, ?_⟩
      rw [joined_cons, hc]
      rfl
    · have hcons {p : List Char} (hp : '\n' ∉ p) : '\n' ∉ c :: p := by
        rw [List.mem_cons, not_or]
        exact ⟨Ne.symm hc, hp⟩
      cases ps with
      | nil => exact ⟨[], c :: last, nofun, hcons hlast, rfl⟩
      | cons p ps =>
        obtain ⟨hp, hps⟩ := List.forall_mem_cons.mp hps
        refine ⟨(c :: p) :: ps, last, List.forall_mem_cons.mpr ⟨hcons hp, hps⟩, hlast, ?_⟩
        rw [joined_cons, joined_cons]
        rfl

section
variable {ps : List (List Char)} {last : List Char}

theorem splitOn_joined (hps : Plain ps) (hlast : '\n' ∉ last) :
    (joined ps last).splitOn '\n' = ps ++ [last] := by
  induction ps with
  | nil => exact List.splitOn_eq_singleton hlast
  | cons p ps ih =>
    obtain ⟨hp, hps⟩ := List.forall_mem_cons.mp hps
    rw [joined_cons, List.splitOn_append_cons_self_of_not_mem hp, ih hps]
    rfl

theorem splitLines_joined (hps : Plain ps) (hlast : '\n' ∉ last) :
    splitLines (joined ps last) = ps.map stripCr ++ [last] := by
  rw [splitLines, splitOn_joined hps hlast]
  simp

theorem joined_eq_nil : joined ps last = [] ↔ ps = [] ∧ last = [] := by
  cases ps with
  | nil => exact (and_iff_right rfl).symm
  | cons p ps =>
    rw [joined_cons]
    simp

/-- The text ends with a newline. -/
theorem getLast?_joined (hlast : '\n' ∉ last) :
    (joined ps last).getLast? = some '\n' ↔ ps ≠ [] ∧ last = [] := by
  cases hl : last.getLast? with
  | some c =>
    have hne : last ≠ [] := by
      rintro rfl
      exact nomatch hl
    rw [joined, List.getLast?_append, hl, Option.some_or]
    refine iff_of_false (fun hc => hlast ?_) fun h => hne h.2
    exact Option.some.inj hc ▸ List.mem_of_getLast? hl
  | none =>
    obtain rfl := List.getLast?_eq_none_iff.mp hl
    rw [joined, List.append_nil, and_iff_left rfl]
    rcases List.eq_nil_or_concat ps with rfl | ⟨init, p, rfl⟩
    · exact iff_of_false nofun fun h => h rfl
    · refine iff_of_true ?_ (by simp)
      rw [unlines, List.concat_eq_append, List.flatMap_append, List.flatMap_singleton, ← List.append_assoc,
        List.getLast?_concat]

/-! ## Carriage returns -/

theorem includesCrlf_line {p rest : List Char} (hp : '\n' ∉ p) :
    includesCrlf (p ++ '\n' :: rest) =
      (decide (p.getLast? = some '\r') || includesCrlf rest) := by
  induction p with
  | nil => rfl
  | cons c p ih =>
    rw [List.mem_cons, not_or] at hp
    rw [List.cons_append, includesCrlf, ih hp.2]
    cases p with
    | nil => simp
    | cons d p =>
      have hd : d ≠ '\n' := fun hd => hp.2 (hd ▸ .head _)
      simp [hd]

theorem includesCrlf_last (hlast : '\n' ∉ last) : includesCrlf last = false := by
  induction last with
  | nil => rfl
  | cons c last ih =>
    rw [List.mem_cons, not_or] at hlast
    have hhead : last.head? ≠ some '\n' := fun h => hlast.2 (List.mem_of_head? h)
    rw [includesCrlf, ih hlast.2, Bool.or_false, decide_eq_false hhead, Bool.and_false]

theorem includesCrlf_joined (hps : Plain ps) (hlast : '\n' ∉ last) :
    includesCrlf (joined ps last) = ps.any fun p => p.getLast? = some '\r' := by
  induction ps with
  | nil => exact includesCrlf_last hlast
  | cons p ps ih =>
    obtain ⟨hp, hps⟩ := List.forall_mem_cons.mp hps
    rw [joined_cons, includesCrlf_line hp, ih hps]
    rfl

theorem stripCr_of_ne {line : List Char} (h : line.getLast? ≠ some '\r') : stripCr line = line :=
  if_neg h

theorem stripCr_concat (line : List Char) : stripCr (line ++ ['\r']) = line := by
  rw [stripCr, List.getLast?_concat, if_pos rfl, List.dropLast_concat]

theorem unlines_crlf (ls : List (List Char)) : unlines crlf ls = joined (ls.map (· ++ ['\r'])) [] := by
  rw [joined, List.append_nil, unlines, unlines, List.flatMap_map]
  refine List.flatMap_congr fun l _ => ?_
  rw [List.append_assoc]
  rfl

/-! ## Joining lines again -/

theorem unlines_concat (ending : List Char) (ls : List (List Char)) (l : List Char) :
    unlines ending (ls ++ [l]) = unlines ending ls ++ (l ++ ending) := by
  rw [unlines, List.flatMap_append, List.flatMap_singleton]
  rfl

/-- The last line is empty. -/
theorem intercalate_concat_nil (ending : List Char) (ls : List (List Char)) :
    ending.intercalate (ls ++ [[]]) = unlines ending ls := by
  induction ls with
  | nil => exact List.intercalate_singleton
  | cons l ls ih =>
    rw [List.cons_append, List.intercalate_cons_of_ne_nil (by simp), ih, List.append_assoc]
    exact (List.append_assoc ..).symm

theorem intercalate_append (ending : List Char) {ls : List (List Char)} (h : ls ≠ []) :
    ending.intercalate ls ++ ending = unlines ending ls := by
  induction ls with
  | nil => exact absurd rfl h
  | cons l ls ih =>
    cases ls with
    | nil =>
      rw [List.intercalate_singleton]
      exact (List.append_nil _).symm
    | cons l' ls =>
      rw [List.intercalate_cons_of_ne_nil (List.cons_ne_nil _ _), List.append_assoc,
        ih (List.cons_ne_nil _ _)]
      rfl

/-! ## The lines of a text -/

/-- What is behind the last newline is a line if it is not empty. -/
def linesOf (text : List Char) : List (List Char) :=
  if (splitLines text).getLast? = some [] then (splitLines text).dropLast else splitLines text

theorem linesOf_joined (hps : Plain ps) (hlast : '\n' ∉ last) :
    linesOf (joined ps last) = ps.map stripCr ++ if last = [] then [] else [last] := by
  rw [linesOf, splitLines_joined hps hlast, List.getLast?_concat, List.dropLast_concat]
  by_cases h : last = []
  · rw [if_pos (congrArg some h), if_pos h, List.append_nil]
  · rw [if_neg (mt Option.some.inj h), if_neg h]

end

end OpenLander.Theory
