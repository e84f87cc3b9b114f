import OpenLander.Theory.Lines

/-! # Lines of a stream

A reader splits what it has at the newlines and keeps what is behind the last one until more arrives. So
it may read the lines of a text from its parts (`cut_append`). -/

namespace OpenLander.Theory.LineStream

/-- The lines that end within the text, and what is behind them. -/
def cut (text : List Char) : List (List Char) × List Char :=
  ((text.splitOn '\n').dropLast, (text.splitOn '\n').getLast?.getD [])

section
variable {ps : List (List Char)} {last text : List Char}

theorem cut_joined (hps : Plain ps) (hlast : '\n' ∉ last) : cut (joined ps last) = (ps, last) := by
  rw [cut, splitOn_joined hps hlast, List.dropLast_concat, List.getLast?_concat]
  rfl

/-- No newline stays in the buffer. -/
theorem not_mem_cut (text : List Char) : '\n' ∉ (cut text).2 := by
  obtain ⟨ps, last, hps, hlast, rfl⟩ := exists_joined text
  rwa [cut_joined hps hlast]

theorem cut_of_not_mem (h : '\n' ∉ text) : cut text = ([], text) := cut_joined (List.forall_mem_nil _) h

theorem joined_append (ps qs : List (List Char)) (last : List Char) :
    joined ps [] ++ joined qs last = joined (ps ++ qs) last := by
  rw [joined, joined, joined, unlines, unlines, unlines, List.flatMap_append, List.append_nil,
    List.append_assoc]

/-- The lines of a text may be read from its parts. -/
theorem cut_append (s t : List Char) : cut (s ++ t) =
    ((cut s).1 ++ (cut ((cut s).2 ++ t)).1, (cut ((cut s).2 ++ t)).2) := by
  obtain ⟨ps, last, hps, hlast, rfl⟩ := exists_joined s
  obtain ⟨qs, last', hqs, hlast', hrest⟩ := exists_joined (last ++ t)
  have hall : Plain (ps ++ qs) := List.forall_mem_append.mpr ⟨hps, hqs⟩
  have htext : joined ps last ++ t = joined (ps ++ qs) last' := by
    rw [← joined_append, ← hrest, joined, joined, List.append_nil, List.append_assoc]
  rw [htext, cut_joined hall hlast', cut_joined hps hlast, hrest, cut_joined hqs hlast']

end

end OpenLander.Theory.LineStream
