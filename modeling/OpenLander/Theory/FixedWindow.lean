import Mathlib.Data.List.Induction

/-! # Fixed windows

A limiter opens a window with the first request that comes in none, and lets `limit` requests of each
window pass, the first one in any case. Requests come in the order of time.

Two windows meet an interval as long as one of them at most (`countP_passed_le`), and what does not pass
is behind `limit` others of its window (`lt_countP_of_not_passes`). -/

namespace OpenLander.Theory.FixedWindow

structure Window where
  count : Nat
  resetAt : Nat

section
variable (width limit : Nat)

/-- The window that the request is in. -/
def visit (w : Option Window) (now : Nat) : Window :=
  match w with
  | none => ⟨1, now + width⟩
  | some w => if w.resetAt ≤ now then ⟨1, now + width⟩ else ⟨w.count + 1, w.resetAt⟩

/-- The request opens a window, or it is one of the first `limit` requests of the open one. -/
def passes (w : Option Window) (now : Nat) : Bool :=
  match w with
  | none => true
  | some w => w.resetAt ≤ now || w.count + 1 ≤ limit

def passed (w : Option Window) : List Nat → List Nat
  | [] => []
  | now :: times =>
    if passes limit w now then now :: passed (some (visit width w now)) times
    else passed (some (visit width w now)) times

def after (w : Option Window) (times : List Nat) : Option Window :=
  times.foldl (fun w now => some (visit width w now)) w

end

section
variable {width limit start now : Nat} {w : Option Window} {times : List Nat}

theorem mem_passed {t : Nat} (h : t ∈ passed width limit w times) : t ∈ times := by
  induction times generalizing w with
  | nil => exact h
  | cons now times ih =>
    rw [passed] at h
    split at h
    · rcases List.mem_cons.mp h with rfl | h
      · exact .head _
      · exact .tail _ (ih h)
    · exact .tail _ (ih h)

/-- How many requests may still pass from `start` on, before `start + width`. A window that is open there
has what it has left, and one more may come if it ends before. -/
def allowance (width limit start : Nat) : Option Window → Nat
  | none => 2 * max 1 limit
  | some w =>
    if w.resetAt ≤ start then 2 * max 1 limit
    else if w.resetAt < start + width then max 1 limit - w.count + max 1 limit
    else max 1 limit - w.count

theorem le_allowance (w : Option Window) (h : ∀ w' ∈ w, w'.resetAt < start + width) :
    max 1 limit ≤ allowance width limit start w := by
  cases w with
  | none => rw [allowance]; omega
  | some w =>
    have hlt := h w rfl
    rw [allowance, if_pos hlt]
    split <;> omega

/-- The window that opens at a request. -/
theorem allowance_opened (h : now < start + width) :
    (if start ≤ now then 1 else 0) + allowance width limit start (some ⟨1, now + width⟩) ≤
      if start ≤ now then max 1 limit else 2 * max 1 limit := by
  by_cases hs : start ≤ now
  · have hlong : ¬now + width ≤ start := by omega
    have hend : ¬now + width < start + width := by omega
    rw [allowance, if_pos hs, if_pos hs, if_neg hlong, if_neg hend]
    have hpos : 1 ≤ max 1 limit := Nat.le_max_left ..
    dsimp only
    omega
  · rw [allowance, if_neg hs, if_neg hs]
    have hend : now + width < start + width := by omega
    rw [if_pos hend]
    dsimp only
    split <;> omega

/-- A request that counts takes one off the allowance. -/
theorem allowance_visit (w : Option Window) (h : now < start + width) :
    (if start ≤ now ∧ passes limit w now = true then 1 else 0) +
      allowance width limit start (some (visit width w now)) ≤ allowance width limit start w := by
  have hopened := @allowance_opened width limit start now h
  cases w with
  | none =>
    simp only [visit, passes, and_true]
    refine Nat.le_trans hopened ?_
    rw [allowance]
    split <;> omega
  | some w =>
    by_cases hreset : w.resetAt ≤ now
    · simp only [visit, passes, hreset, if_true, decide_true, Bool.true_or, and_true]
      refine Nat.le_trans hopened ?_
      by_cases hs : start ≤ now
      · rw [if_pos hs]
        exact le_allowance (some w) (by rintro _ ⟨⟩; omega)
      · have hearly : allowance width limit start (some w) = 2 * max 1 limit := if_pos (by omega)
        rw [if_neg hs]
        exact Nat.le_of_eq hearly.symm
    · simp only [visit, passes, hreset, if_false, decide_false, Bool.false_or, decide_eq_true_eq]
      have hlimit : limit ≤ max 1 limit := Nat.le_max_right ..
      rw [allowance, allowance]
      dsimp only
      generalize max 1 limit = m at *
      split <;> split <;> (try split) <;> omega

/-- Of the requests that pass, no more than the allowance are in the interval. -/
theorem countP_passed_le_allowance (hsorted : times.Pairwise (· ≤ ·)) :
    (passed width limit w times).countP (fun t => start ≤ t && t < start + width) ≤
      allowance width limit start w := by
  induction times generalizing w with
  | nil => exact Nat.zero_le _
  | cons now times ih =>
    obtain ⟨hle, hsorted⟩ := List.pairwise_cons.mp hsorted
    have hrest := ih (w := some (visit width w now)) hsorted
    by_cases hend : now < start + width
    · refine Nat.le_trans ?_ (allowance_visit w hend)
      rw [passed]
      by_cases hp : passes limit w now = true
      · rw [if_pos hp, List.countP_cons, Nat.add_comm]
        refine Nat.add_le_add (Nat.le_of_eq ?_) hrest
        simp [hend, hp]
      · rw [if_neg hp, if_neg fun h => hp h.2, Nat.zero_add]
        exact hrest
    · -- all of them come too late
      have hzero : (passed width limit w (now :: times)).countP
          (fun t => start ≤ t && t < start + width) = 0 := by
        rw [List.countP_eq_zero]
        intro t ht hin
        have hnow : now ≤ t := by
          rcases List.mem_cons.mp (mem_passed ht) with rfl | ht
          · exact Nat.le_refl _
          · exact hle t ht
        simp at hin
        omega
      rw [hzero]
      exact Nat.zero_le _

theorem countP_passed_le (hsorted : times.Pairwise (· ≤ ·)) (start : Nat) :
    (passed width limit none times).countP (fun t => start ≤ t && t < start + width) ≤ 2 * max 1 limit :=
  countP_passed_le_allowance hsorted

theorem after_concat (w : Option Window) (times : List Nat) (now : Nat) :
    after width w (times ++ [now]) = some (visit width (after width w times) now) := by
  rw [after, List.foldl_append]
  rfl

/-- The open window counts requests that are in it. -/
theorem count_le_countP (hsorted : times.Pairwise (· ≤ ·)) : ∀ w ∈ after width none times,
    w.count ≤ times.countP (fun t => w.resetAt ≤ t + width) ∧ ∃ t ∈ times, w.resetAt = t + width := by
  induction times using List.reverseRecOn with
  | nil => rintro _ ⟨⟩
  | append_singleton times now ih =>
    obtain ⟨hsorted, -, hlast⟩ := List.pairwise_append.mp hsorted
    have hopened : ∀ w : Window, w = ⟨1, now + width⟩ →
        w.count ≤ (times ++ [now]).countP (fun t => w.resetAt ≤ t + width) ∧
          ∃ t ∈ times ++ [now], w.resetAt = t + width := by
      rintro _ rfl
      refine ⟨List.countP_pos_iff.mpr ⟨now, by simp, by simp⟩, now, by simp, rfl⟩
    intro w hw
    rw [after_concat] at hw
    obtain rfl := Option.some.inj hw
    cases hw : after width none times with
    | none => exact hopened _ rfl
    | some w =>
      obtain ⟨hcount, t, ht, hreset⟩ := ih hsorted w hw
      rw [visit]
      split
      next => exact hopened _ rfl
      next hopen =>
        refine ⟨?_, t, List.mem_append_left _ ht, hreset⟩
        have hin : w.resetAt ≤ now + width :=
          hreset ▸ Nat.add_le_add_right (hlast t ht now (List.mem_singleton_self _)) width
        rw [List.countP_append, List.countP_singleton, decide_eq_true hin, if_pos rfl]
        exact Nat.succ_le_succ hcount

/-- A request that does not pass is behind `limit` others that came less than `width` before it. -/
theorem lt_countP_of_not_passes (hsorted : (times ++ [now]).Pairwise (· ≤ ·))
    (h : passes limit (after width none times) now = false) :
    limit < (times ++ [now]).countP fun t => now < t + width := by
  cases hw : after width none times with
  | none =>
    rw [hw] at h
    cases h
  | some w =>
    obtain ⟨hsorted, -, hlast⟩ := List.pairwise_append.mp hsorted
    obtain ⟨hcount, t, ht, hreset⟩ := count_le_countP hsorted w hw
    simp only [hw, passes, Bool.or_eq_false_iff, decide_eq_false_iff_not] at h
    have hle := hlast t ht now (List.mem_singleton_self _)
    have hnow : now < now + width := by omega
    have hmono : times.countP (fun t => w.resetAt ≤ t + width) ≤
        times.countP fun t => now < t + width := by
      refine List.countP_mono_left fun t _ ht => ?_
      simp only [decide_eq_true_eq] at ht ⊢
      omega
    rw [List.countP_append, List.countP_singleton, decide_eq_true hnow, if_pos rfl]
    omega

end

end OpenLander.Theory.FixedWindow
