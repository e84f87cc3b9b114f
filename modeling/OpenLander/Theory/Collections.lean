import Mathlib.Data.List.Nodup

/-! # Insertion-ordered sets and records built from entries

`fromEntries` looks a key up in a record built from a list of entries, where a later entry
replaces an earlier one with the same key. `insertLast` adds to a list that holds the members of
a set in the order of their insertion. `visit` marks what is reachable from a start, depth first,
`visit_eq` says that its fuel does not show, and `mem_foldl_visit_iff` what is marked. -/

namespace OpenLander.Theory

variable {α : Type u} {κ : Type v} {β : Type w} [DecidableEq κ]

/-! ## Records -/

def fromEntries (entries : List (κ × α)) (k : κ) : Option α := entries.reverse.lookup k

theorem fromEntries_isSome {entries : List (κ × α)} :
    (fromEntries entries k).isSome = true ↔ k ∈ entries.map (·.1) := by
  simp [fromEntries, List.lookup_isSome_iff]

theorem mem_of_fromEntries {entries : List (κ × α)} (h : fromEntries entries k = some v) :
    (k, v) ∈ entries := by
  obtain ⟨l, r, heq, -⟩ := List.lookup_eq_some_iff.mp h
  exact List.mem_reverse.mp (heq ▸ by simp)

theorem fromEntries_append (l l' : List (κ × α)) (k : κ) :
    fromEntries (l ++ l') k = (fromEntries l' k).or (fromEntries l k) := by
  rw [fromEntries, List.reverse_append, List.lookup_append]
  rfl

theorem fromEntries_concat (entries : List (κ × α)) (entry : κ × α) (k : κ) :
    fromEntries (entries ++ [entry]) k =
      if entry.1 = k then some entry.2 else fromEntries entries k := by
  rw [fromEntries, List.reverse_append, List.reverse_singleton, List.singleton_append,
    List.lookup_cons]
  cases heq : k == entry.1 with
  | true => rw [if_pos (beq_iff_eq.mp heq).symm]
  | false => rw [if_neg fun h => beq_eq_false_iff_ne.mp heq h.symm, fromEntries]

theorem fromEntries_cons (entry : κ × α) (entries : List (κ × α)) (k : κ) :
    fromEntries (entry :: entries) k =
      (fromEntries entries k).or (if entry.1 = k then some entry.2 else none) := by
  rw [← List.singleton_append, fromEntries_append, ← List.nil_append [entry], fromEntries_concat]
  rfl

/-- Where no key occurs twice, every entry can be looked up. -/
theorem fromEntries_of_nodup {entries : List (κ × α)} (hd : (entries.map (·.1)).Nodup)
    (h : (k, v) ∈ entries) : fromEntries entries k = some v := by
  obtain ⟨w, hw⟩ := Option.isSome_iff_exists.mp (fromEntries_isSome.mpr (List.mem_map_of_mem h))
  have heq : ((k, v) : κ × α) = (k, w) := List.inj_on_of_nodup_map hd h (mem_of_fromEntries hw) rfl
  rw [hw, (Prod.mk.injEq ..).mp heq |>.2]

theorem fromEntries_eq_some_iff {entries : List (κ × α)} (hd : (entries.map (·.1)).Nodup) :
    fromEntries entries k = some v ↔ (k, v) ∈ entries :=
  ⟨mem_of_fromEntries, fromEntries_of_nodup hd⟩

/-- The order of the entries does not matter where no key occurs twice. -/
theorem fromEntries_perm {l l' : List (κ × α)} (hd : (l.map (·.1)).Nodup) (h : l.Perm l') :
    fromEntries l = fromEntries l' := by
  funext k
  refine Option.ext fun v => ?_
  rw [fromEntries_eq_some_iff hd, fromEntries_eq_some_iff ((h.map _).nodup_iff.mp hd)]
  exact h.mem_iff

/-- Two records over the same keyed list differ by their values only. -/
theorem fromEntries_map (l : List β) (key : β → κ) (f : β → α) (k : κ) :
    fromEntries (l.map fun x => (key x, f x)) k =
      (fromEntries (l.map fun x => (key x, x)) k).map f := by
  simp only [fromEntries, ← List.map_reverse]
  induction l.reverse with
  | nil => rfl
  | cons x l ih => simp only [List.map_cons, List.lookup_cons]; split <;> simp [ih]

theorem map_eq_map_of {γ : Type*} {f : α → β} {g : α → γ} {l l' : List α}
    (hfg : ∀ a ∈ l, ∀ b ∈ l', f a = f b → g a = g b) (h : l.map f = l'.map f) : l.map g = l'.map g := by
  induction l generalizing l' with
  | nil => rw [List.map_eq_nil_iff.mp h.symm]
  | cons a l ih =>
    obtain ⟨b, l', rfl, hab, hl⟩ := List.map_eq_cons_iff.mp h.symm
    rw [List.map_cons, List.map_cons, hfg a (.head _) b (.head _) hab.symm,
      ih (fun a ha b hb => hfg a (.tail _ ha) b (.tail _ hb)) hl.symm]

/-! ## Folds -/

/-- Where each element adds `P` of it to what `p` says of the state, a fold adds it of some. -/
theorem foldl_iff_exists {f : σ → β → σ} {p : σ → Prop} {P : β → Prop}
    (h : ∀ s b, p (f s b) ↔ p s ∨ P b) (l : List β) (s : σ) :
    p (l.foldl f s) ↔ p s ∨ ∃ b ∈ l, P b := by
  induction l generalizing s with
  | nil => simp
  | cons b l ih =>
    rw [List.foldl_cons, ih, h, or_assoc]
    simp only [List.mem_cons, exists_eq_or_imp]

/-- A fold leaves alone what each of its steps does. -/
theorem foldl_eq_of_step {f : σ → β → σ} {p : σ → γ} (h : ∀ s b, p (f s b) = p s) (l : List β)
    (s : σ) : p (l.foldl f s) = p s := by
  induction l generalizing s with
  | nil => rfl
  | cons b l ih => rw [List.foldl_cons, ih, h]

theorem bind_eq_ok {ε α β : Type} {x : Except ε α} {f : α → Except ε β} {b : β} :
    (x >>= f) = .ok b ↔ ∃ a, x = .ok a ∧ f a = .ok b := by
  cases x with
  | error e => exact ⟨nofun, fun ⟨_, h, _⟩ => nomatch h⟩
  | ok a => exact ⟨fun h => ⟨a, rfl, h⟩, fun ⟨_, h, h'⟩ => by rwa [Except.ok.inj h]⟩

/-- A check of every element of a list passes when each check does. -/
theorem forM_eq_ok {ε : Type} {f : β → Except ε PUnit} {l : List β} :
    forM l f = .ok ⟨⟩ ↔ ∀ b ∈ l, f b = .ok ⟨⟩ := by
  induction l with
  | nil => simp [pure, Except.pure]
  | cons b l ih =>
    cases hb : f b <;> simp [hb, ih, bind, Except.bind]

/-- The results of a list are those of its members. -/
theorem mem_mapM_ok {ε α β : Type} {f : α → Except ε β} {l : List α} {ys : List β}
    (h : l.mapM f = .ok ys) : (∀ a ∈ l, ∃ b, f a = .ok b) ∧ ∀ b, b ∈ ys ↔ ∃ a ∈ l, f a = .ok b := by
  induction l generalizing ys with
  | nil =>
    obtain rfl : [] = ys := Except.ok.inj h
    simp
  | cons a l ih =>
    rw [List.mapM_cons] at h
    obtain ⟨b, hb, h⟩ := bind_eq_ok.mp h
    obtain ⟨bs, hbs, h⟩ := bind_eq_ok.mp h
    obtain rfl : b :: bs = ys := Except.ok.inj h
    obtain ⟨hall, hmem⟩ := ih hbs
    refine ⟨List.forall_mem_cons.mpr ⟨⟨b, hb⟩, hall⟩, fun c => ?_⟩
    simp [hmem, hb, eq_comm]

/-! ## Runs of elements -/

/-- A run of elements that meet `p` ends at the first other one. -/
theorem append_inj_of_run {p : α → Bool} {a b a' b' : List α} (ha : ∀ c ∈ a, p c = true)
    (hb : ∀ c ∈ b.head?, p c = false) (ha' : ∀ c ∈ a', p c = true) (hb' : ∀ c ∈ b'.head?, p c = false)
    (h : a ++ b = a' ++ b') : a = a' ∧ b = b' := by
  have htake {a b : List α} (ha : ∀ c ∈ a, p c = true) (hb : ∀ c ∈ b.head?, p c = false) :
      (a ++ b).takeWhile p = a := by
    rw [List.takeWhile_append_of_pos ha]
    cases b with
    | nil => exact List.append_nil a
    | cons c b => rw [List.takeWhile_cons_of_neg (by rw [hb c rfl]; exact Bool.false_ne_true), List.append_nil]
  have heq : a = a' := by
    rw [← htake ha hb, h, htake ha' hb']
  subst heq
  exact ⟨rfl, List.append_cancel_left h⟩

/-! ## Sets in insertion order -/

section Sets
variable [DecidableEq α]

def insertLast (s : List α) (a : α) : List α := if a ∈ s then s else s ++ [a]

@[simp] theorem mem_insertLast {s : List α} {a b : α} : b ∈ insertLast s a ↔ b ∈ s ∨ b = a := by
  unfold insertLast
  split <;> simp_all

theorem subset_insertLast (s : List α) (a : α) : s ⊆ insertLast s a :=
  fun _ h => mem_insertLast.mpr (.inl h)

theorem mem_foldl_insertLast {s l : List α} : b ∈ l.foldl insertLast s ↔ b ∈ s ∨ b ∈ l := by
  have hins : ∀ (s : List α) (a : α), b ∈ insertLast s a ↔ b ∈ s ∨ b = a :=
    fun _ _ => mem_insertLast
  rw [foldl_iff_exists (p := fun s : List α => b ∈ s) hins]
  simp

theorem foldl_insertLast_of_nodup {s l : List α} (h : (s ++ l).Nodup) :
    l.foldl insertLast s = s ++ l := by
  induction l generalizing s with
  | nil => exact (List.append_nil s).symm
  | cons a l ih =>
    have hnot : a ∉ s := fun ha => (List.nodup_append.mp h).2.2 a ha a (.head _) rfl
    rw [List.append_cons] at h
    rw [List.foldl_cons, insertLast, if_neg hnot, ih h, List.append_cons s a l]

theorem nodup_insertLast {s : List α} (h : s.Nodup) (a : α) : (insertLast s a).Nodup := by
  unfold insertLast
  split
  · exact h
  next hnot =>
    refine List.nodup_append.mpr ⟨h, List.nodup_singleton a, fun b hb c hc heq => hnot ?_⟩
    exact List.mem_singleton.mp hc ▸ heq ▸ hb

theorem nodup_foldl_insertLast {s l : List α} (h : s.Nodup) : (l.foldl insertLast s).Nodup := by
  induction l generalizing s with
  | nil => exact h
  | cons a l ih => exact ih (nodup_insertLast h a)

/-- The keys of a record, in the order of their first entries. -/
def keys (entries : List (α × β)) : List α := (entries.map (·.1)).foldl insertLast []

theorem keys_of_nodup {entries : List (α × β)} (h : (entries.map (·.1)).Nodup) :
    keys entries = entries.map (·.1) :=
  foldl_insertLast_of_nodup h

/-! ## Depth-first marking -/

/-- Mark `a` and then all that follows it, depth first. Where `next` gives nothing, `a` is not to
be marked. The fuel bounds the depth. -/
def visit (next : α → Option (List α)) : Nat → List α → α → List α
  | 0, seen, _ => seen
  | fuel + 1, seen, a =>
    if a ∈ seen then seen
    else match next a with
      | none => seen
      | some followers =>
        followers.foldl (fun seen b => visit next fuel seen b) (insertLast seen a)

variable {next : α → Option (List α)} {nodes : List α}

omit [DecidableEq α] in
theorem subset_foldl {f : List α → β → List α} (h : ∀ s b, s ⊆ f s b) (l : List β) (s : List α) :
    s ⊆ l.foldl f s := by
  induction l generalizing s with
  | nil => exact List.Subset.refl s
  | cons b l ih => exact List.Subset.trans (h s b) (ih _)

theorem subset_visit (n : Nat) (seen : List α) (a : α) : seen ⊆ visit next n seen a := by
  induction n generalizing seen a with
  | zero => exact List.Subset.refl seen
  | succ n ih =>
    rw [visit]
    split
    · exact List.Subset.refl seen
    · split
      · exact List.Subset.refl seen
      · exact List.Subset.trans (subset_insertLast seen a) (subset_foldl ih ..)

/-- How many nodes are still to be marked. -/
def unseen (nodes seen : List α) : Nat := nodes.countP (· ∉ seen)

theorem unseen_anti (nodes : List α) {s t : List α} (h : s ⊆ t) : unseen nodes t ≤ unseen nodes s :=
  List.countP_mono_left fun a _ ha => by
    simp only [decide_eq_true_eq] at ha ⊢
    exact fun hs => ha (h hs)

theorem unseen_insertLast_lt (hn : a ∈ nodes) (hs : a ∉ seen) :
    unseen nodes (insertLast seen a) < unseen nodes seen := by
  obtain ⟨l, r, rfl⟩ := List.append_of_mem hn
  have hl := unseen_anti l (subset_insertLast seen a)
  have hr := unseen_anti r (subset_insertLast seen a)
  simp only [unseen, List.countP_append, List.countP_cons, mem_insertLast] at hl hr ⊢
  simp only [hs, or_true, not_true_eq_false, decide_false, not_false_eq_true, decide_true,
    Bool.false_eq_true, if_false, if_true]
  omega

omit [DecidableEq α] in
theorem foldl_congr_of_subset {f g : List α → β → List α} {s₀ s : List α} {l : List β}
    (hf : ∀ s b, s ⊆ f s b) (h : ∀ s b, s₀ ⊆ s → f s b = g s b) (hs : s₀ ⊆ s) :
    l.foldl f s = l.foldl g s := by
  induction l generalizing s with
  | nil => rfl
  | cons b l ih =>
    rw [List.foldl_cons, List.foldl_cons, ← h s b hs]
    exact ih (List.Subset.trans hs (hf s b))

/-- Fuel for every node that is still to be marked is enough. -/
theorem visit_fuel (hnodes : ∀ a, (next a).isSome → a ∈ nodes) (n : Nat) :
    ∀ seen a, unseen nodes seen ≤ n → visit next n seen a = visit next (n + 1) seen a := by
  induction n with
  | zero =>
    intro seen a hn
    rw [visit, visit]
    split
    · rfl
    next ha =>
      split
      · rfl
      next followers heq =>
        have := unseen_insertLast_lt (hnodes a (by rw [heq]; rfl)) ha
        omega
  | succ n ih =>
    intro seen a hn
    rw [visit, visit]
    split
    · rfl
    next ha =>
      split
      · rfl
      next followers heq =>
        have hlt := unseen_insertLast_lt (hnodes a (by rw [heq]; rfl)) ha
        apply foldl_congr_of_subset (subset_visit n) _ (List.Subset.refl _)
        intro s b hs
        have hle := unseen_anti nodes hs
        exact ih s b (by omega)

/-- With fuel for all nodes, marking is the plain recursion. -/
theorem visit_eq (hnodes : ∀ a, (next a).isSome → a ∈ nodes) (seen : List α) (a : α) :
    visit next nodes.length seen a =
      if a ∈ seen then seen
      else (next a).elim seen fun followers =>
        followers.foldl (visit next nodes.length) (insertLast seen a) := by
  rw [visit_fuel hnodes nodes.length seen a List.countP_le_length, visit]
  cases next a <;> rfl

/-- What is reached from `starts`, where the nodes of `base` are marked already. -/
inductive ReachedFrom (next : α → Option (List α)) (base starts : List α) : α → Prop
  | start (h : a ∈ starts) : ReachedFrom next base starts a
  | step (h : ReachedFrom next base starts a) (hbase : a ∉ base) (hb : b ∈ (next a).getD []) :
      ReachedFrom next base starts b

/-- The node is marked, or not to be marked. -/
def Settled (next : α → Option (List α)) (seen : List α) (a : α) : Prop := a ∈ seen ∨ next a = none

omit [DecidableEq α] in
theorem Settled.mono {s t : List α} (h : Settled next s a) (hst : s ⊆ t) : Settled next t a :=
  h.imp_left (hst ·)

omit [DecidableEq α] in
/-- Where each step settles its node and what follows the nodes that it marks, a fold does. -/
theorem foldl_closed {f : List α → α → List α} {G : List α → Prop} (hsub : ∀ s a, s ⊆ f s a)
    (hG : ∀ {s t}, s ⊆ t → G s → G t)
    (hf : ∀ s a, G s → Settled next (f s a) a ∧
      ∀ x ∈ f s a, x ∉ s → ∀ y ∈ (next x).getD [], Settled next (f s a) y)
    (l : List α) {s : List α} (hs : G s) :
    (∀ a ∈ l, Settled next (l.foldl f s) a) ∧
      ∀ x ∈ l.foldl f s, x ∉ s → ∀ y ∈ (next x).getD [], Settled next (l.foldl f s) y := by
  induction l generalizing s with
  | nil => exact ⟨nofun, fun x hx hnot => absurd hx hnot⟩
  | cons a l ih =>
    obtain ⟨ha, hnew⟩ := hf s a hs
    obtain ⟨hl, hrest⟩ := ih (hG (hsub s a) hs)
    have hmono := subset_foldl hsub l (f s a)
    rw [List.foldl_cons]
    refine ⟨List.forall_mem_cons.mpr ⟨ha.mono hmono, hl⟩, fun x hx hnot y hy => ?_⟩
    by_cases hx' : x ∈ f s a
    · exact (hnew x hx' hnot y hy).mono hmono
    · exact hrest x hx hx' y hy

/-- Marking settles the node, and what follows each node that it marks. -/
theorem visit_closed (hnodes : ∀ a, (next a).isSome → a ∈ nodes) (n : Nat) :
    ∀ seen a, unseen nodes seen ≤ n → Settled next (visit next n seen a) a ∧
      ∀ x ∈ visit next n seen a, x ∉ seen →
        ∀ y ∈ (next x).getD [], Settled next (visit next n seen a) y := by
  induction n with
  | zero =>
    refine fun seen a hn => ⟨?_, fun x hx hnot => absurd hx hnot⟩
    change a ∈ seen ∨ next a = none
    rw [or_iff_not_imp_left]
    intro ha
    cases hnext : next a with
    | none => rfl
    | some followers =>
      have hlt := unseen_insertLast_lt (hnodes a (by rw [hnext]; rfl)) ha
      omega
  | succ n ih =>
    intro seen a hn
    rw [visit]
    split
    next ha => exact ⟨.inl ha, fun x hx hnot => absurd hx hnot⟩
    next ha =>
      split
      next hnext => exact ⟨.inr hnext, fun x hx hnot => absurd hx hnot⟩
      next followers hnext =>
        have hlt := unseen_insertLast_lt (hnodes a (by rw [hnext]; rfl)) ha
        have hmono := subset_foldl (f := visit next n) (subset_visit n) followers
          (insertLast seen a)
        obtain ⟨hfollowers, hrest⟩ := foldl_closed (G := fun s => unseen nodes s ≤ n)
          (subset_visit n) (fun hst hs => Nat.le_trans (unseen_anti nodes hst) hs) ih followers
          (s := insertLast seen a) (by omega)
        refine ⟨.inl (hmono (mem_insertLast.mpr (.inr rfl))), fun x hx hnot => ?_⟩
        by_cases hxa : x = a
        · rw [hxa, hnext]
          exact hfollowers
        · refine hrest x hx fun hmem => ?_
          exact (mem_insertLast.mp hmem).elim hnot hxa

/-- Only what is reached is marked. -/
theorem mem_visit {P : α → Prop} (n : Nat) :
    ∀ seen a, (∀ x, P x → x ∉ seen → ∀ y ∈ (next x).getD [], P y) → P a →
      ∀ x ∈ visit next n seen a, x ∈ seen ∨ P x ∧ (next x).isSome := by
  induction n with
  | zero => exact fun seen a _ _ x hx => .inl hx
  | succ n ih =>
    intro seen a hP ha x
    rw [visit]
    split
    next => exact .inl
    next hseen =>
      split
      next => exact .inl
      next followers hnext =>
        have hfollowers : ∀ y ∈ followers, P y := fun y hy =>
          hP a ha hseen y (by rw [hnext]; exact hy)
        have hfold : ∀ (l : List α) (s : List α), (∀ y ∈ l, P y) → seen ⊆ s →
            ∀ x ∈ l.foldl (visit next n) s, x ∈ s ∨ P x ∧ (next x).isSome := by
          intro l
          induction l with
          | nil => exact fun s _ _ x hx => .inl hx
          | cons b l ihl =>
            intro s hl hs x hx
            rcases ihl _ (fun y hy => hl y (.tail _ hy))
                (List.Subset.trans hs (subset_visit n s b)) x hx with h | h
            · exact ih s b (fun z hz hnot => hP z hz fun hmem => hnot (hs hmem))
                (hl b (.head _)) x h
            · exact .inr h
        intro hx
        rcases hfold followers _ hfollowers (subset_insertLast seen a) x hx with h | h
        · rcases mem_insertLast.mp h with h | rfl
          · exact .inl h
          · exact .inr ⟨ha, by rw [hnext]; rfl⟩
        · exact .inr h

/-- Marking one start after the other marks exactly what is reached. -/
theorem mem_foldl_visit_iff (hnodes : ∀ a, (next a).isSome → a ∈ nodes) (base starts : List α) :
    x ∈ starts.foldl (visit next nodes.length) base ↔
      x ∈ base ∨ ReachedFrom next base starts x ∧ (next x).isSome := by
  have hclosed := foldl_closed (G := fun s => unseen nodes s ≤ nodes.length)
    (subset_visit nodes.length) (fun hst hs => Nat.le_trans (unseen_anti nodes hst) hs)
    (visit_closed hnodes nodes.length) starts (s := base) List.countP_le_length
  constructor
  · have hsound : ∀ (l : List α) (s : List α), (∀ a ∈ l, ReachedFrom next base starts a) →
        (∀ y ∈ s, y ∈ base ∨ ReachedFrom next base starts y ∧ (next y).isSome) → base ⊆ s →
        ∀ y ∈ l.foldl (visit next nodes.length) s,
          y ∈ base ∨ ReachedFrom next base starts y ∧ (next y).isSome := by
      intro l
      induction l with
      | nil => exact fun s _ hs _ => hs
      | cons b l ih =>
        intro s hl hs hbase
        refine ih _ (fun a ha => hl a (.tail _ ha)) (fun y hy => ?_)
          (List.Subset.trans hbase (subset_visit ..))
        exact (mem_visit _ s b (fun z hz hnot w hw => .step hz (fun hmem => hnot (hbase hmem)) hw)
          (hl b (.head _)) y hy).elim (hs y) .inr
    exact hsound starts base (fun a => .start) (fun y => .inl) (List.Subset.refl _) x
  · have hsettled : ∀ y, ReachedFrom next base starts y →
        Settled next (starts.foldl (visit next nodes.length) base) y := by
      intro y hy
      induction hy with
      | start ha => exact hclosed.1 _ ha
      | @step a b h hbase hb ih =>
        refine ih.elim (fun hmem => hclosed.2 a hmem hbase b hb) fun hnone => ?_
        rw [hnone] at hb
        cases hb
    rintro (h | ⟨h, hsome⟩)
    · exact subset_foldl (subset_visit _) starts base h
    · refine (hsettled x h).resolve_right fun hnone => ?_
      rw [hnone] at hsome
      cases hsome

end Sets

/-! ## Deciding about lists

The members are gone through, also where there is an instance that goes through the whole type. -/

namespace Members
variable {α : Type u} {p : α → Prop} [DecidablePred p]

scoped instance (priority := high) decidableForall (l : List α) : Decidable (∀ a ∈ l, p a) :=
  List.decidableBAll p l

scoped instance (priority := high) decidableExists (l : List α) : Decidable (∃ a ∈ l, p a) :=
  List.decidableBEx p l

scoped instance (priority := high) decidableExistsOption (o : Option α) : Decidable (∃ a ∈ o, p a) :=
  Option.decidableExistsMem o

end Members

namespace Texts

/-- Membership in a list of texts is decided by comparing their characters. -/
scoped instance lawfulBEq : LawfulBEq (List Char) := inferInstance

end Texts

end OpenLander.Theory
