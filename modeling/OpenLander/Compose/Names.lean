import OpenLander.Pipeline.GreenCleanup
import Std.Data.String.ToNat

/-! # The names of containers and volumes

Every name joins a project name with what the name is for, with hyphens
(`src/pipeline/helpers.ts`, and `resolveComposeServiceMounts` of `src/pipeline/compose.ts` for the
volumes), and the parts may have hyphens of their own. Two names are equal only if the parts are,
or if one project name goes on where the other one is joined, `RunsOver`. The parent of a Compose
project may be any name: `deploy_compose` does not validate it. -/

namespace OpenLander.Compose
open Pipeline.GreenCleanup (PROJECT_NAME_REGEX CONTAINER_PREFIX containerName composeContainerName)

/-- What gets a container of its own. The service of a Compose child is a key of the Compose
file. -/
inductive Deployable
  | project (name : String)
  | child (parent service : String)
  deriving DecidableEq

namespace Deployable

/-- The project name under which the database has the unit. -/
def name : Deployable → String
  | project name => name
  | child parent service => parent ++ "/" ++ service

def containerName : Deployable → String
  | project name => Pipeline.GreenCleanup.containerName name
  | child parent service => composeContainerName parent service

/-- The container names tell the units apart. -/
def Separated (u v : Deployable) : Prop := u.name ≠ v.name → u.containerName ≠ v.containerName

end Deployable

/-- `/[^a-z0-9_-]/gi` does not match. -/
def isNameChar (c : Char) : Bool := c.isAlphanum || c == '_' || c == '-'

def sanitizeComposeProjectName (name : String) : String :=
  let replaced := name.toList.map fun c => if c = '/' then '-' else c
  String.ofList ((replaced.filter isNameChar).map Char.toLower)

/-- The volumes of a Compose project: those with a name, those without a source, by the service and
the position among its volumes, and those that are seeded from a directory of the clone. -/
inductive ComposeVolume
  | named (source : String)
  | anonymous (service : String) (index : Nat)
  | bind (service : String) (index : Nat)
  deriving DecidableEq

def ComposeVolume.suffix : ComposeVolume → String
  | named source => "volume-" ++ source
  | anonymous service index => "volume-" ++ service ++ "-" ++ toString (index + 1)
  | bind service index => "bind-" ++ service ++ "-" ++ toString (index + 1)

/-- The name of the volume in Docker. -/
def volumeName (projectName : String) (volume : ComposeVolume) : String :=
  composeContainerName projectName volume.suffix

/-- The names tell the volumes of the Compose projects with these names apart. -/
def VolumesSeparated (p : String) (v : ComposeVolume) (q : String) (w : ComposeVolume) : Prop :=
  (p, v) ≠ (q, w) →
    volumeName (sanitizeComposeProjectName p) v ≠ volumeName (sanitizeComposeProjectName q) w

/-! ## When names meet -/

/-- The name `q` goes on after `p`, and what is joined to `p` begins with the rest of `q`. -/
def RunsOver (p s q t : String) : Prop := ∃ w, q = p ++ "-" ++ w ∧ s = w ++ "-" ++ t

/-- The project has the name of the container of the child, or one child runs over the other. -/
def Deployable.Overlaps : Deployable → Deployable → Prop
  | project _, project _ => False
  | project name, child parent service | child parent service, project name =>
    name = parent ++ "-" ++ service
  | child parent service, child parent' service' =>
    RunsOver parent service parent' service' ∨ RunsOver parent' service' parent service

/-- The source of a named volume reads as the service and the position of an anonymous one. -/
def ComposeVolume.Poses : ComposeVolume → ComposeVolume → Prop
  | named source, anonymous service index => source = service ++ "-" ++ toString (index + 1)
  | _, _ => False

/-- Sanitizing merges the projects, or in one project a named volume poses as an anonymous one, or
one project runs over the other. -/
def VolumesOverlap (p : String) (v : ComposeVolume) (q : String) (w : ComposeVolume) : Prop :=
  let p' := sanitizeComposeProjectName p
  let q' := sanitizeComposeProjectName q
  p' = q' ∧ (p ≠ q ∧ v = w ∨ v.Poses w ∨ w.Poses v) ∨ RunsOver p' v.suffix q' w.suffix ∨
    RunsOver q' w.suffix p' v.suffix

/-! ## Joined names -/

/-- Two lists joined with a separator. The first part may have separators of its own. -/
theorem append_separator_eq_iff {c : Char} {p s q t : List Char} :
    p ++ c :: s = q ++ c :: t ↔ p = q ∧ s = t ∨ (∃ w, q = p ++ c :: w ∧ s = w ++ c :: t) ∨
      ∃ w, p = q ++ c :: w ∧ t = w ++ c :: s := by
  have hcons : ∀ {s t a : List Char}, c :: s = a ++ c :: t →
      a = [] ∧ s = t ∨ ∃ w, a = c :: w ∧ s = w ++ c :: t := by
    intro s t a h
    cases a with
    | nil => exact .inl ⟨rfl, (List.cons.inj h).2⟩
    | cons d w =>
      obtain ⟨rfl, hs⟩ := List.cons.inj h
      exact .inr ⟨w, rfl, hs⟩
  constructor
  · intro h
    rcases List.append_eq_append_iff.mp h with ⟨a, hq, ha⟩ | ⟨a, hp, ha⟩
    · rcases hcons ha with ⟨rfl, hs⟩ | ⟨w, rfl, hs⟩
      · exact .inl ⟨by rw [hq, List.append_nil], hs⟩
      · exact .inr (.inl ⟨w, hq, hs⟩)
    · rcases hcons ha with ⟨rfl, hs⟩ | ⟨w, rfl, hs⟩
      · exact .inl ⟨by rw [hp, List.append_nil], hs.symm⟩
      · exact .inr (.inr ⟨w, hp, hs⟩)
  · rintro (⟨rfl, rfl⟩ | ⟨w, rfl, rfl⟩ | ⟨w, rfl, rfl⟩)
    · rfl
    · simp
    · simp

theorem runsOver_iff {p s q t : String} :
    RunsOver p s q t ↔
      ∃ w, q.toList = p.toList ++ '-' :: w ∧ s.toList = w ++ '-' :: t.toList := by
  constructor
  · rintro ⟨w, rfl, rfl⟩
    exact ⟨w.toList, by simp, by simp⟩
  · intro ⟨w, hq, hs⟩
    exact ⟨String.ofList w, String.toList_inj.mp (by simp [hq]), String.toList_inj.mp (by simp [hs])⟩

/-- Two names joined with a hyphen are equal only if the parts are, or if one runs over the other. -/
theorem join_eq_iff {p s q t : String} :
    p ++ "-" ++ s = q ++ "-" ++ t ↔ p = q ∧ s = t ∨ RunsOver p s q t ∨ RunsOver q t p s := by
  rw [runsOver_iff, runsOver_iff, ← String.toList_inj, ← String.toList_inj, ← String.toList_inj]
  simp only [String.toList_append, List.append_assoc]
  exact append_separator_eq_iff

theorem hyphen_not_mem_toString (n : Nat) : '-' ∉ (toString n).toList := by
  intro h
  have hdigit : '-'.isDigit = true := by
    refine Nat.isDigit_of_mem_toDigits (b := 10) (n := n) (by decide) (by decide) ?_
    simpa [Nat.toString_eq_repr, Nat.toList_repr] using h
  exact absurd hdigit (by decide)

/-- A position is what follows the last hyphen. -/
theorem join_toString_inj {s t : String} {i j : Nat} :
    s ++ "-" ++ toString i = t ++ "-" ++ toString j ↔ s = t ∧ i = j := by
  have hnot : ∀ {p q : String} {i j : Nat}, ¬RunsOver p (toString i) q (toString j) := by
    intro p q i j h
    obtain ⟨w, -, hi⟩ := runsOver_iff.mp h
    refine hyphen_not_mem_toString i ?_
    rw [hi]
    exact List.mem_append_right _ (.head _)
  rw [join_eq_iff]
  constructor
  · rintro (⟨rfl, h⟩ | h | h)
    · exact ⟨rfl, Nat.repr_inj.mp h⟩
    · exact absurd h hnot
    · exact absurd h hnot
  · rintro ⟨rfl, rfl⟩
    exact .inl ⟨rfl, rfl⟩

theorem composeContainerName_eq (p s : String) :
    composeContainerName p s = CONTAINER_PREFIX ++ (p ++ "-" ++ s) := by
  simp only [composeContainerName, String.append_assoc]

theorem prefix_inj {s t : String} : CONTAINER_PREFIX ++ s = CONTAINER_PREFIX ++ t ↔ s = t := by
  rw [← String.toList_inj, ← String.toList_inj, String.toList_append, String.toList_append,
    List.append_cancel_left_eq]

/-! ## Sanitizing -/

/-- The characters of a name that `validateProjectName` lets pass. -/
theorem mem_of_valid {name : String} (hvalid : PROJECT_NAME_REGEX name) {c : Char}
    (h : c ∈ name.toList) : ('a' ≤ c ∧ c ≤ 'z') ∨ ('0' ≤ c ∧ c ≤ '9') ∨ c = '-' := by
  simp only [PROJECT_NAME_REGEX] at hvalid
  split at hvalid
  · exact nomatch hvalid
  · rename_i d cs hcs
    simp only [Bool.and_eq_true, Bool.or_eq_true, decide_eq_true_eq, List.all_eq_true,
      beq_iff_eq] at hvalid
    rw [hcs] at h
    cases h with
    | head => exact hvalid.1.imp id .inl
    | tail _ h => exact or_assoc.mp (hvalid.2 c h)

/-- Sanitizing keeps each of them. -/
theorem sanitize_mem {name : String} (hvalid : PROJECT_NAME_REGEX name) {c : Char}
    (h : c ∈ name.toList) : c ≠ '/' ∧ isNameChar c = true ∧ c.toLower = c := by
  delta isNameChar Char.isAlphanum Char.isAlpha Char.isLower Char.isDigit
  simp only [Bool.or_eq_true, Bool.and_eq_true, decide_eq_true_eq, beq_iff_eq]
  rcases mem_of_valid hvalid h with ⟨hl, hr⟩ | ⟨hl, hr⟩ | rfl
  · refine ⟨?_, .inl (.inl (.inl (.inr ⟨hl, hr⟩))), dif_neg fun hupper => ?_⟩
    · rintro rfl
      exact absurd hl (by decide)
    · exact absurd (UInt32.le_trans hl hupper.2) (by decide)
  · refine ⟨?_, .inl (.inl (.inr ⟨hl, hr⟩)), dif_neg fun hupper => ?_⟩
    · rintro rfl
      exact absurd hl (by decide)
    · exact absurd (UInt32.le_trans hupper.1 hr) (by decide)
  · exact ⟨by decide, .inr rfl, by decide⟩

theorem sanitizeComposeProjectName_of_valid {name : String} (hvalid : PROJECT_NAME_REGEX name) :
    sanitizeComposeProjectName name = name := by
  have hreplace : (name.toList.map fun c => if c = '/' then '-' else c) = name.toList :=
    (List.map_congr_left fun c hc => if_neg (sanitize_mem hvalid hc).1).trans (List.map_id _)
  have hfilter : name.toList.filter isNameChar = name.toList :=
    List.filter_eq_self.mpr fun c hc => (sanitize_mem hvalid hc).2.1
  have hlower : name.toList.map Char.toLower = name.toList :=
    (List.map_congr_left fun c hc => (sanitize_mem hvalid hc).2.2).trans (List.map_id _)
  rw [sanitizeComposeProjectName, hreplace, hfilter, hlower, String.ofList_toList]

/-- Sanitizing merges no two projects whose names `validateProjectName` lets pass. Names that reach
the pipeline in another way it may merge. -/
theorem sanitizeComposeProjectName_inj {p q : String} (hp : PROJECT_NAME_REGEX p)
    (hq : PROJECT_NAME_REGEX q) :
    sanitizeComposeProjectName p = sanitizeComposeProjectName q ↔ p = q := by
  rw [sanitizeComposeProjectName_of_valid hp, sanitizeComposeProjectName_of_valid hq]

/-! ## Deployables -/

namespace Deployable

/-- Units of different names share a container name only if they overlap. -/
theorem containerName_eq_iff {u v : Deployable} (hne : u.name ≠ v.name) :
    u.containerName = v.containerName ↔ u.Overlaps v := by
  cases u with
  | project p =>
    cases v with
    | project q =>
      simp only [containerName, Pipeline.GreenCleanup.containerName, prefix_inj, Overlaps]
      exact iff_false_intro hne
    | child q t =>
      simp only [containerName, Pipeline.GreenCleanup.containerName, composeContainerName_eq,
        prefix_inj, Overlaps]
  | child p s =>
    cases v with
    | project q =>
      simp only [containerName, Pipeline.GreenCleanup.containerName, composeContainerName_eq,
        prefix_inj, Overlaps]
      exact eq_comm
    | child q t =>
      simp only [containerName, composeContainerName_eq, prefix_inj, join_eq_iff, Overlaps]
      refine or_iff_right fun h => hne ?_
      rw [h.1, h.2]

/-- Units that overlap have different names: one has a slash where the other has a hyphen. -/
theorem name_ne_of_overlaps {u v : Deployable} (h : u.Overlaps v) : u.name ≠ v.name := by
  have hslash : ∀ {p s t : String}, p ++ "/" ++ s ≠ p ++ "-" ++ t := by
    intro p s t h
    rw [← String.toList_inj] at h
    simp at h
  have hruns : ∀ {p s q t : String}, RunsOver p s q t → p ++ "/" ++ s ≠ q ++ "/" ++ t := by
    rintro p s q t ⟨w, rfl, rfl⟩
    rw [@String.append_assoc (p ++ "-"), @String.append_assoc (p ++ "-")]
    exact hslash
  cases u with
  | project p =>
    cases v with
    | project q => exact h.elim
    | child q t =>
      cases h
      exact hslash.symm
  | child p s =>
    cases v with
    | project q =>
      cases h
      exact hslash
    | child q t =>
      rcases h with h | h
      · exact hruns h
      · exact (hruns h).symm

theorem separated_iff (u v : Deployable) : u.Separated v ↔ ¬u.Overlaps v := by
  constructor
  · intro h hoverlaps
    have hne := name_ne_of_overlaps hoverlaps
    exact h hne ((containerName_eq_iff hne).mpr hoverlaps)
  · intro h hne heq
    exact h ((containerName_eq_iff hne).mp heq)

end Deployable

/-! ## Volumes -/

namespace ComposeVolume

/-- In one project, only the source of a named volume can hide a position. -/
theorem suffix_eq_iff {v w : ComposeVolume} :
    v.suffix = w.suffix ↔ v = w ∨ v.Poses w ∨ w.Poses v := by
  have hkind : ∀ s t : String, "volume-" ++ s ≠ "bind-" ++ t := by
    intro s t h
    rw [← String.toList_inj, String.toList_append, String.toList_append] at h
    exact absurd (List.cons.inj h).1 (by decide)
  have hprefix : ∀ {a s t : String}, a ++ s = a ++ t ↔ s = t := by
    intro a s t
    rw [← String.toList_inj, ← String.toList_inj, String.toList_append, String.toList_append,
      List.append_cancel_left_eq]
  cases v with
  | named source =>
    cases w with
    | named source' => simp only [suffix, hprefix, Poses, or_false, named.injEq]
    | anonymous service index =>
      simp only [suffix, String.append_assoc, hprefix, Poses, or_false, reduceCtorEq, false_or]
    | bind service index =>
      simp only [suffix, String.append_assoc, hkind, Poses, or_false, reduceCtorEq]
  | anonymous service index =>
    cases w with
    | named source =>
      simp only [suffix, String.append_assoc, hprefix, Poses, reduceCtorEq, false_or]
      exact eq_comm
    | anonymous service' index' =>
      have hsuffix : ∀ s i, suffix (anonymous s i) = "volume-" ++ (s ++ "-" ++ toString (i + 1)) := by
        intro s i
        simp only [suffix, String.append_assoc]
      simp only [hsuffix, hprefix, join_toString_inj, Nat.add_right_cancel_iff, Poses, or_false,
        anonymous.injEq]
    | bind service' index' =>
      simp only [suffix, String.append_assoc, hkind, Poses, or_false, reduceCtorEq]
  | bind service index =>
    cases w with
    | named source =>
      simp only [suffix, String.append_assoc, (hkind _ _).symm, Poses, or_false, reduceCtorEq]
    | anonymous service' index' =>
      simp only [suffix, String.append_assoc, (hkind _ _).symm, Poses, or_false, reduceCtorEq]
    | bind service' index' =>
      have hsuffix : ∀ s i, suffix (bind s i) = "bind-" ++ (s ++ "-" ++ toString (i + 1)) := by
        intro s i
        simp only [suffix, String.append_assoc]
      simp only [hsuffix, hprefix, join_toString_inj, Nat.add_right_cancel_iff, Poses, or_false,
        bind.injEq]

theorem not_poses_self (v : ComposeVolume) : ¬v.Poses v := by
  cases v <;> exact id

end ComposeVolume

theorem volumeName_eq_iff {p q : String} {v w : ComposeVolume} :
    volumeName p v = volumeName q w ↔ p = q ∧ (v = w ∨ v.Poses w ∨ w.Poses v) ∨
      RunsOver p v.suffix q w.suffix ∨ RunsOver q w.suffix p v.suffix := by
  rw [volumeName, volumeName, composeContainerName_eq, composeContainerName_eq, prefix_inj,
    join_eq_iff, ComposeVolume.suffix_eq_iff]

theorem not_runsOver_self (p s : String) : ¬RunsOver p s p s := by
  rw [runsOver_iff]
  intro ⟨w, hp, _⟩
  have hlength := congrArg List.length hp
  simp at hlength

theorem not_volumesOverlap_self (p : String) (v : ComposeVolume) : ¬VolumesOverlap p v p v := by
  rintro (⟨-, h | h⟩ | h)
  · exact h.1 rfl
  · exact h.elim v.not_poses_self v.not_poses_self
  · exact h.elim (not_runsOver_self _ _) (not_runsOver_self _ _)

theorem volumesSeparated_iff (p : String) (v : ComposeVolume) (q : String) (w : ComposeVolume) :
    VolumesSeparated p v q w ↔ ¬VolumesOverlap p v q w := by
  rw [VolumesSeparated, Ne, Ne, volumeName_eq_iff]
  constructor
  · intro h hoverlap
    have hne : (p, v) ≠ (q, w) := by
      intro heq
      cases heq
      exact not_volumesOverlap_self p v hoverlap
    refine h hne (hoverlap.imp_left fun ⟨hp, hv⟩ => ⟨hp, hv.imp_left And.right⟩)
  · intro h hne heq
    refine h (heq.imp_left fun ⟨hp, hv⟩ => ⟨hp, hv.imp_left fun hv => ⟨fun hpq => hne ?_, hv⟩⟩)
    rw [hpq, hv]

/-- The names tell containers and volumes apart exactly where none overlap. -/
theorem names_separate_iff (a b : Deployable) (p : String) (v : ComposeVolume) (q : String)
    (w : ComposeVolume) :
    (a.Separated b ↔ ¬a.Overlaps b) ∧ (VolumesSeparated p v q w ↔ ¬VolumesOverlap p v q w) :=
  ⟨a.separated_iff b, volumesSeparated_iff p v q w⟩

/-- The project `shop-web` has the container of the service `web` of `shop`, and a volume `web-1` is
the anonymous volume of that service. -/
theorem not_names_separate :
    (¬∀ u v : Deployable, u.Separated v) ∧
      ¬∀ (p : String) (v : ComposeVolume) (q : String) (w : ComposeVolume),
        VolumesSeparated p v q w := by
  constructor
  · intro h
    exact h (.project "shop-web") (.child "shop" "web") (by decide) (by decide)
  · intro h
    exact h "shop" (.named "web-1") "shop" (.anonymous "web" 0) (by decide) (by decide)

end OpenLander.Compose
