import Amend.Proofs.Landing
import Amend.Proofs.Run.ExitCode
import Amend.Proofs.Run.InOrder
import Mathlib.Data.List.Pairwise

/-!
# Targets in order do not disturb each other

In a run in order every target ends as it does alone, so the order of the targets shows in nothing
but the order of the outcomes, and a target that fails could as well be missing
(`rewrite_isolated`). This needs targets that lead to different files, and that links which are cut
short for their number count (`Separate`): once a link is replaced by a file there are fewer links
on the way of a target that had too many (`maze_not_isolated`). For the same reason workers that
take turns may find another fault than the run in order does (`maze_not_inOrder`).
-/

set_option autoImplicit false

namespace Amend

open FileTree StagedWrite

/-! ## The targets that are kept -/

/-- `files` has one spelling of each normal form of the targets, the first one, in the order in
which they are first given. -/
structure FirstSpellings (targets files : List Path) : Prop where
  all : ∀ p ∈ targets, ∃ q ∈ files, q.normalize = p.normalize
  distinct : files.Pairwise fun p q => p.normalize ≠ q.normalize
  first : ∀ p ∈ files, targets.find? (·.normalize = p.normalize) = some p
  ordered : files.Pairwise fun p q => targets.idxOf p < targets.idxOf q

theorem find?_of_mem_go {seen targets : List Path} :
    ∀ p ∈ distinctTargets.go seen targets,
      targets.find? (·.normalize = p.normalize) = some p := by
  induction targets generalizing seen with
  | nil => simp [distinctTargets.go]
  | cons target rest ih =>
    intro p hp
    rw [distinctTargets.go] at hp
    split at hp
    · next hseen =>
      have hne : target.normalize ≠ p.normalize := fun heq =>
        distinctTargets_go_notMem p hp (heq ▸ by simpa using hseen)
      simp [hne, ih p hp]
    · rcases List.mem_cons.mp hp with rfl | hp
      · simp
      · have hne : target.normalize ≠ p.normalize := fun heq =>
          distinctTargets_go_notMem p hp (heq ▸ List.mem_cons_self)
        simp [hne, ih p hp]

theorem ordered_go {seen targets : List Path} :
    (distinctTargets.go seen targets).Pairwise fun p q =>
      targets.idxOf p < targets.idxOf q := by
  induction targets generalizing seen with
  | nil => exact List.Pairwise.nil
  | cons target rest ih =>
    -- what is kept after the first target is not spelled as it, so it comes one position later
    have hlater {seen : List Path} (hseen : target.normalize ∈ seen) :
        ∀ p ∈ distinctTargets.go seen rest,
          (target :: rest).idxOf p = rest.idxOf p + 1 := by
      intro p hp
      have hne : target ≠ p := by
        rintro rfl
        exact distinctTargets_go_notMem _ hp hseen
      rw [List.idxOf_cons, beq_false_of_ne hne, cond_false]
    have hrest {seen : List Path} (hseen : target.normalize ∈ seen) :
        (distinctTargets.go seen rest).Pairwise fun p q =>
          (target :: rest).idxOf p < (target :: rest).idxOf q := by
      refine ih.imp_of_mem fun hp hq hlt => ?_
      rw [hlater hseen _ hp, hlater hseen _ hq]
      omega
    rw [distinctTargets.go]
    split
    · next hseen => exact hrest (by simpa using hseen)
    · refine List.pairwise_cons.mpr ⟨fun p hp => ?_, hrest List.mem_cons_self⟩
      rw [hlater List.mem_cons_self p hp, List.idxOf_cons_self]
      exact Nat.succ_pos _

theorem firstSpellings (targets : List Path) :
    FirstSpellings targets (distinctTargets targets) :=
  ⟨fun _ => exists_mem_distinctTargets, distinctTargets_pairwise targets, find?_of_mem_go,
    ordered_go⟩

theorem eq_of_mem_distinctTargets {targets : List Path} {p q : Path}
    (hp : p ∈ distinctTargets targets) (hq : q ∈ distinctTargets targets)
    (h : p.normalize = q.normalize) : p = q := by
  have hfirst := find?_of_mem_go p hp
  rw [h, find?_of_mem_go q hq] at hfirst
  exact (Option.some.inj hfirst).symm

theorem nodup_distinctTargets (targets : List Path) : (distinctTargets targets).Nodup :=
  (distinctTargets_pairwise targets).imp fun hne heq => hne (congrArg Path.normalize heq)

theorem mem_distinctTargets_iff {targets : List Path}
    (h : ∀ p ∈ targets, ∀ q ∈ targets, p.normalize = q.normalize → p = q) {p : Path} :
    p ∈ distinctTargets targets ↔ p ∈ targets := by
  refine ⟨mem_of_mem_distinctTargets, fun hp => ?_⟩
  obtain ⟨q, hq, hnormal⟩ := exists_mem_distinctTargets hp
  rwa [← h q (mem_of_mem_distinctTargets hq) p hp hnormal]

/-- Leaving out all spellings of some normal forms leaves the spellings that are kept of the
others. -/
theorem distinctTargets_filter (keep : Path → Bool) (targets : List Path) :
    distinctTargets (targets.filter fun p => keep p.normalize) =
      (distinctTargets targets).filter fun p => keep p.normalize := by
  suffices hgo : ∀ seen seen' : List Path, (∀ n, keep n → (n ∈ seen ↔ n ∈ seen')) →
      distinctTargets.go seen (targets.filter fun p => keep p.normalize) =
        (distinctTargets.go seen' targets).filter fun p => keep p.normalize from
    hgo [] [] fun _ _ => Iff.rfl
  induction targets with
  | nil => intro seen seen' _; rfl
  | cons target rest ih =>
    intro seen seen' hseen
    by_cases hkeep : keep target.normalize
    · have hiff := hseen _ hkeep
      rw [List.filter_cons, if_pos hkeep, distinctTargets.go, distinctTargets.go]
      simp only [List.contains_iff_mem, hiff]
      split
      · exact ih _ _ hseen
      · rw [List.filter_cons, if_pos hkeep,
          ih _ (target.normalize :: seen') fun n hn => by simp [hseen n hn]]
    · rw [List.filter_cons, if_neg hkeep, distinctTargets.go]
      split
      · exact ih _ _ hseen
      · rw [List.filter_cons, if_neg hkeep]
        refine ih _ _ fun n hn => ?_
        have hne : n ≠ target.normalize := fun heq => hkeep (heq ▸ hn)
        simp [hne, hseen n hn]

/-! ## Targets in order and alone -/

section
variable {s : Start} {t t' run alone : FileTree} {cwd : Location} {base p : Path}
  {targets targets' : List Path}

theorem Separate.sublist (h : Separate t cwd base targets) (hs : targets'.Sublist targets) :
    Separate t cwd base targets' :=
  ⟨h.wellFormed, h.apart.sublist hs⟩

theorem Separate.of_mem (h : Separate t cwd base targets) (hp : p ∈ targets) :
    Separate t cwd base [p] :=
  h.sublist (List.singleton_sublist.mpr hp)

theorem Separate.perm (h : Separate t cwd base targets) (hp : targets.Perm targets') :
    Separate t cwd base targets' :=
  ⟨h.wellFormed, h.apart.perm hp fun hpq F hq hp => hpq F hp hq⟩

/-- A target that nothing is written for leads to other files than those that are written for. -/
theorem Separate.apart_of_writes (h : Separate s.tree s.cwd s.base targets) (hp : p ∈ targets)
    (hnot : ∀ l d, ¬ s.Writes p l d) : ∀ q ∈ targets, ∀ l d, s.Writes q l d → s.Apart p q := by
  intro q hq l d hd
  have hne : p ≠ q := by
    rintro rfl
    exact hnot l d hd
  have : Std.Symm s.Apart := ⟨fun _ _ => Start.Apart.symm⟩
  exact (show targets.Pairwise s.Apart from h.apart).forall hp hq hne

/-- A target leads to the same entry after the run as after a run for it alone. -/
theorem Separate.entryAt_eq (h : Separate s.tree s.cwd s.base targets) (hp : p ∈ targets)
    (hrun : s.Wrote targets run) (halone : s.Wrote [p] alone) :
    run.entryAt s.cwd (s.base ++ p) = alone.entryAt s.cwd (s.base ++ p) := by
  -- a target that is written for leads to its own text, any other one to what it led to before
  by_cases hwrites : ∃ l d, s.Writes p l d
  · obtain ⟨l, d, hd⟩ := hwrites
    rw [hrun.entryAt_of_writes hp hd, halone.entryAt_of_writes List.mem_cons_self hd]
  · have hnot : ∀ l d, ¬ s.Writes p l d := fun l d hd => hwrites ⟨l, d, hd⟩
    rw [hrun.entryAt_eq h.wellFormed (h.apart_of_writes hp hnot),
      halone.entryAt_eq h.wellFormed fun q hq l d hd =>
        absurd (List.mem_singleton.mp hq ▸ hd) (hnot l d)]

end

/-! ## Runs in order -/

/-- The run in order. -/
def Start.inOrder (s : Start) (targets : List Path) : FileTree × List Outcome :=
  rewriteEach s.catalog s.cwd s.base s.mode (distinctTargets targets) s.tree

section
variable {s : Start} {p q : Path} {targets targets' : List Path} {l : Location}

theorem Start.inOrder_wrote (h : Separate s.tree s.cwd s.base (distinctTargets targets)) :
    (s.inOrder targets).2 = (distinctTargets targets).map s.foreseen ∧
      s.Wrote (distinctTargets targets) (s.inOrder targets).1 := by
  obtain ⟨t, heach, hwrote⟩ := h.rewriteEach_eq
  rw [Start.inOrder, heach]
  exact ⟨rfl, hwrote⟩

theorem Start.inOrder_single (h : Separate s.tree s.cwd s.base (distinctTargets targets))
    (hp : p ∈ distinctTargets targets) :
    (s.inOrder [p]).2 = [s.foreseen p] ∧ s.Wrote [p] (s.inOrder [p]).1 :=
  have hkept : Separate s.tree s.cwd s.base (distinctTargets [p]) := h.of_mem hp
  s.inOrder_wrote hkept

theorem Start.file_foreseen (h : Separate s.tree s.cwd s.base (distinctTargets targets))
    (hp : p ∈ distinctTargets targets) : (s.foreseen p).file = p := by
  have hfile := map_file_rewriteAtOnce s.catalog s.cwd s.base s.mode [] [p] s.tree
  rw [rewriteAtOnce_nil] at hfile
  have hsingle : (s.inOrder [p]).2.map Outcome.file = [p] := hfile
  rw [(s.inOrder_single h hp).1] at hsingle
  exact (List.cons.inj hsingle).1

/-- What a target changes alone is changed in the run. -/
theorem Start.get?_inOrder_of_changed
    (h : Separate s.tree s.cwd s.base (distinctTargets targets))
    (hp : p ∈ distinctTargets targets)
    (hl : (s.inOrder [p]).1.get? l ≠ s.tree.get? l) :
    (s.inOrder targets).1.get? l = (s.inOrder [p]).1.get? l := by
  have halone := (s.inOrder_single h hp).2
  obtain heq | ⟨q, hq, d, hd, hget⟩ := halone.get?_eq_or l
  · exact absurd heq hl
  · obtain rfl := List.mem_singleton.mp hq
    rw [hget, (s.inOrder_wrote h).2.get?_of_writes hp hd]

/-- What no target changes alone is not changed in the run. -/
theorem Start.get?_inOrder_of_unchanged
    (h : Separate s.tree s.cwd s.base (distinctTargets targets))
    (hl : ∀ p ∈ distinctTargets targets, (s.inOrder [p]).1.get? l = s.tree.get? l) :
    (s.inOrder targets).1.get? l = s.tree.get? l := by
  obtain heq | ⟨p, hp, d, hd, hget⟩ := (s.inOrder_wrote h).2.get?_eq_or l
  · exact heq
  · rw [hget, ← hl p hp, (s.inOrder_single h hp).2.get?_of_writes List.mem_cons_self hd]

/-- The order of the targets shows in the order of the outcomes only. -/
theorem Start.inOrder_perm (h : Separate s.tree s.cwd s.base (distinctTargets targets))
    (hsame : ∀ p, p ∈ distinctTargets targets' ↔ p ∈ distinctTargets targets) :
    (s.inOrder targets').1 = (s.inOrder targets).1 ∧
      (s.inOrder targets').2.Perm (s.inOrder targets).2 := by
  have hperm : (distinctTargets targets').Perm (distinctTargets targets) :=
    (List.perm_ext_iff_of_nodup (nodup_distinctTargets _) (nodup_distinctTargets _)).mpr
      fun p => hsame p
  obtain ⟨houtcomes, htree⟩ := s.inOrder_wrote h
  obtain ⟨houtcomes', htree'⟩ := s.inOrder_wrote (h.perm hperm.symm)
  rw [houtcomes, houtcomes']
  exact ⟨htree'.tree_eq htree fun p _ _ _ => hsame p, hperm.map _⟩

/-- A target that fails is as good as not given. -/
theorem Start.inOrder_without (h : Separate s.tree s.cwd s.base (distinctTargets targets))
    (hp : p ∈ distinctTargets targets) (hfails : (s.foreseen p).success = false) :
    let others := s.inOrder (targets.filter (·.normalize ≠ p.normalize))
    (s.inOrder [p]).1 = s.tree ∧ others.1 = (s.inOrder targets).1 ∧
      others.2 = (s.inOrder targets).2.filter (·.file.normalize ≠ p.normalize) := by
  intro others
  have hnot : ∀ l d, ¬ s.Writes p l d := by
    intro l d hd
    obtain ⟨result, -, hforeseen⟩ := hd.plan_eq
    rw [hforeseen] at hfails
    cases hfails
  have hkept := distinctTargets_filter (fun n => n ≠ p.normalize) targets
  obtain ⟨houtcomes, htree⟩ := s.inOrder_wrote h
  have hothers : Separate s.tree s.cwd s.base
      (distinctTargets (targets.filter (·.normalize ≠ p.normalize))) :=
    hkept ▸ h.sublist List.filter_sublist
  obtain ⟨houtcomes', htree'⟩ := s.inOrder_wrote hothers
  refine ⟨(s.inOrder_single h hp).2.tree_eq s.wrote_nil fun q l d hd => ?_,
    htree'.tree_eq htree fun q l d hd => ?_, ?_⟩
  · simp only [List.mem_singleton, List.not_mem_nil, iff_false]
    rintro rfl
    exact hnot l d hd
  · rw [hkept, List.mem_filter]
    refine and_iff_left_of_imp fun hq => decide_eq_true fun hnormal => ?_
    exact hnot l d (eq_of_mem_distinctTargets hq hp hnormal ▸ hd)
  · rw [houtcomes, List.filter_map]
    refine houtcomes'.trans (congrArg (List.map s.foreseen) (hkept.trans ?_))
    refine List.filter_congr fun q hq => ?_
    simp [s.file_foreseen h hq]

end

/-- In a run in order the outcomes are those of runs for each target alone, in the order of the
targets, and so is what stands where a target leads. What a target changes alone it changes in the
run, and nothing else changes. So another order of the targets gives the same tree and the same
outcomes in that order, and a target that fails leaves the tree as it was and is as good as not
given. Each outcome is under the first spelling of its target. -/
theorem rewrite_isolated (set : Settings) (c : Catalog) (cwd : Location) (targets : List Path)
    (t : FileTree) (h : Separate t cwd set.base (distinctTargets targets)) :
    let run := fun targets => { set with parallel := false }.rewrite c cwd targets t
    (run targets).2 = (distinctTargets targets).flatMap (fun p => (run [p]).2) ∧
    (∀ p ∈ distinctTargets targets, (run [p]).2.length = 1 ∧
      (run targets).1.entryAt cwd (set.base ++ p) = (run [p]).1.entryAt cwd (set.base ++ p) ∧
      ∀ l, (run [p]).1.get? l ≠ t.get? l → (run targets).1.get? l = (run [p]).1.get? l) ∧
    (∀ l, (∀ p ∈ distinctTargets targets, (run [p]).1.get? l = t.get? l) →
      (run targets).1.get? l = t.get? l) ∧
    (∀ targets', (∀ p, p ∈ distinctTargets targets' ↔ p ∈ distinctTargets targets) →
      (run targets').1 = (run targets).1 ∧ (run targets').2.Perm (run targets).2) ∧
    (∀ targets' : List Path, targets'.Perm targets →
      (∀ p ∈ targets, ∀ q ∈ targets, p.normalize = q.normalize → p = q) →
      (run targets').1 = (run targets).1 ∧ (run targets').2.Perm (run targets).2) ∧
    (∀ p ∈ distinctTargets targets, (∀ o ∈ (run [p]).2, o.success = false) →
      let others := run (targets.filter (·.normalize ≠ p.normalize))
      (run [p]).1 = t ∧ others.1 = (run targets).1 ∧
        others.2 = (run targets).2.filter (·.file.normalize ≠ p.normalize)) ∧
    FirstSpellings targets ((run targets).2.map Outcome.file) := by
  let s : Start := ⟨c, cwd, set.base, set.mode, t⟩
  intro run
  have hrun : run = s.inOrder := funext fun targets => Settings.rewrite_eq ..
  have hsingle {p : Path} (hp : p ∈ distinctTargets targets) : (run [p]).2 = [s.foreseen p] :=
    hrun ▸ (s.inOrder_single h hp).1
  have hfiles : (run targets).2.map Outcome.file = distinctTargets targets :=
    map_file_rewriteInTurns ..
  rw [hrun] at hsingle hfiles ⊢
  refine ⟨?_, fun p hp => ⟨?_, ?_, fun l => s.get?_inOrder_of_changed h hp⟩,
    fun l => s.get?_inOrder_of_unchanged h, fun targets' => s.inOrder_perm h,
    fun targets' hperm hspelling => s.inOrder_perm h fun p => ?_,
    fun p hp hfails => s.inOrder_without h hp ?_, ?_⟩
  · rw [(s.inOrder_wrote h).1, List.flatMap_def, List.map_congr_left fun p hp => hsingle hp,
      ← List.flatMap_def, List.map_eq_flatMap]
  · rw [hsingle hp]
    rfl
  · exact h.entryAt_eq hp (s.inOrder_wrote h).2 (s.inOrder_single h hp).2
  · rw [mem_distinctTargets_iff hspelling, mem_distinctTargets_iff fun q hq q' hq' =>
      hspelling q (hperm.mem_iff.mp hq) q' (hperm.mem_iff.mp hq'), hperm.mem_iff]
  · exact hfails _ (hsingle hp ▸ List.mem_singleton_self _)
  · exact hfiles ▸ firstSpellings targets

/-- A run that writes what it finds in the working directory. -/
def inPlaceHere : Settings :=
  ⟨⟨"."⟩, [], .builtIn, none, .inPlace, false⟩

theorem sideBySide_separate :
    Separate sideBySide ["p"] ⟨"."⟩ (distinctTargets [⟨"a.rs"⟩, ⟨"b.rs"⟩]) :=
  ⟨sideBySide_independent.wellFormed, sideBySide_independent.apart⟩

/-- A file and a link side by side may be rewritten in any order. -/
theorem sideBySide_isolated :
    let run := fun targets => inPlaceHere.rewrite sideBySideRules ["p"] targets sideBySide
    (run [⟨"b.rs"⟩, ⟨"a.rs"⟩]).1 = (run [⟨"a.rs"⟩, ⟨"b.rs"⟩]).1 ∧
      (run [⟨"b.rs"⟩, ⟨"a.rs"⟩]).2.Perm (run [⟨"a.rs"⟩, ⟨"b.rs"⟩]).2 :=
  (rewrite_isolated inPlaceHere sideBySideRules ["p"] [⟨"a.rs"⟩, ⟨"b.rs"⟩] sideBySide
    sideBySide_separate).2.2.2.2.1 _ (.swap _ _ _) (by decide)

/-! ## Paths that are cut short -/

/-- Links that lead through links: 26 to `f.rs` from `c`, and 51 from `d/c`. -/
def maze : FileTree :=
  ⟨[(["a"], .link ⟨"."⟩), (["b"], .link ⟨"a/a/a/a/a"⟩), (["d"], .link ⟨"b/b/b/b"⟩),
    (["c"], .link ⟨"d/f.rs"⟩), (["f.rs"], .file ⟨"u".toUTF8, 0o644, none⟩)]⟩

/-- Rules for `c`: `u` becomes `v`. -/
def mazeRules : Catalog :=
  let rule : Rule :=
    ⟨"r", none, { source := "u", regex := .set (· == 'u'), names := [] }, .substitution "v" none⟩
  ⟨[⟨"s", ⟨"c"⟩, [rule]⟩], []⟩

section
variable {t : FileTree} {n : Nat} {rest : List PathStep}

/-- Whether the first three links are as in the maze. -/
structure InMaze (t : FileTree) : Prop where
  a : t.get? ["a"] = some (.link ⟨"."⟩)
  b : t.get? ["b"] = some (.link ⟨"a/a/a/a/a"⟩)
  d : t.get? ["d"] = some (.link ⟨"b/b/b/b"⟩)

theorem reaches_link {name : String} {target : Path} (h : t.get? [name] = some (.link target))
    (hn : name.utf8ByteSize ≤ Path.nameLimit) :
    Reaches t ⟨n + 1, [], .into name :: rest⟩ ⟨n, [], target.steps ++ rest⟩ := by
  have horigin : target.origin [] = [] := ite_self []
  have hm : Moves t ⟨n + 1, [], .into name :: rest⟩ ⟨n, target.origin [], target.steps ++ rest⟩ :=
    .link rfl hn h
  rw [horigin] at hm
  exact .single hm

theorem InMaze.through_a (h : InMaze t) :
    Reaches t ⟨n + 1, [], .into "a" :: rest⟩ ⟨n, [], rest⟩ :=
  (reaches_link h.a (by decide)).trans (.single (.stay rfl))

theorem InMaze.through_b (h : InMaze t) :
    Reaches t ⟨n + 6, [], .into "b" :: rest⟩ ⟨n, [], rest⟩ :=
  (reaches_link h.b (by decide)).trans (h.through_a.trans (h.through_a.trans
    (h.through_a.trans (h.through_a.trans h.through_a))))

theorem InMaze.through_d (h : InMaze t) :
    Reaches t ⟨n + 25, [], .into "d" :: rest⟩ ⟨n, [], rest⟩ :=
  (reaches_link h.d (by decide)).trans
    (h.through_b.trans (h.through_b.trans (h.through_b.trans h.through_b)))

theorem inMaze : InMaze maze := ⟨rfl, rfl, rfl⟩

theorem get?_maze : maze.get? ["f.rs"] = some (.file ⟨"u".toUTF8, 0o644, none⟩) := rfl

theorem entryAt_maze_c : maze.entryAt [] ((⟨"."⟩ : Path) ++ (⟨"c"⟩ : Path)) =
    .ok (["f.rs"], .file ⟨"u".toUTF8, 0o644, none⟩) :=
  entryAt_eq_ok.mpr ⟨Path.fault?_eq_none.mpr (by decide), rfl, 14,
    .step (.stay rfl) (.step (.link rfl (by decide) rfl)
      (inMaze.through_d.trans (.single (.into rfl (by decide) rfl nofun))))⟩

theorem entryAt_maze_slash : maze.entryAt [] ((⟨"."⟩ : Path) ++ (⟨"f.rs/"⟩ : Path)) =
    .error .notADirectory := by
  have hwalk : Reaches maze ⟨40, [], [.stay, .into "f.rs", .stay]⟩ ⟨40, ["f.rs"], [.stay]⟩ :=
    .step (.stay rfl) (.single (.into rfl (by decide) get?_maze fun l hl => by cases hl))
  exact entryAt_of_halts (Path.fault?_eq_none.mpr (by decide)) hwalk
    (.noDirectory fun s hs => by cases hs)

/-- Before `c` is rewritten, there are too many links on the way of the second target. -/
theorem entryAt_maze : maze.entryAt [] ((⟨"."⟩ : Path) ++ (⟨"d/c/x"⟩ : Path)) =
    .error .tooManyLinks := by
  have hc : maze.get? ["c"] = some (.link ⟨"d/f.rs"⟩) := rfl
  have h₁ : Reaches maze ⟨40, [], [.stay, .into "d", .into "c", .into "x"]⟩
      ⟨15, [], [.into "c", .into "x"]⟩ := .step (.stay rfl) inMaze.through_d
  have h₂ : Reaches maze ⟨15, [], [.into "c", .into "x"]⟩
      ⟨13, [], [.into "b", .into "b", .into "b", .into "b", .into "f.rs", .into "x"]⟩ :=
    (reaches_link hc (by decide)).trans (reaches_link inMaze.d (by decide))
  have h₃ : Reaches maze ⟨13, [], [.into "b", .into "b", .into "b", .into "b", .into "f.rs",
      .into "x"]⟩ ⟨1, [], [.into "b", .into "b", .into "f.rs", .into "x"]⟩ :=
    inMaze.through_b.trans inMaze.through_b
  have h₄ : Reaches maze ⟨1, [], [.into "b", .into "b", .into "f.rs", .into "x"]⟩
      ⟨0, [], [.into "a", .into "a", .into "a", .into "a", .into "a", .into "b", .into "f.rs",
        .into "x"]⟩ := reaches_link inMaze.b (by decide)
  exact entryAt_of_halts (Path.fault?_eq_none.mpr (by decide))
    (h₁.trans (h₂.trans (h₃.trans h₄)))
    (.tooManyLinks rfl (by decide) rfl)

/-- Once `c` is a file, the walk comes to it and cannot go on. -/
theorem entryAt_maze_set (d : FileData) :
    (maze.set ["c"] (.file d)).entryAt [] ((⟨"."⟩ : Path) ++ (⟨"d/c/x"⟩ : Path)) =
      .error .notADirectory := by
  have hmaze : InMaze (maze.set ["c"] (.file d)) := ⟨rfl, rfl, rfl⟩
  have h₁ : Reaches (maze.set ["c"] (.file d))
      ⟨40, [], [.stay, .into "d", .into "c", .into "x"]⟩ ⟨15, [], [.into "c", .into "x"]⟩ :=
    .step (.stay rfl) hmaze.through_d
  have h₂ : Reaches (maze.set ["c"] (.file d)) ⟨15, [], [.into "c", .into "x"]⟩
      ⟨15, ["c"], [.into "x"]⟩ := .single (.into rfl (by decide) rfl nofun)
  exact entryAt_of_halts (Path.fault?_eq_none.mpr (by decide)) (h₁.trans h₂)
    (.noDirectory fun s hs => by cases hs)

theorem rewriteFile_maze :
    ∃ d result, rewriteFile noFaults maze [] ⟨"."⟩ .inPlace ⟨"c"⟩ (mazeRules.setFor ⟨"c"⟩) =
      (maze.set ["c"] (.file d), .succeeded ⟨"c"⟩ .rewritten result) := by
  have hwalk : Reaches maze ⟨26, [], [.into "d", .into "f.rs"]⟩ ⟨1, ["f.rs"], []⟩ :=
    inMaze.through_d.trans (.single (.into rfl (by decide) rfl nofun))
  have hslot : Slot maze [] ((⟨"."⟩ : Path) ++ (⟨"c"⟩ : Path)) [] "c" :=
    ⟨Path.fault?_eq_none.mpr (by decide), by decide, by decide, by decide, ⟨_, rfl⟩, 40,
      .single (.stay rfl)⟩
  have hstood : EndsIn maze ([] ++ ["c"]) ["f.rs"] := .link rfl rfl hwalk
  exact ⟨_, _, Site.rewriteFile_eq ⟨entryAt_maze_c, hslot, hstood⟩ rfl
    (Path.fault?_eq_none.mpr (by decide)) (FileData.text?_toUTF8 "u" _ _) (by decide +kernel)⟩

end

/-- Before `c` is rewritten, the second target fails for its links in either mode. -/
theorem rewriteFile_maze_cut (mode : WriteMode) (set : RuleSet) :
    rewriteFile noFaults maze [] ⟨"."⟩ mode ⟨"d/c/x"⟩ set =
      (maze, .failed ⟨"d/c/x"⟩ (.readFailure ⟨"./d/c/x"⟩ .tooManyLinks)) :=
  rewriteFile_of_unreadable entryAt_maze nofun

theorem distinctTargets_maze :
    distinctTargets [⟨"c"⟩, ⟨"d/c/x"⟩] = [⟨"c"⟩, ⟨"d/c/x"⟩] := by decide

/-- After `c` the second target fails for another reason. -/
theorem rewrite_maze : ∃ t result,
    inPlaceHere.rewrite mazeRules [] [⟨"c"⟩, ⟨"d/c/x"⟩] maze =
      (t, [.succeeded ⟨"c"⟩ .rewritten result,
        .failed ⟨"d/c/x"⟩ (.readFailure ⟨"./d/c/x"⟩ .notADirectory)]) := by
  obtain ⟨d, result, hfirst⟩ := rewriteFile_maze
  have hsecond (set : RuleSet) :
      rewriteFile noFaults (maze.set ["c"] (.file d)) [] ⟨"."⟩ .inPlace ⟨"d/c/x"⟩ set =
        (maze.set ["c"] (.file d), .failed ⟨"d/c/x"⟩ (.readFailure ⟨"./d/c/x"⟩ .notADirectory)) :=
    rewriteFile_of_unreadable (entryAt_maze_set d) nofun
  refine ⟨maze.set ["c"] (.file d), result, ?_⟩
  rw [inPlaceHere, Settings.rewrite_eq, distinctTargets_maze]
  simp only [rewriteEach, hfirst, hsecond]

theorem rewrite_maze_alone :
    (inPlaceHere.rewrite mazeRules [] [⟨"d/c/x"⟩] maze).2 =
      [.failed ⟨"d/c/x"⟩ (.readFailure ⟨"./d/c/x"⟩ .tooManyLinks)] := by
  have hkept : distinctTargets [⟨"d/c/x"⟩] = [⟨"d/c/x"⟩] := by decide
  rw [inPlaceHere, Settings.rewrite_eq, hkept]
  simp only [rewriteEach, rewriteFile_maze_cut]

/-- The second of these targets leads to no file, but it fails for one reason alone and for another
after the first. Of two spellings, one of which leads to no file, only the first in the list counts,
so the list in the other order has another outcome. -/
theorem maze_not_isolated :
    let run := fun targets => inPlaceHere.rewrite mazeRules [] targets maze
    ((∀ F d, maze.entryAt [] ((⟨"."⟩ : Path) ++ (⟨"d/c/x"⟩ : Path)) ≠ .ok (F, .file d)) ∧
      (run [⟨"c"⟩, ⟨"d/c/x"⟩]).2[1]? ≠ (run [⟨"d/c/x"⟩]).2[0]?) ∧
    (∀ F d, maze.entryAt [] ((⟨"."⟩ : Path) ++ (⟨"f.rs/"⟩ : Path)) ≠ .ok (F, .file d)) ∧
      ¬ (run [⟨"f.rs/"⟩, ⟨"f.rs"⟩]).2.Perm (run [⟨"f.rs"⟩, ⟨"f.rs/"⟩]).2 := by
  intro run
  refine ⟨⟨fun F d => ?_, ?_⟩, fun F d => ?_, fun hperm => ?_⟩
  · intro h
    cases entryAt_maze.symm.trans h
  · obtain ⟨t, result, hrun⟩ := rewrite_maze
    simp only [run, hrun, rewrite_maze_alone]
    rw [List.getElem?_cons_succ, List.getElem?_cons_zero, List.getElem?_cons_zero]
    decide
  · intro h
    cases entryAt_maze_slash.symm.trans h
  · have hfiles := hperm.map Outcome.file
    simp only [run, Settings.rewrite, map_file_rewriteInTurns] at hfiles
    exact absurd hfiles (by decide)

/-- The worker of the second target reads before the first one writes. -/
theorem rewriteAtOnce_maze : ∃ t result,
    rewriteAtOnce mazeRules [] ⟨"."⟩ .inPlace [.step 1] [⟨"c"⟩, ⟨"d/c/x"⟩] maze =
      (t, [.succeeded ⟨"c"⟩ .rewritten result,
        .failed ⟨"d/c/x"⟩ (.readFailure ⟨"./d/c/x"⟩ .tooManyLinks)]) := by
  obtain ⟨d, result, hfirst⟩ := rewriteFile_maze
  have hsecond : planFile noFaults maze [] ⟨"."⟩ .inPlace ⟨"d/c/x"⟩ (mazeRules.setFor ⟨"d/c/x"⟩) =
      .settled (.failed ⟨"d/c/x"⟩ (.readFailure ⟨"./d/c/x"⟩ .tooManyLinks)) :=
    planFile_of_unreadable entryAt_maze nofun
  have hturn : takeTurns mazeRules [] ⟨"."⟩ .inPlace [.step 1] maze
      [⟨⟨"c"⟩, .waiting⟩, ⟨⟨"d/c/x"⟩, .waiting⟩] =
        (maze, [⟨⟨"c"⟩, .waiting⟩, ⟨⟨"d/c/x"⟩,
          .ofPlan (planFile noFaults maze [] ⟨"."⟩ .inPlace ⟨"d/c/x"⟩
            (mazeRules.setFor ⟨"d/c/x"⟩))⟩]) := rfl
  refine ⟨maze.set ["c"] (.file d), result, ?_⟩
  simp only [rewriteAtOnce, List.map_cons, List.map_nil, hturn, hsecond, finishEach,
    Progress.finish_waiting, hfirst, Progress.ofPlan, Progress.finish_finished]

/-- No two of these targets lead to one file, and none of them asks for a temporary file. But the
second, which leads to no file, fails for another reason if it is read before the first is written
than it does in a run in order. -/
theorem maze_not_inOrder :
    let targets := distinctTargets [⟨"c"⟩, ⟨"d/c/x"⟩]
    maze.WellFormed ∧
    (∀ p ∈ targets, maze.AvoidsTemps (((⟨"."⟩ : Path) ++ p).stage linkLimit [])) ∧
    (targets.Pairwise fun p q => ∀ F d d',
      maze.entryAt [] ((⟨"."⟩ : Path) ++ p) = .ok (F, .file d) →
        maze.entryAt [] ((⟨"."⟩ : Path) ++ q) ≠ .ok (F, .file d')) ∧
    (rewriteAtOnce mazeRules [] ⟨"."⟩ .inPlace [.step 1] targets maze).2 ≠
      (inPlaceHere.rewrite mazeRules [] [⟨"c"⟩, ⟨"d/c/x"⟩] maze).2 := by
  intro targets
  have htargets : targets = [⟨"c"⟩, ⟨"d/c/x"⟩] := distinctTargets_maze
  obtain ⟨t, result, hrun⟩ := rewriteAtOnce_maze
  obtain ⟨t', result', horder⟩ := rewrite_maze
  rw [htargets, hrun, horder]
  refine ⟨wellFormed_of_entries (by decide), fun p hp => ?_, ?_, ?_⟩
  · refine avoidsTemps_of_entries ?_ (by decide)
    rcases List.mem_pair.mp hp with rfl | rfl
    · decide
    · decide
  · refine List.pairwise_pair.mpr fun F d d' _ h => ?_
    cases entryAt_maze.symm.trans h
  · intro heq
    have hfailed := (List.cons.inj (List.cons.inj heq).2).1
    revert hfailed
    decide

end Amend
