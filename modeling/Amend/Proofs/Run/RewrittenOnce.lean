import Amend.Proofs.Landing
import Amend.Proofs.Run.Bounded
import Amend.Proofs.Run.InOrder

/-!
# Which targets are rewritten together

In a tree without links, whatever is rewritten leads to a file at its landing, and no file is
rewritten twice exactly if no two targets that are rewritten have one landing
(`rewrittenOnce_iff`). Targets are told apart by their normal forms. That is enough for targets of
one kind without `..`, but other spellings of a file are not recognized, and it is rewritten again
for each of them (`rewriteEach_twice`).
-/

set_option autoImplicit false

namespace Amend

open FileTree StagedWrite

/-! ## Trees without links -/

/-- There are no symbolic links. -/
def FileTree.LinkFree (t : FileTree) : Prop :=
  ∀ l target, t.get? l ≠ some (.link target)

section
variable {t t' : FileTree} {a b : Stage} {cwd l F : Location} {p : Path} {e : Entry} {d : FileData}
  {P : Location → Prop}

theorem landing_of_reaches (h : t.LinkFree) (hr : Reaches t a b) :
    b.steps.foldl PathStep.leadFrom b.loc = a.steps.foldl PathStep.leadFrom a.loc := by
  induction hr with
  | refl => rfl
  | step hm _ ih =>
    rw [ih]
    cases hm with
    | stay | up | into => rfl
    | link _ _ he => exact absurd he (h _ _)

theorem landing_of_entryAt (h : t.LinkFree) (he : t.entryAt cwd p = .ok (l, e)) :
    l = p.landing cwd := by
  obtain ⟨-, -, m, hr⟩ := entryAt_eq_ok.mp he
  exact landing_of_reaches h hr

theorem FileTree.EndsIn.eq_of_linkFree (h : EndsIn t l F) (hfree : t.LinkFree) : l = F := by
  cases h with
  | file => rfl
  | link he => exact absurd he (hfree _ _)

theorem FileTree.LinkFree.altered (h : t.LinkFree) (ha : Altered t P t') : t'.LinkFree := by
  intro l target hl
  rcases ha l with hsame | ⟨-, -, -, -, d, hd⟩ | ⟨F, -, -, d, hd⟩
  · exact h l target (hsame ▸ hl)
  · rw [hl] at hd; cases hd
  · rw [hl] at hd; cases hd

/-- In a tree without links, a walk through the altered tree is one through the tree before unless
it asks for something new. -/
theorem reaches_of_altered (h : Altered t P t') (hfree : t.LinkFree)
    (hnew : KeepsGaps t t' a) (hr : Reaches t' a b) : Reaches t a b := by
  induction hr with
  | refl => exact .refl _
  | @step a c b hm _ ih =>
    have hm' : Moves t a c := by
      cases hm with
      | stay hd => exact .stay (h.dir_iff.mp hd)
      | up hd => exact .up (h.dir_iff.mp hd)
      | @into n loc name rest s e hd hn he hl =>
        rcases h (loc ++ [name]) with hsame | ⟨hnone, -⟩ | ⟨F, -, hE, d, -⟩
        · exact .into (h.dir_iff.mp hd) hn (hsame ▸ he) hl
        · rw [hnew _ _ _ _ (.refl _) hnone] at he
          cases he
        · obtain ⟨d', hF⟩ := hE.isFile
          rw [← hE.eq_of_linkFree hfree] at hF
          exact .into (h.dir_iff.mp hd) hn hF nofun
      | link _ _ he => exact absurd he (hfree.altered h _ _)
    exact .step hm' (ih (hnew.moves hm'))

theorem entryAt_of_altered (h : Altered t P t') (hfree : t.LinkFree)
    (hnew : KeepsGaps t t' (p.stage linkLimit cwd))
    (he : t'.entryAt cwd p = .ok (F, .file d)) (hF : t.get? F ≠ none) :
    ∃ d, t.entryAt cwd p = .ok (F, .file d) := by
  obtain ⟨hfault, hget, m, hr⟩ := entryAt_eq_ok.mp he
  have hr' := reaches_of_altered h hfree hnew hr
  rcases h F with hsame | ⟨hnone, -⟩ | ⟨F', -, hE, -⟩
  · exact ⟨d, entryAt_eq_ok.mpr ⟨hfault, hsame ▸ hget, m, hr'⟩⟩
  · exact absurd hnone hF
  · obtain ⟨d', hF'⟩ := hE.isFile
    rw [← hE.eq_of_linkFree hfree] at hF'
    exact ⟨d', entryAt_eq_ok.mpr ⟨hfault, hF', m, hr'⟩⟩

end

/-! ## Runs in order -/

section
variable {t t' : FileTree} {cwd : Location} {base : Path} {mode : WriteMode} {c : Catalog}

/-- Files have been overwritten, and nothing else has changed. -/
def OnlyFiles (t t' : FileTree) : Prop :=
  Altered t (fun _ => True) t' ∧ ∀ l, t.get? l = none → t'.get? l = none

theorem OnlyFiles.entryAt {p : Path} {F : Location} {d : FileData} (h : OnlyFiles t t')
    (hfree : t.LinkFree) (he : t'.entryAt cwd p = .ok (F, .file d)) :
    ∃ d, t.entryAt cwd p = .ok (F, .file d) := by
  refine entryAt_of_altered h.1 hfree (fun _ _ _ _ _ => h.2 _) he fun hnone => ?_
  obtain ⟨-, hF, -⟩ := entryAt_eq_ok.mp he
  rw [h.2 F hnone] at hF
  cases hF

theorem OnlyFiles.rewritten {t'' : FileTree} {p : Path} {text : List Char} {slot file : Location}
    {old : FileData} (h : OnlyFiles t t') (hfree : t.LinkFree)
    (hr : Rewritten t' t'' cwd p text slot file old) : OnlyFiles t t'' := by
  obtain rfl := hr.stood.eq_of_linkFree (hfree.altered h.1)
  obtain ⟨-, hslot, -⟩ := entryAt_eq_ok.mp hr.leads
  obtain ⟨d, he⟩ := h.entryAt hfree hr.led
  obtain ⟨-, hold, -⟩ := entryAt_eq_ok.mp he
  refine ⟨fun l => ?_, fun l hl => ?_⟩
  · by_cases heq : l = slot
    · subst heq
      exact .inr (.inr ⟨l, trivial, .file hold, _, hslot⟩)
    · rw [hr.others l heq]
      exact h.1 l
  · rw [hr.others l, h.2 l hl]
    rintro rfl
    rw [hold] at hl
    cases hl

/-- What is rewritten in a run in order led to a file before the run. -/
theorem rewriteEach_leads (hfree : t.LinkFree) (targets : List Path) (h : OnlyFiles t t') :
    ∀ (i : Nat) p o, targets[i]? = some p →
      (rewriteEach c cwd base mode targets t').2[i]? = some o → o.status = .rewritten →
        ∃ F d, t.entryAt cwd (base ++ p) = .ok (F, .file d) := by
  induction targets generalizing t' with
  | nil => simp
  | cons target rest ih =>
    intro i p o hp ho hstatus
    rw [rewriteEach] at ho
    rcases rewriteFile_cases noFaults t' cwd base mode target (c.setFor target) with
      ⟨o', heq, hsettled⟩ | ⟨-, old, result, -, -, -, ⟨t'', slot, file, d, heq, hr⟩ | ⟨e, heq⟩⟩
    · rw [heq] at ho
      cases i with
      | zero =>
        cases ho
        rw [hstatus] at hsettled
        simp at hsettled
      | succ i => exact ih h i p o hp ho hstatus
    · rw [heq] at ho
      cases i with
      | zero =>
        cases hp
        obtain ⟨d, hled⟩ := h.entryAt hfree hr.led
        exact ⟨file, d, hled⟩
      | succ i => exact ih (h.rewritten hfree hr) i p o hp ho hstatus
    · rw [heq] at ho
      cases i with
      | zero =>
        cases ho
        cases hstatus
      | succ i => exact ih h i p o hp ho hstatus

end

/-! ## Runs with workers -/

section
variable {s : Start} {p : Path} {targets : List Path}

/-- In a tree without links, what a worker finds to be a file was one before the run, unless its
target asks for a temporary file. -/
theorem Start.recognizes_of_linkFree (hlinks : s.tree.LinkFree) (hw : s.tree.WellFormed)
    (hp : s.tree.AvoidsTemps ((s.base ++ p).stage linkLimit s.cwd)) : s.Recognizes p := by
  intro t ht F d he
  have hnew := hp.keepsGaps ht
  refine ⟨F, entryAt_of_altered ht hlinks hnew he ?_⟩
  obtain ⟨hfault, -, m, hr⟩ := entryAt_eq_ok.mp he
  have hsteps := Path.steps_ne_nil (Path.fault?_eq_none.mp hfault).2.1
  rcases (reaches_of_altered ht hlinks hnew hr).stands hw (.inl hsteps) with hne | ⟨e, hF, -⟩
  · exact absurd rfl hne
  · exact fun hnone => by rw [hnone] at hF; cases hF

/-- What is rewritten in a parallel run led to a file before the run. -/
theorem rewriteAtOnce_leads (hlinks : s.tree.LinkFree) (hw : s.tree.WellFormed)
    (hp : ∀ p ∈ targets, s.tree.AvoidsTemps ((s.base ++ p).stage linkLimit s.cwd))
    (turns : List Turn) :
    ∀ (i : Nat) p o, targets[i]? = some p →
      (rewriteAtOnce s.catalog s.cwd s.base s.mode turns targets s.tree).2[i]? = some o →
        o.status = .rewritten → s.Led p := by
  obtain ⟨turns', workers, hafter, hmap, -⟩ := s.exists_end turns targets
  intro i p o hi ho hstatus
  have hbounded := s.bounded_after
    (fun p hmem => s.recognizes_of_linkFree hlinks hw (hp p hmem)) turns'
  have htargets := s.targets_after turns' targets
  rw [hafter] at hbounded htargets
  have hk := (getElem?_of_finished htargets hmap).mpr ⟨hi, ho⟩
  exact hbounded.knows _ (List.mem_of_getElem? hk) hstatus

end

/-! ## Files that are rewritten once -/

/-- The outcomes of a run: with the settings as they are, or with workers that take turns and
targets that ask for no temporary file. -/
inductive OutcomesOf (set : Settings) (c : Catalog) (cwd : Location) (targets : List Path)
    (t : FileTree) : List Outcome → Prop
  | rewrite : OutcomesOf set c cwd targets t (set.rewrite c cwd targets t).2
  | atOnce (turns : List Turn) : t.WellFormed →
      (∀ p ∈ distinctTargets targets, t.AvoidsTemps ((set.base ++ p).stage linkLimit cwd)) →
      OutcomesOf set c cwd targets t
        (rewriteAtOnce c cwd set.base set.mode turns (distinctTargets targets) t).2

/-- The targets at two positions were both rewritten. -/
structure BothRewritten (targets : List Path) (outcomes : List Outcome) (p q : Path) : Prop where
  both : ∃ (i j : Nat) (o o' : Outcome), i ≠ j ∧
    targets[i]? = some p ∧ outcomes[i]? = some o ∧ o.status = .rewritten ∧
    targets[j]? = some q ∧ outcomes[j]? = some o' ∧ o'.status = .rewritten

/-- The file that a path leads to. -/
def LeadsToFile (t : FileTree) (cwd : Location) (p : Path) (F : Location) : Prop :=
  ∃ d, t.entryAt cwd p = .ok (F, .file d)

/-- Targets that are rewritten lead to different files. -/
def RewrittenOnce (t : FileTree) (cwd : Location) (base : Path) (targets : List Path)
    (outcomes : List Outcome) : Prop :=
  ∀ p q, BothRewritten targets outcomes p q →
    ∀ F, LeadsToFile t cwd (base ++ p) F → ¬ LeadsToFile t cwd (base ++ q) F

theorem leads_of_outcomesOf {set : Settings} {c : Catalog} {cwd : Location} {targets : List Path}
    {t : FileTree} {outcomes : List Outcome} (hlinks : t.LinkFree)
    (h : OutcomesOf set c cwd targets t outcomes) {i : Nat} {p : Path} {o : Outcome}
    (hp : (distinctTargets targets)[i]? = some p) (ho : outcomes[i]? = some o)
    (hstatus : o.status = .rewritten) :
    LeadsToFile t cwd (set.base ++ p) ((set.base ++ p).landing cwd) := by
  have hled : ∃ F d, t.entryAt cwd (set.base ++ p) = .ok (F, .file d) := by
    cases h with
    | rewrite =>
      rw [Settings.rewrite_eq] at ho
      exact rewriteEach_leads hlinks _ ⟨altered_refl t, fun _ => id⟩ i p o hp ho hstatus
    | atOnce turns hw havoid =>
      exact rewriteAtOnce_leads (s := ⟨c, cwd, set.base, set.mode, t⟩) hlinks hw havoid turns i p o
        hp ho hstatus
  obtain ⟨F, d, hF⟩ := hled
  exact ⟨d, landing_of_entryAt hlinks hF ▸ hF⟩

/-- In a tree without links, what is rewritten leads to a file at its landing, so no file is
rewritten twice exactly if no two targets that are rewritten have one landing. This is so if none
of the targets climbs and all of them start at the root or none does. -/
theorem rewrittenOnce_iff (set : Settings) (c : Catalog) (cwd : Location) (targets : List Path)
    (t : FileTree) (outcomes : List Outcome) (hlinks : t.LinkFree)
    (h : OutcomesOf set c cwd targets t outcomes) :
    (∀ (i : Nat) p o, (distinctTargets targets)[i]? = some p → outcomes[i]? = some o →
      o.status = .rewritten →
        LeadsToFile t cwd (set.base ++ p) ((set.base ++ p).landing cwd)) ∧
    (RewrittenOnce t cwd set.base (distinctTargets targets) outcomes ↔
      ∀ p q, BothRewritten (distinctTargets targets) outcomes p q →
        (set.base ++ p).landing cwd ≠ (set.base ++ q).landing cwd) ∧
    ((∃ absolute, ∀ p ∈ targets, p.isAbsolute = absolute ∧ p.climbs = false) →
      RewrittenOnce t cwd set.base (distinctTargets targets) outcomes) := by
  have hleads : ∀ (i : Nat) p o, (distinctTargets targets)[i]? = some p → outcomes[i]? = some o →
      o.status = .rewritten → LeadsToFile t cwd (set.base ++ p) ((set.base ++ p).landing cwd) :=
    fun i p o hp ho hstatus => leads_of_outcomesOf hlinks h hp ho hstatus
  have honce : ∀ p q, BothRewritten (distinctTargets targets) outcomes p q →
      ((∀ F, LeadsToFile t cwd (set.base ++ p) F → ¬ LeadsToFile t cwd (set.base ++ q) F) ↔
        (set.base ++ p).landing cwd ≠ (set.base ++ q).landing cwd) := by
    rintro p q ⟨i, j, o, o', -, hp, ho, hstatus, hq, ho', hstatus'⟩
    have hF := hleads i p o hp ho hstatus
    have hF' := hleads j q o' hq ho' hstatus'
    constructor
    · intro hdiff heq
      exact hdiff _ hF (heq ▸ hF')
    · rintro hne F ⟨d, hd⟩ ⟨d', hd'⟩
      exact hne ((landing_of_entryAt hlinks hd).symm.trans (landing_of_entryAt hlinks hd'))
  have hiff : RewrittenOnce t cwd set.base (distinctTargets targets) outcomes ↔
      ∀ p q, BothRewritten (distinctTargets targets) outcomes p q →
        (set.base ++ p).landing cwd ≠ (set.base ++ q).landing cwd :=
    forall₂_congr fun p q => forall_congr' (honce p q)
  refine ⟨hleads, hiff, ?_⟩
  rintro ⟨absolute, hkind⟩
  rw [hiff]
  rintro p q ⟨i, j, o, o', hij, hp, -, -, hq, -, -⟩ heq
  obtain ⟨habs, hclimbs⟩ := hkind p (mem_of_mem_distinctTargets (List.mem_of_getElem? hp))
  obtain ⟨habs', hclimbs'⟩ := hkind q (mem_of_mem_distinctTargets (List.mem_of_getElem? hq))
  rw [Path.landing_append, Path.landing_append] at heq
  have hnormal := Path.normalize_eq_of_landing_eq hclimbs hclimbs' (habs.trans habs'.symm) heq
  obtain ⟨hi, rfl⟩ := List.getElem?_eq_some_iff.mp hp
  obtain ⟨hj, rfl⟩ := List.getElem?_eq_some_iff.mp hq
  have hdistinct := List.pairwise_iff_getElem.mp (distinctTargets_pairwise targets)
  rcases Nat.lt_or_gt_of_ne hij with hlt | hlt
  · exact hdistinct i j hi hj hlt hnormal
  · exact hdistinct j i hj hi hlt hnormal.symm

/-! ## Rewriting one file twice -/

section
variable {t : FileTree} {cwd : Location} {base p q : Path} {F : Location} {old : FileData}
  {text : String} {c : Catalog}

/-- Two targets that lead to one file are both rewritten if the rules for the second change what
those for the first make of its text. -/
theorem rewriteEach_twice (hlinks : t.LinkFree) (hw : t.WellFormed)
    (hp : t.entryAt cwd (base ++ p) = .ok (F, .file old))
    (hq : t.entryAt cwd (base ++ q) = .ok (F, .file old))
    (hd : t.get? F.dropLast = some (.dir false)) (htemp : tempFault? cwd (base ++ p) = none)
    (htemp' : tempFault? cwd (base ++ q) = none) (htext : old.text? = some text)
    (hne : (Rule.applyAll (c.setFor p).rules text.toList).text ≠ text.toList)
    (hne' : (Rule.applyAll (c.setFor q).rules
      (Rule.applyAll (c.setFor p).rules text.toList).text).text ≠
        (Rule.applyAll (c.setFor p).rules text.toList).text) :
    BothRewritten [p, q] (rewriteEach c cwd base .inPlace [p, q] t).2 p q := by
  obtain ⟨dir, name, hsite⟩ := exists_site hw hp
  obtain ⟨dir', name', hsite'⟩ := exists_site hw hq
  obtain rfl := hsite.stood.eq_of_linkFree hlinks
  obtain ⟨rfl, hname⟩ := List.append_inj' (hsite'.stood.eq_of_linkFree hlinks) rfl
  obtain rfl := (List.cons.inj hname).1
  rw [List.dropLast_concat] at hd
  have hfirst := hsite.rewriteFile_eq hd htemp htext hne
  generalize hresult : Rule.applyAll (c.setFor p).rules text.toList = result at hfirst hne'
  generalize hdata : (⟨(String.ofList result.text).toUTF8, old.mode, none⟩ : FileData) = data
    at hfirst
  have haltered : Altered t (· = dir' ++ [name']) (t.set (dir' ++ [name']) (.file data)) :=
    altered_set hsite'.stood
  have hdata' : (t.set (dir' ++ [name']) (.file data)).get? (dir' ++ [name']) =
      some (.file data) := get?_set_self (by simp)
  have hslot := hsite'.slot.altered haltered
  have htext' : data.text? = some (.ofList result.text) := hdata ▸ FileData.text?_toUTF8 ..
  rw [← String.toList_ofList (l := result.text)] at hne'
  have hsecond := (Site.mk (hslot.entryAt hdata') hslot (.file hdata')).rewriteFile_eq
    (haltered.dir_iff.mpr hd) htemp' htext' hne'
  simp only [rewriteEach, hfirst, hsecond]
  exact ⟨0, 1, _, _, Nat.zero_ne_one, rfl, rfl, rfl, rfl, rfl, rfl⟩

end

/-! ## An instance -/

/-- A file in a directory of its own. -/
def oneFile : FileTree :=
  ⟨[(["p"], .dir false), (["p", "src"], .dir false),
    (["p", "src", "a.rs"], .file ⟨"x".toUTF8, 0o644, none⟩)]⟩

/-- Rules for two spellings of it: `x` becomes `y`, and `y` becomes `z`. -/
def rulesInTurn : Catalog :=
  let rule (c : Char) (text : String) : Rule :=
    ⟨"r", none, { source := "x", regex := .set (· == c), names := [] }, .substitution text none⟩
  ⟨[⟨"s", ⟨"src/a.rs"⟩, [rule 'x' "y"]⟩, ⟨"s", ⟨"src/../src/a.rs"⟩, [rule 'y' "z"]⟩], []⟩

theorem oneFile_linkFree : oneFile.LinkFree := by
  intro l target hl
  have hne : l ≠ [] := by
    rintro rfl
    cases hl
  simpa [oneFile] using mem_of_get? hne hl

/-- The file of two spellings is rewritten twice. -/
theorem oneFile_not_rewrittenOnce :
    ¬ RewrittenOnce oneFile ["p"] ⟨"."⟩ (distinctTargets [⟨"src/a.rs"⟩, ⟨"src/../src/a.rs"⟩])
      (Settings.rewrite ⟨⟨"."⟩, [], .builtIn, none, .inPlace, false⟩ rulesInTurn ["p"]
        [⟨"src/a.rs"⟩, ⟨"src/../src/a.rs"⟩] oneFile).2 := by
  have htargets : distinctTargets [⟨"src/a.rs"⟩, ⟨"src/../src/a.rs"⟩] =
      [⟨"src/a.rs"⟩, ⟨"src/../src/a.rs"⟩] := by decide
  have hfirst : oneFile.entryAt ["p"] ((⟨"."⟩ : Path) ++ (⟨"src/a.rs"⟩ : Path)) =
      .ok (["p", "src", "a.rs"], .file ⟨"x".toUTF8, 0o644, none⟩) :=
    entryAt_eq_ok.mpr ⟨Path.fault?_eq_none.mpr (by decide), rfl, 40,
      .step (.stay rfl) (.step (.into rfl (by decide) rfl nofun)
        (.single (.into rfl (by decide) rfl nofun)))⟩
  have hsecond : oneFile.entryAt ["p"] ((⟨"."⟩ : Path) ++ (⟨"src/../src/a.rs"⟩ : Path)) =
      .ok (["p", "src", "a.rs"], .file ⟨"x".toUTF8, 0o644, none⟩) :=
    entryAt_eq_ok.mpr ⟨Path.fault?_eq_none.mpr (by decide), rfl, 40,
      .step (.stay rfl) (.step (.into rfl (by decide) rfl nofun) (.step (.up rfl)
        (.step (.into rfl (by decide) rfl nofun)
          (.single (.into rfl (by decide) rfl nofun)))))⟩
  have htwice := rewriteEach_twice (c := rulesInTurn) oneFile_linkFree
    (wellFormed_of_entries (by decide)) hfirst hsecond rfl
    (Path.fault?_eq_none.mpr (by decide)) (Path.fault?_eq_none.mpr (by decide))
    (FileData.text?_toUTF8 "x" _ _) (by decide +kernel) (by decide +kernel)
  rw [(rewrittenOnce_iff ⟨⟨"."⟩, [], .builtIn, none, .inPlace, false⟩ rulesInTurn ["p"]
    [⟨"src/a.rs"⟩, ⟨"src/../src/a.rs"⟩] oneFile _ oneFile_linkFree .rewrite).2.1, htargets]
  intro h
  refine h ⟨"src/a.rs"⟩ ⟨"src/../src/a.rs"⟩ ?_ (by decide)
  rw [Settings.rewrite_eq, htargets]
  exact htwice

end Amend
