import Amend.FileTree.StagedWrite
import Amend.Proofs.FileTree.Walk

/-!
# Walks in an altered tree

While files are rewritten, the tree differs from the one before by temporary files and by files
that stand in the place of what led to a rewritten one (`Altered`). Walks to directories are the
same in both trees (`Altered.reaches`), and so are walks that come to none of the rewritten files
and ask for nothing that was added (`Altered.ending_eq`). What led to a file leads to one still
(`Altered.entryAt_file`).
-/

set_option autoImplicit false

namespace Amend.FileTree

variable {t t' : FileTree} {a b c : Stage} {F : Location}

/-! ## Well-formed trees -/

/-- Every entry stands in a directory. -/
def WellFormed (t : FileTree) : Prop :=
  ∀ dir name e, t.get? (dir ++ [name]) = some e → ∃ isSealed, t.get? dir = some (.dir isSealed)

theorem WellFormed.dropLast {loc : Location} {e : Entry} (h : t.WellFormed)
    (he : t.get? loc = some e) : ∃ isSealed, t.get? loc.dropLast = some (.dir isSealed) := by
  by_cases hl : loc = []
  · subst hl
    exact ⟨false, rfl⟩
  · rw [← List.dropLast_concat_getLast hl] at he
    exact h _ _ _ he

theorem wellFormed_of_entries
    (h : ∀ q ∈ t.entries, ∃ isSealed, t.get? q.1.dropLast = some (.dir isSealed)) :
    t.WellFormed := by
  intro dir name e he
  have hdir := h _ (mem_of_get? (by simp) he)
  rwa [List.dropLast_concat] at hdir

/-- Whether a stage has a step to take or stands at an entry that is not a link. -/
def Stands (t : FileTree) (a : Stage) : Prop :=
  a.steps ≠ [] ∨ ∃ e, t.get? a.loc = some e ∧ ∀ target, e ≠ .link target

theorem Moves.stands (h : Moves t a b) (hw : t.WellFormed) : Stands t b := by
  cases h with
  | stay hd => exact .inr ⟨_, hd, by simp⟩
  | up hd =>
    obtain ⟨s, hs⟩ := hw.dropLast hd
    exact .inr ⟨_, hs, by simp⟩
  | into hd hn he hl => exact .inr ⟨_, he, hl⟩
  | @link n loc name rest isSealed target hd hn he =>
    refine .inr ?_
    dsimp only [Path.origin]
    split
    · exact ⟨_, rfl, by simp⟩
    · exact ⟨_, hd, by simp⟩

theorem Reaches.stands (h : Reaches t a b) (hw : t.WellFormed) (ha : Stands t a) :
    Stands t b := by
  induction h with
  | refl => exact ha
  | step hm _ ih => exact ih (hm.stands hw)

/-! ## What leads to a file -/

/-- The entry at the location is the file at `F` or a link that leads to it. -/
inductive EndsIn (t : FileTree) : Location → Location → Prop
  | file {F : Location} {d : FileData} : t.get? F = some (.file d) → EndsIn t F F
  | link {dir : Location} {name : String} {target : Path} {F : Location} {d : FileData}
      {n m : Nat} : t.get? (dir ++ [name]) = some (.link target) → t.get? F = some (.file d) →
      Reaches t ⟨n, target.origin dir, target.steps⟩ ⟨m, F, []⟩ → EndsIn t (dir ++ [name]) F

theorem EndsIn.isFile {l : Location} (h : EndsIn t l F) : ∃ d, t.get? F = some (.file d) := by
  cases h with
  | file hd => exact ⟨_, hd⟩
  | link _ hd => exact ⟨_, hd⟩

theorem EndsIn.not_dir {l : Location} {isSealed : Bool} (h : EndsIn t l F) :
    t.get? l ≠ some (.dir isSealed) := by
  intro hs
  cases h with
  | file hd => rw [hd] at hs; cases hs
  | link hl => rw [hl] at hs; cases hs

theorem EndsIn.get?_ne_none {l : Location} (h : EndsIn t l F) : t.get? l ≠ none := by
  intro hs
  cases h with
  | file hd => rw [hd] at hs; cases hs
  | link hl => rw [hl] at hs; cases hs

/-- What stands at a location leads to one file only. -/
theorem EndsIn.unique {l F' : Location} (h : EndsIn t l F) (h' : EndsIn t l F') : F = F' := by
  generalize hl : l = l' at h'
  cases h with
  | file hd =>
    cases h' with
    | file => exact hl
    | link hlink => rw [← hl, hd] at hlink; cases hlink
  | link hlink hd hr =>
    cases h' with
    | file hd' => rw [← hl, hlink] at hd'; cases hd'
    | @link dir' name' target' F' d' n' m' hlink' hd' hr' =>
      obtain ⟨rfl, -⟩ := List.append_inj' hl rfl
      rw [← hl, hlink] at hlink'
      cases hlink'
      exact (Reaches.stuck_unique (a := ⟨n', _, _⟩) hr hr' (stuck_of_file hd)
        (stuck_of_file hd')).1

/-- A walk that takes a step to what leads to a file can come to that file with the rest of its
steps. -/
theorem EndsIn.reaches {loc : Location} {name : String} {isSealed : Bool}
    (h : EndsIn t (loc ++ [name]) F) (hd : t.get? loc = some (.dir isSealed))
    (hn : name.utf8ByteSize ≤ Path.nameLimit) (rest : List PathStep) :
    ∃ n m, Reaches t ⟨n, loc, .into name :: rest⟩ ⟨m, F, rest⟩ := by
  generalize hl : loc ++ [name] = l at h
  cases h with
  | file hF =>
    subst hl
    exact ⟨0, 0, .single (.into hd hn hF (by simp))⟩
  | @link dir name' target F d n m hlink hF hr =>
    obtain ⟨rfl, rfl⟩ := List.append_inj' hl rfl |>.imp_right fun h => (List.cons.inj h).1
    exact ⟨n + 1, m, .step (.link hd hn hlink) (hr.append rest)⟩

/-- A walk that comes to a file with steps to take ends there or for want of links. -/
theorem Reaches.ending_of_file {n : Nat} {step : PathStep} {rest : List PathStep} {d : FileData}
    (h : Reaches t { a with links := n } b) (hb : b.steps = step :: rest)
    (hd : t.get? b.loc = some (.file d)) :
    t.ending a = .error .notADirectory ∨ t.ending a = .error .tooManyLinks := by
  obtain ⟨c, hac, hc⟩ := exists_halts t a
  generalize t.ending a = r at hc
  by_cases hl : r = .error .tooManyLinks
  · exact .inr hl
  have hsc : ∀ k, Halts t { c with links := k } r := fun k => (hc.withLinks k).resolve_right hl
  obtain ⟨hloc, hsteps⟩ :=
    h.stuck_unique hac (stuck_of_file hd) (fun k => ⟨r, hsc k⟩)
  have hb' : Halts t { c with links := 0 } (.error .notADirectory) := by
    rw [← hloc, ← hsteps, hb]
    exact .noDirectory fun s hs => by rw [hd] at hs; cases hs
  exact .inl ((hsc 0).ending_eq.symm.trans hb'.ending_eq)

/-! ## Altered trees -/

/-- The tree `t'` is `t` with temporary files added and files put in the place of what leads to
files in `P`. -/
def Altered (t : FileTree) (P : Location → Prop) (t' : FileTree) : Prop :=
  ∀ l, t'.get? l = t.get? l ∨
    (t.get? l = none ∧ ∃ dir k, l = dir ++ [StagedWrite.tempName k] ∧
      ∃ d, t'.get? l = some (.file d)) ∨
    ∃ F, P F ∧ EndsIn t l F ∧ ∃ d, t'.get? l = some (.file d)

variable {P : Location → Prop}

theorem Altered.dir_iff {l : Location} {isSealed : Bool} (h : Altered t P t') :
    t'.get? l = some (.dir isSealed) ↔ t.get? l = some (.dir isSealed) := by
  rcases h l with hl | ⟨hl, -, -, -, d, hd⟩ | ⟨F, -, hF, d, hd⟩
  · rw [hl]
  · simp [hl, hd]
  · simp [hd, hF.not_dir]

theorem altered_set {l : Location} {d : FileData} (h : EndsIn t l F) :
    Altered t (· = F) (t.set l (.file d)) := by
  intro l'
  by_cases hl : l' = l
  · subst hl
    refine .inr (.inr ⟨F, rfl, h, d, get?_set_self ?_⟩)
    rintro rfl
    exact h.not_dir get?_nil
  · exact .inl (get?_set_ne hl)

theorem altered_refl (t : FileTree) : Altered t P t :=
  fun _ => .inl rfl

theorem altered_set_temp {l dir : Location} {n : Nat} (h : Altered t P t')
    (hfree : t.get? l = none) (hl : l = dir ++ [StagedWrite.tempName n]) (d : FileData) :
    Altered t P (t'.set l (.file d)) := by
  intro l'
  by_cases heq : l' = l
  · subst heq
    exact .inr (.inl ⟨hfree, dir, n, hl, d, get?_set_self (ne_nil_of_get? hfree)⟩)
  · rw [get?_set_ne heq]
    exact h l'

theorem altered_erase_temp {l : Location} (h : Altered t P t') (hfree : t.get? l = none) :
    Altered t P (t'.erase l) := by
  intro l'
  by_cases heq : l' = l
  · subst heq
    exact .inl (by rw [get?_erase_self (ne_nil_of_get? hfree), hfree])
  · rw [get?_erase_ne heq]
    exact h l'

/-- What is free in the altered tree was free before. -/
theorem Altered.free {l : Location} (h : Altered t P t') (hl : t'.get? l = none) :
    t.get? l = none := by
  rcases h l with hsame | ⟨hnone, -⟩ | ⟨F, -, -, d, hd⟩
  · rw [← hsame, hl]
  · exact hnone
  · rw [hl] at hd; cases hd

/-- A walk to a directory meets nothing that is altered. -/
theorem Altered.reaches {m : Nat} {loc : Location} {isSealed : Bool} (h : Altered t P t')
    (hr : Reaches t a ⟨m, loc, []⟩) (hd : t.get? loc = some (.dir isSealed)) :
    Reaches t' a ⟨m, loc, []⟩ := by
  generalize hb : (⟨m, loc, []⟩ : Stage) = b at hr
  induction hr with
  | refl a => exact .refl a
  | @step a c b hm hcb ih =>
    refine .step ?_ (ih hb)
    subst hb
    -- what leads to a file does not lead to a directory
    have hne : ∀ {l name rest F n s}, a = ⟨n, l, .into name :: rest⟩ → EndsIn t (l ++ [name]) F →
        t.get? l = some (.dir s) → name.utf8ByteSize ≤ Path.nameLimit → False := by
      rintro l name rest F n s rfl hF hl hn
      obtain ⟨d, hFd⟩ := hF.isFile
      obtain ⟨n', m', hr'⟩ := hF.reaches hl hn rest
      have hr : Reaches t ⟨n, l, .into name :: rest⟩ ⟨m, loc, []⟩ := .step hm hcb
      have : F = loc := (Reaches.stuck_unique (a := ⟨n, l, .into name :: rest⟩) hr' hr
        (stuck_of_file hFd) (stuck_of_steps_nil t rfl)).1
      rw [← this, hFd] at hd
      cases hd
    cases hm with
    | stay hs => exact .stay (h.dir_iff.mpr hs)
    | up hs => exact .up (h.dir_iff.mpr hs)
    | @into n loc name rest s e hs hn he hl =>
      refine .into (h.dir_iff.mpr hs) hn ?_ hl
      rcases h (loc ++ [name]) with hsame | ⟨hnone, -⟩ | ⟨F, -, hF, -⟩
      · rw [hsame, he]
      · rw [hnone] at he; cases he
      · exact (hne rfl hF hs hn).elim
    | @link n loc name rest s target hs hn he =>
      refine .link (h.dir_iff.mpr hs) hn ?_
      rcases h (loc ++ [name]) with hsame | ⟨hnone, -⟩ | ⟨F, -, hF, -⟩
      · rw [hsame, he]
      · rw [hnone] at he; cases he
      · exact (hne rfl hF hs hn).elim

/-- A walk that takes a step to what leads to a file and then ends has no more steps to take. -/
theorem EndsIn.rest_eq_nil {n m : Nat} {loc l : Location} {name : String} {rest : List PathStep}
    {isSealed : Bool} (h : EndsIn t (loc ++ [name]) F) (hd : t.get? loc = some (.dir isSealed))
    (hn : name.utf8ByteSize ≤ Path.nameLimit)
    (hr : Reaches t ⟨n, loc, .into name :: rest⟩ ⟨m, l, []⟩) : rest = [] := by
  obtain ⟨d, hF⟩ := h.isFile
  obtain ⟨n', m', hr'⟩ := h.reaches hd hn rest
  exact (Reaches.stuck_unique (a := ⟨n, loc, .into name :: rest⟩) hr' hr (stuck_of_file hF)
    (stuck_of_steps_nil t rfl)).2

theorem Altered.reaches_file {m : Nat} {d : FileData} (h : Altered t P t')
    (hr : Reaches t a ⟨m, F, []⟩) (hF : t.get? F = some (.file d)) :
    ∃ n F' d', Reaches t' a ⟨n, F', []⟩ ∧ t'.get? F' = some (.file d') := by
  generalize hb : (⟨m, F, []⟩ : Stage) = b at hr
  induction hr with
  | refl a =>
    subst hb
    rcases h F with hsame | ⟨hnone, -⟩ | ⟨F', -, -, d', hd'⟩
    · exact ⟨m, F, d, .refl _, hsame.trans hF⟩
    · rw [hnone] at hF; cases hF
    · exact ⟨m, F, d', .refl _, hd'⟩
  | @step a c b hm hcb ih =>
    obtain ⟨n, F', d', hr', hF'⟩ := ih hb
    subst hb
    have hstep (hm' : Moves t' a c) :
        ∃ n F' d', Reaches t' a ⟨n, F', []⟩ ∧ t'.get? F' = some (.file d') :=
      ⟨n, F', d', .step hm' hr', hF'⟩
    -- what stands in the place of something that led to a file is where the walk ends now
    have hend {loc : Location} {name : String} {rest : List PathStep} {k : Nat} {s : Bool}
        {F₀ : Location} {d₀ : FileData} (ha : a = ⟨k, loc, .into name :: rest⟩)
        (hE : EndsIn t (loc ++ [name]) F₀) (hs : t.get? loc = some (.dir s))
        (hn : name.utf8ByteSize ≤ Path.nameLimit)
        (hd₀ : t'.get? (loc ++ [name]) = some (.file d₀)) :
        ∃ n F' d', Reaches t' a ⟨n, F', []⟩ ∧ t'.get? F' = some (.file d') := by
      have hrest : rest = [] := hE.rest_eq_nil hs hn (ha ▸ Reaches.step hm hcb)
      rw [ha, hrest]
      exact ⟨k, _, d₀, .single (.into (h.dir_iff.mpr hs) hn hd₀ nofun), hd₀⟩
    cases hm with
    | stay hs => exact hstep (.stay (h.dir_iff.mpr hs))
    | up hs => exact hstep (.up (h.dir_iff.mpr hs))
    | @into k loc name rest s e hs hn he hl =>
      rcases h (loc ++ [name]) with hsame | ⟨hnone, -⟩ | ⟨F₀, -, hE, d₀, hd₀⟩
      · exact hstep (.into (h.dir_iff.mpr hs) hn (hsame.trans he) hl)
      · rw [hnone] at he; cases he
      · exact hend rfl hE hs hn hd₀
    | @link k loc name rest s target hs hn he =>
      rcases h (loc ++ [name]) with hsame | ⟨hnone, -⟩ | ⟨F₀, -, hE, d₀, hd₀⟩
      · exact hstep (.link (h.dir_iff.mpr hs) hn (hsame.trans he))
      · rw [hnone] at he; cases he
      · exact hend rfl hE hs hn hd₀

theorem Altered.entryAt_file {cwd : Location} {p : Path} {d : FileData} (h : Altered t P t')
    (he : t.entryAt cwd p = .ok (F, .file d)) :
    ∃ F' d', t'.entryAt cwd p = .ok (F', .file d') := by
  obtain ⟨hfault, hF, m, hr⟩ := entryAt_eq_ok.mp he
  obtain ⟨n, F', d', hr', hF'⟩ := h.reaches_file hr hF
  exact ⟨F', d', entryAt_eq_ok.mpr ⟨hfault, hF', n, hr'⟩⟩

/-! ## Walks that are the same -/

/-- A walk asks for no temporary file that is not there. -/
def AvoidsTemps (t : FileTree) (a : Stage) : Prop :=
  ∀ m dir k rest, Reaches t a ⟨m, dir, .into (StagedWrite.tempName k) :: rest⟩ →
    t.get? (dir ++ [StagedWrite.tempName k]) ≠ none

/-- Where a walk asks for something that is not there, nothing was added. -/
def KeepsGaps (t t' : FileTree) (a : Stage) : Prop :=
  ∀ m dir name rest, Reaches t a ⟨m, dir, .into name :: rest⟩ →
    t.get? (dir ++ [name]) = none → t'.get? (dir ++ [name]) = none

/-- A walk leads to `F` when it may follow any number of links. If it is cut short for the number
of its links, then what is on its way counts as well. -/
def ComesTo (t : FileTree) (a : Stage) (F : Location) : Prop :=
  ∃ n m rest, Reaches t { a with links := n } ⟨m, F, rest⟩ ∧
    (rest = [] ∨ t.ending a = .error .tooManyLinks)

theorem KeepsGaps.moves (h : KeepsGaps t t' a) (hm : Moves t a b) : KeepsGaps t t' b :=
  fun m dir name rest hr => h m dir name rest (.step hm hr)

/-- Nothing but temporary files is added. -/
theorem AvoidsTemps.keepsGaps (h : AvoidsTemps t a) (ha : Altered t P t') :
    KeepsGaps t t' a := by
  intro m dir name rest hr hnone
  rcases ha (dir ++ [name]) with hsame | ⟨-, dir', k, hl, -⟩ | ⟨F, -, hE, -⟩
  · rw [hsame, hnone]
  · obtain ⟨rfl, hname⟩ := List.append_inj' hl rfl
    obtain rfl := (List.cons.inj hname).1
    exact absurd hnone (h _ _ _ _ hr)
  · exact absurd hnone hE.get?_ne_none

/-- A walk asks for no temporary file if no path that it follows names one. -/
theorem avoidsTemps_of_notMem (ha : ∀ k, .into (StagedWrite.tempName k) ∉ a.steps)
    (ht : ∀ l target, t.get? l = some (.link target) →
      ∀ k, .into (StagedWrite.tempName k) ∉ target.steps) : AvoidsTemps t a := by
  intro m dir k rest hr
  generalize hb : (⟨m, dir, .into (StagedWrite.tempName k) :: rest⟩ : Stage) = b at hr
  induction hr with
  | refl a =>
    subst hb
    exact absurd List.mem_cons_self (ha k)
  | step hm _ ih =>
    refine ih (fun k => ?_) hb
    cases hm with
    | stay | up | into => exact fun hmem => ha k (List.mem_cons_of_mem _ hmem)
    | link _ _ he =>
      rintro hmem
      rcases List.mem_append.mp hmem with hmem | hmem
      · exact ht _ _ he k hmem
      · exact ha k (List.mem_cons_of_mem _ hmem)

theorem ComesTo.of_moves (h : ComesTo t b F) (hm : Moves t a b) : ComesTo t a F := by
  obtain ⟨n, m, rest, hr, he⟩ := h
  obtain ⟨n', hm'⟩ := hm.withLinks n
  exact ⟨n', m, rest, .step hm' hr, by rwa [hm.ending_eq]⟩

theorem Altered.halts {r : Except FileError Destination} (h : Altered t P t') (hs : Stands t a)
    (ht : KeepsGaps t t' a) (hP : ∀ F, P F → ¬ ComesTo t a F) (hr : Halts t a r) :
    Halts t' a r := by
  have hending := hr.ending_eq
  cases hr with
  | @found n loc e he =>
    refine .found ?_
    rcases h loc with hl | ⟨hl, -⟩ | ⟨F, hF, hE, -⟩
    · rw [hl, he]
    · rw [hl] at he; cases he
    · obtain hs | ⟨e', he', hne⟩ := hs
      · exact absurd rfl hs
      cases hE with
      | file hd => exact absurd ⟨n, n, [], .refl _, .inl rfl⟩ (hP _ hF)
      | link hl => exact absurd (Option.some.inj (he'.symm.trans hl)) (hne _)
  | lost he =>
    obtain hs | ⟨e', he', -⟩ := hs
    · exact absurd rfl hs
    · rw [he] at he'; cases he'
  | noDirectory hd => exact .noDirectory fun s hs => hd s (h.dir_iff.mp hs)
  | longName hd hn => exact .longName (h.dir_iff.mpr hd) hn
  | @missing n loc name rest s hd hn he =>
    exact .missing (h.dir_iff.mpr hd) hn (ht _ _ _ _ (.refl _) he)
  | @tooManyLinks loc name rest s target hd hn he =>
    have he' : t'.get? (loc ++ [name]) = some (.link target) := by
      rcases h (loc ++ [name]) with hl | ⟨hl, -⟩ | ⟨F, hF, hE, -⟩
      · rw [hl, he]
      · rw [hl] at he; cases he
      · obtain ⟨n, m, hr⟩ := hE.reaches hd hn rest
        exact absurd ⟨n, m, rest, hr, .inr hending⟩ (hP _ hF)
    exact .tooManyLinks (h.dir_iff.mpr hd) hn he'

/-- A walk that meets something put in the place of what led to a file ends there, as it did
before. -/
theorem Altered.ending_of_replaced {n : Nat} {loc : Location} {name : String}
    {rest : List PathStep} {isSealed : Bool} {d : FileData} (h : Altered t P t')
    (hP : ¬ ComesTo t ⟨n, loc, .into name :: rest⟩ F) (hE : EndsIn t (loc ++ [name]) F)
    (hd : t.get? loc = some (.dir isSealed)) (hn : name.utf8ByteSize ≤ Path.nameLimit)
    (hd' : t'.get? (loc ++ [name]) = some (.file d)) :
    t'.ending ⟨n, loc, .into name :: rest⟩ = t.ending ⟨n, loc, .into name :: rest⟩ := by
  obtain ⟨k, m, hr⟩ := hE.reaches hd hn rest
  obtain ⟨dF, hF⟩ := hE.isFile
  cases rest with
  | nil => exact absurd ⟨k, m, [], hr, .inl rfl⟩ hP
  | cons step rest =>
    have hm : Moves t' ⟨n, loc, .into name :: step :: rest⟩ ⟨n, loc ++ [name], step :: rest⟩ :=
      .into (h.dir_iff.mpr hd) hn hd' (by simp)
    have hhalt : Halts t' ⟨n, loc ++ [name], step :: rest⟩ (.error .notADirectory) :=
      .noDirectory fun s hs => by rw [hd'] at hs; cases hs
    rw [hm.ending_eq, hhalt.ending_eq]
    rcases Reaches.ending_of_file (a := ⟨n, loc, .into name :: step :: rest⟩) hr rfl hF with he | he
    · exact he.symm
    · exact absurd ⟨k, m, step :: rest, hr, .inr he⟩ hP

/-- A walk that comes to no file that was rewritten ends as it did before. -/
theorem Altered.ending_eq (h : Altered t P t') (hw : t.WellFormed) (hs : Stands t a)
    (ht : KeepsGaps t t' a) (hP : ∀ F, P F → ¬ ComesTo t a F) : t'.ending a = t.ending a := by
  obtain ⟨b, hab, hb⟩ := exists_halts t a
  generalize hr : t.ending a = r at hb
  induction hab with
  | refl a => exact (h.halts hs ht hP hb).ending_eq
  | @step a c b hm _ ih =>
    have hc := ih (hm.stands hw) (ht.moves hm) (fun F hF hc => hP F hF (hc.of_moves hm))
      (hm.ending_eq.symm.trans hr) hb
    cases hm with
    | stay hd => rw [(Moves.stay (h.dir_iff.mpr hd)).ending_eq, hc]
    | up hd => rw [(Moves.up (h.dir_iff.mpr hd)).ending_eq, hc]
    | @into n loc name rest s e hd hn he hl =>
      rcases h (loc ++ [name]) with hsame | ⟨hnone, -⟩ | ⟨F, hF, hE, d, hd'⟩
      · rw [(Moves.into (h.dir_iff.mpr hd) hn (hsame.trans he) hl).ending_eq, hc]
      · rw [hnone] at he; cases he
      · rw [h.ending_of_replaced (hP F hF) hE hd hn hd', hr]
    | @link n loc name rest s target hd hn he =>
      rcases h (loc ++ [name]) with hsame | ⟨hnone, -⟩ | ⟨F, hF, hE, d, hd'⟩
      · rw [(Moves.link (h.dir_iff.mpr hd) hn (hsame.trans he)).ending_eq, hc]
      · rw [hnone] at he; cases he
      · rw [h.ending_of_replaced (hP F hF) hE hd hn hd', hr]

end Amend.FileTree
