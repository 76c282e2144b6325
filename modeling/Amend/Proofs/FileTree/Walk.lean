import Amend.FileTree.Resolve
import Amend.Proofs.FileTree.Lookup

/-!
# Walks through a file tree

Following a path is a walk: `Moves` is one step of it, `Reaches` any number of them and `Halts` how
it ends. A walk is determined by where it begins (`Reaches.linear`), more links to follow do not
turn it aside (`Reaches.moreLinks`), and steps to be taken later do not matter now
(`Reaches.append`). `ending_eq_entry` says that this is what `followSteps` computes.
-/

set_option autoImplicit false

namespace Amend

theorem FileData.text?_toUTF8 (text : String) (mode : Nat) (group : Option Nat) :
    FileData.text? ⟨text.toUTF8, mode, group⟩ = some text := by
  unfold FileData.text? String.fromUTF8?
  exact dif_pos text.isValidUTF8

/-- A walk on its way: how many links it may still follow, where it stands, and the steps that it
is to take. -/
structure Stage where
  links : Nat
  loc : Location
  steps : List PathStep

/-- Where the steps of a path are taken from, for a path that is read in the directory `dir`. -/
def Path.origin (p : Path) (dir : Location) : Location :=
  if p.isAbsolute then [] else dir

/-- The beginning of the walk along a path. -/
def Path.stage (p : Path) (links : Nat) (cwd : Location) : Stage :=
  ⟨links, p.origin cwd, p.steps⟩

/-- The stage with more steps to take in the end. -/
def Stage.append (a : Stage) (steps : List PathStep) : Stage :=
  { a with steps := a.steps ++ steps }

namespace FileTree

/-- One step of a walk. A link takes the steps of its target in the place of its own. -/
inductive Moves (t : FileTree) : Stage → Stage → Prop
  | stay {n : Nat} {loc : Location} {rest : List PathStep} {isSealed : Bool} :
      t.get? loc = some (.dir isSealed) → Moves t ⟨n, loc, .stay :: rest⟩ ⟨n, loc, rest⟩
  | up {n : Nat} {loc : Location} {rest : List PathStep} {isSealed : Bool} :
      t.get? loc = some (.dir isSealed) → Moves t ⟨n, loc, .up :: rest⟩ ⟨n, loc.dropLast, rest⟩
  | into {n : Nat} {loc : Location} {name : String} {rest : List PathStep} {isSealed : Bool}
      {e : Entry} : t.get? loc = some (.dir isSealed) → name.utf8ByteSize ≤ Path.nameLimit →
      t.get? (loc ++ [name]) = some e → (∀ target, e ≠ .link target) →
      Moves t ⟨n, loc, .into name :: rest⟩ ⟨n, loc ++ [name], rest⟩
  | link {n : Nat} {loc : Location} {name : String} {rest : List PathStep} {isSealed : Bool}
      {target : Path} : t.get? loc = some (.dir isSealed) → name.utf8ByteSize ≤ Path.nameLimit →
      t.get? (loc ++ [name]) = some (.link target) →
      Moves t ⟨n + 1, loc, .into name :: rest⟩ ⟨n, target.origin loc, target.steps ++ rest⟩

/-- Any number of steps. -/
inductive Reaches (t : FileTree) : Stage → Stage → Prop
  | refl (a : Stage) : Reaches t a a
  | step {a b c : Stage} : Moves t a b → Reaches t b c → Reaches t a c

/-- How a walk ends that can take no step. -/
inductive Halts (t : FileTree) : Stage → Except FileError Destination → Prop
  | found {n : Nat} {loc : Location} {e : Entry} :
      t.get? loc = some e → Halts t ⟨n, loc, []⟩ (.ok (.entry loc e))
  | lost {n : Nat} {loc : Location} :
      t.get? loc = none → Halts t ⟨n, loc, []⟩ (.error .notFound)
  | noDirectory {n : Nat} {loc : Location} {step : PathStep} {rest : List PathStep} :
      (∀ isSealed, t.get? loc ≠ some (.dir isSealed)) →
      Halts t ⟨n, loc, step :: rest⟩ (.error .notADirectory)
  | longName {n : Nat} {loc : Location} {name : String} {rest : List PathStep} {isSealed : Bool} :
      t.get? loc = some (.dir isSealed) → Path.nameLimit < name.utf8ByteSize →
      Halts t ⟨n, loc, .into name :: rest⟩ (.error .nameTooLong)
  | missing {n : Nat} {loc : Location} {name : String} {rest : List PathStep} {isSealed : Bool} :
      t.get? loc = some (.dir isSealed) → name.utf8ByteSize ≤ Path.nameLimit →
      t.get? (loc ++ [name]) = none →
      Halts t ⟨n, loc, .into name :: rest⟩
        (if rest.isEmpty then .ok (.free loc name) else .error .notFound)
  | tooManyLinks {loc : Location} {name : String} {rest : List PathStep} {isSealed : Bool}
      {target : Path} : t.get? loc = some (.dir isSealed) → name.utf8ByteSize ≤ Path.nameLimit →
      t.get? (loc ++ [name]) = some (.link target) →
      Halts t ⟨0, loc, .into name :: rest⟩ (.error .tooManyLinks)

/-- Where a walk ends. -/
def ending (t : FileTree) (a : Stage) : Except FileError Destination :=
  t.followSteps true a.links a.loc a.steps

variable {t : FileTree} {a b c : Stage}

/-! ## Single steps -/

theorem Moves.ending_eq (h : Moves t a b) : t.ending a = t.ending b := by
  unfold ending
  cases h with
  | stay hd | up hd => rw [followSteps]; simp [hd]
  | @into n loc name rest isSealed e hd hn he hl =>
    rw [followSteps]
    simp only [hd, if_neg (Nat.not_lt.mpr hn), he]
    cases rest with
    | nil =>
      rw [followSteps]
      cases e with
      | link target => exact absurd rfl (hl target)
      | file d | dir s => simp [he]
    | cons step rest =>
      cases e with
      | link target => exact absurd rfl (hl target)
      | file d | dir s => simp
  | link hd hn he =>
    rw [followSteps]
    simp only [hd, if_neg (Nat.not_lt.mpr hn), he]
    simp [Path.origin]

theorem Halts.ending_eq {r : Except FileError Destination} (h : Halts t a r) : t.ending a = r := by
  unfold ending
  cases h with
  | found he | lost he => rw [followSteps, he]
  | noDirectory hd =>
    rw [followSteps.eq_def]
    dsimp only
    split
    · next s hs => exact absurd hs (hd s)
    · rfl
  | longName hd hn => rw [followSteps]; simp only [hd, if_pos hn]
  | missing hd hn he => rw [followSteps]; simp only [hd, if_neg (Nat.not_lt.mpr hn), he]
  | tooManyLinks hd hn he =>
    rw [followSteps]
    simp only [hd, if_neg (Nat.not_lt.mpr hn), he]
    simp

theorem moves_or_halts (t : FileTree) (a : Stage) : (∃ b, Moves t a b) ∨ ∃ r, Halts t a r := by
  obtain ⟨n, loc, steps⟩ := a
  cases steps with
  | nil =>
    cases he : t.get? loc with
    | none => exact .inr ⟨_, .lost he⟩
    | some e => exact .inr ⟨_, .found he⟩
  | cons step rest =>
    by_cases hd : ∃ s, t.get? loc = some (.dir s)
    · obtain ⟨s, hd⟩ := hd
      cases step with
      | stay => exact .inl ⟨_, .stay hd⟩
      | up => exact .inl ⟨_, .up hd⟩
      | into name =>
        rcases Nat.lt_or_ge Path.nameLimit name.utf8ByteSize with hn | hn
        · exact .inr ⟨_, .longName hd hn⟩
        cases he : t.get? (loc ++ [name]) with
        | none => exact .inr ⟨_, .missing hd hn he⟩
        | some e =>
          cases e with
          | file d => exact .inl ⟨_, .into hd hn he (by simp)⟩
          | dir s' => exact .inl ⟨_, .into hd hn he (by simp)⟩
          | link target =>
            cases n with
            | zero => exact .inr ⟨_, .tooManyLinks hd hn he⟩
            | succ n => exact .inl ⟨_, .link hd hn he⟩
    · exact .inr ⟨_, .noDirectory fun s hs => hd ⟨s, hs⟩⟩

theorem Moves.deterministic (hb : Moves t a b) (hc : Moves t a c) : b = c := by
  cases hb with
  | stay | up => cases hc; rfl
  | into hd hn he hl =>
    cases hc with
    | into => rfl
    | link _ _ he' => rw [he] at he'; exact absurd (Option.some.inj he') (hl _)
  | link hd hn he =>
    cases hc with
    | into _ _ he' hl => rw [he] at he'; exact absurd (Option.some.inj he').symm (hl _)
    | link _ _ he' => rw [he] at he'; cases he'; rfl

theorem Halts.not_moves {r : Except FileError Destination} (h : Halts t a r) : ¬ Moves t a b := by
  intro hm
  cases h with
  | found | lost => cases hm
  | noDirectory hd => cases hm <;> exact absurd ‹_› (hd _)
  | longName _ hn =>
    cases hm with
    | into _ hn' => omega
    | link _ hn' => omega
  | missing _ _ he => cases hm <;> simp_all
  | tooManyLinks _ _ he =>
    cases hm with
    | into _ _ he' hl => rw [he] at he'; exact absurd (Option.some.inj he').symm (hl _)

/-- Only for want of links does a walk end that would go on with more of them. -/
theorem Halts.withLinks {r : Except FileError Destination} (h : Halts t a r) (n : Nat) :
    Halts t { a with links := n } r ∨ r = .error .tooManyLinks := by
  cases h with
  | found he => exact .inl (.found he)
  | lost he => exact .inl (.lost he)
  | noDirectory hd => exact .inl (.noDirectory hd)
  | longName hd hn => exact .inl (.longName hd hn)
  | missing hd hn he => exact .inl (.missing hd hn he)
  | tooManyLinks => exact .inr rfl

theorem Moves.append (h : Moves t a b) (s : List PathStep) : Moves t (a.append s) (b.append s) := by
  cases h with
  | stay hd => exact .stay hd
  | up hd => exact .up hd
  | into hd hn he hl => exact .into hd hn he hl
  | link hd hn he =>
    simp only [Stage.append, List.cons_append, List.append_assoc]
    exact .link hd hn he

/-- A step that is not the first of the added ones could be taken without these. -/
theorem Moves.of_append {s : List PathStep} (h : Moves t (a.append s) b) (ha : a.steps ≠ []) :
    ∃ c, Moves t a c ∧ b = c.append s := by
  obtain ⟨n, loc, steps⟩ := a
  cases steps with
  | nil => exact absurd rfl ha
  | cons step rest =>
    cases h with
    | stay hd => exact ⟨_, .stay hd, rfl⟩
    | up hd => exact ⟨_, .up hd, rfl⟩
    | into hd hn he hl => exact ⟨_, .into hd hn he hl, rfl⟩
    | link hd hn he => exact ⟨_, .link hd hn he, by simp [Stage.append]⟩

/-- With enough links to follow, a step leads to as many links as wanted. -/
theorem Moves.withLinks (h : Moves t a b) (n : Nat) :
    ∃ n', Moves t { a with links := n' } { b with links := n } := by
  cases h with
  | stay hd => exact ⟨n, .stay hd⟩
  | up hd => exact ⟨n, .up hd⟩
  | into hd hn he hl => exact ⟨n, .into hd hn he hl⟩
  | link hd hn he => exact ⟨n + 1, .link hd hn he⟩

theorem Moves.moreLinks (h : Moves t a b) (k : Nat) :
    Moves t { a with links := a.links + k } { b with links := b.links + k } := by
  cases h with
  | stay hd => exact .stay hd
  | up hd => exact .up hd
  | into hd hn he hl => exact .into hd hn he hl
  | @link n loc name rest isSealed target hd hn he =>
    rw [show n + 1 + k = n + k + 1 by omega]
    exact .link hd hn he

/-! ## Whole walks -/

theorem Reaches.trans (h : Reaches t a b) (h' : Reaches t b c) : Reaches t a c := by
  induction h with
  | refl a => exact h'
  | step hm _ ih => exact .step hm (ih h')

theorem Reaches.single (h : Moves t a b) : Reaches t a b :=
  .step h (.refl b)

theorem Reaches.ending_eq (h : Reaches t a b) : t.ending a = t.ending b := by
  induction h with
  | refl a => rfl
  | step hm _ ih => rw [hm.ending_eq, ih]

theorem Reaches.append (h : Reaches t a b) (s : List PathStep) :
    Reaches t (a.append s) (b.append s) := by
  induction h with
  | refl a => exact .refl _
  | step hm _ ih => exact .step (hm.append s) ih

theorem Reaches.moreLinks (h : Reaches t a b) (k : Nat) :
    Reaches t { a with links := a.links + k } { b with links := b.links + k } := by
  induction h with
  | refl a => exact .refl _
  | step hm _ ih => exact .step (hm.moreLinks k) ih

/-- Of two stages of one walk, one comes after the other. -/
theorem Reaches.linear (hb : Reaches t a b) (hc : Reaches t a c) :
    Reaches t b c ∨ Reaches t c b := by
  induction hb with
  | refl a => exact .inl hc
  | step hm hr ih =>
    cases hc with
    | refl => exact .inr (.step hm hr)
    | step hm' hc =>
      cases hm.deterministic hm'
      exact ih hc

/-- A walk that can take no step stays where it is. -/
theorem Reaches.eq_of_halts {r : Except FileError Destination} (h : Reaches t a b)
    (ha : Halts t a r) : b = a := by
  cases h with
  | refl => rfl
  | step hm _ => exact absurd hm ha.not_moves

/-- A stage that no walk goes on from, whatever links it may follow. -/
def Stuck (t : FileTree) (a : Stage) : Prop :=
  ∀ n, ∃ r, Halts t { a with links := n } r

theorem stuck_of_steps_nil (t : FileTree) {a : Stage} (h : a.steps = []) : Stuck t a := by
  intro n
  rcases moves_or_halts t { a with links := n } with ⟨b, hm⟩ | hr
  · obtain ⟨m, loc, steps⟩ := a
    subst h
    cases hm
  · exact hr

theorem stuck_of_file {d : FileData} (h : t.get? a.loc = some (.file d)) : Stuck t a := by
  intro n
  obtain ⟨m, loc, steps⟩ := a
  cases steps with
  | nil => exact ⟨_, .found h⟩
  | cons step rest => exact ⟨_, .noDirectory fun s hs => by rw [h] at hs; cases hs⟩

theorem Reaches.eq_of_stuck (h : Reaches t a b) (ha : Stuck t a) : b = a := by
  obtain ⟨r, hr⟩ := ha a.links
  exact h.eq_of_halts hr

/-- A walk gets stuck at one place only, however many links it may follow. -/
theorem Reaches.stuck_unique {n n' : Nat} (hb : Reaches t { a with links := n } b)
    (hc : Reaches t { a with links := n' } c) (hsb : Stuck t b) (hsc : Stuck t c) :
    b.loc = c.loc ∧ b.steps = c.steps := by
  have hb' := hb.moreLinks n'
  have hc' := hc.moreLinks n
  rw [show ({ a with links := n } : Stage).links + n' = n' + n from Nat.add_comm ..] at hb'
  rcases hb'.linear hc' with h | h
  · obtain ⟨r, hr⟩ := hsb (b.links + n')
    have := Stage.mk.inj (h.eq_of_halts hr)
    exact ⟨this.2.1.symm, this.2.2.symm⟩
  · obtain ⟨r, hr⟩ := hsc (c.links + n)
    exact (Stage.mk.inj (h.eq_of_halts hr)).2

/-- A walk that comes to the end of its steps has come to the end of the first of them before. -/
theorem Reaches.split {rest : List PathStep} (h : Reaches t (a.append rest) b)
    (hb : b.steps = []) :
    ∃ c, Reaches t a c ∧ c.steps = [] ∧ Reaches t (c.append rest) b := by
  generalize ha : a.append rest = a' at h
  induction h generalizing a with
  | refl a' =>
    subst ha
    have : a.steps = [] := (List.append_eq_nil_iff.mp hb).1
    exact ⟨a, .refl a, this, .refl _⟩
  | step hm hr ih =>
    subst ha
    by_cases hs : a.steps = []
    · exact ⟨a, .refl a, hs, .step hm hr⟩
    · obtain ⟨c, hac, rfl⟩ := hm.of_append hs
      obtain ⟨d, had, hd, hdb⟩ := ih hb rfl
      exact ⟨d, .step hac had, hd, hdb⟩

/-! ## How walks end -/

theorem Moves.decreasing (h : Moves t a b) :
    Prod.Lex (· < ·) (· < ·) (b.links, b.steps.length) (a.links, a.steps.length) := by
  cases h with
  | stay | up | into => exact .right _ (by simp)
  | link => exact .left _ _ (by simp)

theorem exists_halts (t : FileTree) (a : Stage) :
    ∃ b, Reaches t a b ∧ Halts t b (t.ending a) := by
  rcases moves_or_halts t a with ⟨b, hm⟩ | ⟨r, hr⟩
  · have hlt := hm.decreasing
    obtain ⟨c, hbc, hc⟩ := exists_halts t b
    exact ⟨c, .step hm hbc, hm.ending_eq ▸ hc⟩
  · exact ⟨a, .refl a, hr.ending_eq ▸ hr⟩
termination_by (a.links, a.steps.length)
decreasing_by exact hlt

theorem ending_eq_entry {loc : Location} {e : Entry} :
    t.ending a = .ok (.entry loc e) ↔
      t.get? loc = some e ∧ ∃ m, Reaches t a ⟨m, loc, []⟩ := by
  constructor
  · intro h
    obtain ⟨b, hab, hb⟩ := exists_halts t a
    rw [h] at hb
    generalize hr : (.ok (.entry loc e) : Except FileError Destination) = r at hb
    cases hb with
    | found he => cases hr; exact ⟨he, _, hab⟩
    | missing => split at hr <;> cases hr
    | lost | noDirectory | longName | tooManyLinks => cases hr
  · rintro ⟨he, m, hr⟩
    rw [hr.ending_eq]
    exact (Halts.found he).ending_eq

/-- Entries that are added do not stop a walk. -/
theorem Reaches.mono {t' : FileTree} (ht : ∀ l e, t.get? l = some e → t'.get? l = some e)
    (h : Reaches t a b) : Reaches t' a b := by
  induction h with
  | refl a => exact .refl a
  | step hm _ ih =>
    refine .step ?_ ih
    cases hm with
    | stay hd => exact .stay (ht _ _ hd)
    | up hd => exact .up (ht _ _ hd)
    | into hd hn he hl => exact .into (ht _ _ hd) hn (ht _ _ he) hl
    | link hd hn he => exact .link (ht _ _ hd) hn (ht _ _ he)

section
variable {cwd loc : Location} {p : Path} {e : Entry} {d : FileData} {text : String}

theorem follow_eq (h : p.fault? = none) :
    t.follow cwd p = t.ending (p.stage linkLimit cwd) := by
  unfold follow
  rw [h]
  rfl

theorem entryAt_eq_ok : t.entryAt cwd p = .ok (loc, e) ↔
    p.fault? = none ∧ t.get? loc = some e ∧
      ∃ m, Reaches t (p.stage linkLimit cwd) ⟨m, loc, []⟩ := by
  rw [← ending_eq_entry]
  cases hf : p.fault? with
  | some f => simp [entryAt, follow, hf]
  | none =>
    unfold entryAt
    rw [follow_eq hf]
    split <;> simp_all

theorem entryAt_of_halts {b : Stage} {f : FileError} (hf : p.fault? = none)
    (hr : Reaches t (p.stage linkLimit cwd) b) (hb : Halts t b (.error f)) :
    t.entryAt cwd p = .error f := by
  rw [entryAt, follow_eq hf, hr.ending_eq, hb.ending_eq]

theorem fileAt_eq_ok : t.fileAt cwd p = .ok d ↔ ∃ loc, t.entryAt cwd p = .ok (loc, .file d) := by
  unfold fileAt
  split
  · next loc d' h => simp [h, eq_comm]
  · next q hne h =>
    simp only [reduceCtorEq, false_iff, not_exists]
    intro loc hloc
    rw [h] at hloc
    cases hloc
    exact hne loc d rfl
  · next h => simp [h]

theorem readText_eq_ok : t.readText cwd p = .ok text ↔
    ∃ d, t.fileAt cwd p = .ok d ∧ d.text? = some text := by
  unfold readText
  split
  · next d h => split <;> simp_all
  · next h => simp [h]

theorem exists_entryAt_of_readText (h : t.readText cwd p = .ok text) :
    ∃ F d, t.entryAt cwd p = .ok (F, .file d) ∧ d.text? = some text := by
  obtain ⟨d, hd, htext⟩ := readText_eq_ok.mp h
  obtain ⟨F, hF⟩ := fileAt_eq_ok.mp hd
  exact ⟨F, d, hF, htext⟩

theorem readText_of_entryAt {F : Location} {mode : Nat} {group : Option Nat}
    (h : t.entryAt cwd p = .ok (F, .file ⟨text.toUTF8, mode, group⟩)) :
    t.readText cwd p = .ok text :=
  readText_eq_ok.mpr ⟨_, fileAt_eq_ok.mpr ⟨F, h⟩, FileData.text?_toUTF8 text mode group⟩

theorem pathExists_of_readText (h : t.readText cwd p = .ok text) : t.pathExists cwd p = true := by
  obtain ⟨F, d, hF, -⟩ := exists_entryAt_of_readText h
  rw [pathExists, hF]

end

end FileTree

end Amend
