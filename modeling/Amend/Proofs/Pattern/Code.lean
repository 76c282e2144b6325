import Amend.Proofs.Pattern.Meaning

/-!
# Programs run as their expressions match

A run of the code of an expression that leaves it does so at its exit, having matched what the
expression matches (`runsThrough_code`), and each match is run through (`Takes.runs`). So the
program of an expression accepts exactly its matches (`accepts_iff`).
-/

set_option autoImplicit false

namespace Amend

open Search

/-! ## Runs -/

/-- A thread is followed by another in `n` steps. -/
inductive Runs (program : Array Instr) (text : Array Char) : Nat → Thread → Thread → Prop
  | done (t : Thread) : Runs program text 0 t t
  | step {n : Nat} {t u v : Thread} {ts : List Thread} : successors program text t = some ts →
    u ∈ ts → Runs program text n u v → Runs program text (n + 1) t v

/-- A thread at the address of the next instruction. -/
def Point.at (p : Point) (pc : Nat) : Thread :=
  ⟨pc, p.pos, p.saved⟩

variable {program : Array Instr} {text : Array Char} {t u v : Thread} {a b : Point}
  {k n pc next s : Nat}

theorem Runs.single {ts : List Thread} (h : successors program text t = some ts) (hu : u ∈ ts) :
    Runs program text 1 t u :=
  .step h hu (.done u)

theorem Runs.trans (h : Runs program text n t u) (h' : Runs program text k u v) :
    Runs program text (n + k) t v := by
  induction h with
  | done => rwa [Nat.zero_add]
  | step hs hu _ ih =>
    rw [Nat.add_right_comm]
    exact .step hs hu (ih h')

/-- A run that comes to another address goes on from a successor. -/
theorem Runs.exists_successor {ts : List Thread} (h : Runs program text n t u)
    (hs : successors program text t = some ts) (hne : u.pc ≠ t.pc) :
    ∃ k < n, ∃ v ∈ ts, Runs program text k v u := by
  cases h with
  | done => exact absurd rfl hne
  | @step k _ v _ _ hs' hv hr =>
    obtain rfl := Option.some.inj (hs.symm.trans hs')
    exact ⟨k, Nat.lt_succ_self k, v, hv, hr⟩

theorem Runs.of_single (h : Runs program text n t u) (hs : successors program text t = some [v])
    (hne : u.pc ≠ t.pc) : ∃ k < n, Runs program text k v u := by
  obtain ⟨k, hk, w, hw, hr⟩ := h.exists_successor hs hne
  obtain rfl := List.mem_singleton.mp hw
  exact ⟨k, hk, hr⟩

/-! ## Code in a program -/

/-- The instructions stand in the program from an address on. -/
def CodeAt (program : Array Instr) : Nat → List Instr → Prop
  | _, [] => True
  | s, i :: is => program[s]? = some i ∧ CodeAt program (s + 1) is

theorem codeAt_append {is js : List Instr} :
    CodeAt program s (is ++ js) ↔ CodeAt program s is ∧ CodeAt program (s + is.length) js := by
  induction is generalizing s with
  | nil => simp [CodeAt]
  | cons i is ih =>
    rw [List.cons_append, CodeAt, CodeAt, ih, and_assoc, List.length_cons, Nat.add_assoc,
      Nat.add_comm 1]

theorem codeAt_toArray (before is after : List Instr) :
    CodeAt (before ++ is ++ after).toArray before.length is := by
  induction is generalizing before with
  | nil => trivial
  | cons i is ih =>
    refine ⟨by simp, ?_⟩
    have := ih (before ++ [i])
    simpa using this

/-! ## The steps of an instruction -/

theorem successors_jump (h : program[pc]? = some (.jump next)) :
    successors program text (a.at pc) = some [a.at next] := by
  simp [successors, Point.at, h]

theorem successors_char {p : Char → Bool} (h : program[pc]? = some (.char p next)) :
    successors program text (a.at pc) = some (if (text[a.pos]?).any p then
      [Point.at ⟨a.pos + 1, a.saved⟩ next] else []) := by
  simp only [successors, Point.at, h]
  cases text[a.pos]? <;> rfl

theorem successors_assert {x : Assertion} (h : program[pc]? = some (.assert x next)) :
    successors program text (a.at pc) =
      some (if assertionAt text a.pos x then [a.at next] else []) := by
  simp only [successors, Point.at, h]
  rfl

theorem successors_save {slot : Nat} (h : program[pc]? = some (.save slot next)) :
    successors program text (a.at pc) =
      some [Point.at ⟨a.pos, (slot, a.pos) :: a.saved⟩ next] := by
  simp [successors, Point.at, h]

theorem successors_split {next' : Nat} (h : program[pc]? = some (.split next next')) :
    successors program text (a.at pc) = some [a.at next, a.at next'] := by
  simp [successors, Point.at, h]

theorem successors_eq_none : successors program text t = none ↔ program[t.pc]? = some .accept := by
  unfold successors
  split <;> simp_all
  split <;> simp

/-- The split at the end of a repetition leads back to its start and on. -/
theorem successors_plus {greedy : Bool} (text : Array Char) (a : Point)
    (h : program[pc]? = some (if greedy then .split s next else .split next s)) :
    ∃ ts, successors program text (a.at pc) = some ts ∧
      ∀ u, u ∈ ts ↔ u = a.at s ∨ u = a.at next := by
  cases greedy with
  | true => exact ⟨_, successors_split h, by simp⟩
  | false => exact ⟨_, successors_split h, by simp [or_comm]⟩

/-! ## Code and matches -/

namespace Regex

variable {r : Regex}

theorem Takes.runs (h : Takes text r a b) : ∀ s next, CodeAt program s (r.code s next) →
    ∃ n, Runs program text n (a.at s) (b.at next) := by
  induction h with
  | empty a =>
    intro s next hcode
    exact ⟨1, .single (successors_jump hcode.1) (by simp)⟩
  | set hc hp =>
    intro s next hcode
    exact ⟨1, .single (successors_char hcode.1) (by simp [hc, hp])⟩
  | assert hx =>
    intro s next hcode
    exact ⟨1, .single (successors_assert hcode.1) (by simp [hx])⟩
  | @group i r a b _ ih =>
    intro s next hcode
    obtain ⟨hopen, hcode⟩ := hcode
    obtain ⟨hbody, hclose, -⟩ := codeAt_append.mp hcode
    rw [length_code] at hclose
    obtain ⟨n, hr⟩ := ih _ _ hbody
    exact ⟨_, ((Runs.single (successors_save hopen) (List.mem_singleton_self _)).trans hr).trans
      (.single (successors_save hclose) (List.mem_singleton_self _))⟩
  | seq _ _ ih₁ ih₂ =>
    intro s next hcode
    obtain ⟨hfirst, hsecond⟩ := codeAt_append.mp hcode
    rw [length_code] at hsecond
    obtain ⟨n, hr⟩ := ih₁ _ _ hfirst
    obtain ⟨n', hr'⟩ := ih₂ _ _ hsecond
    exact ⟨_, hr.trans hr'⟩
  | altLeft _ ih =>
    intro s next hcode
    obtain ⟨hsplit, hcode⟩ := hcode
    obtain ⟨n, hr⟩ := ih _ _ (codeAt_append.mp hcode).1
    exact ⟨_, (Runs.single (successors_split hsplit) (by simp)).trans hr⟩
  | altRight _ ih =>
    intro s next hcode
    obtain ⟨hsplit, hcode⟩ := hcode
    have hcode := (codeAt_append.mp hcode).2
    rw [length_code] at hcode
    obtain ⟨n, hr⟩ := ih _ _ hcode
    exact ⟨_, (Runs.single (successors_split hsplit) (by simp)).trans hr⟩
  | once _ ih =>
    intro s next hcode
    obtain ⟨hbody, hsplit, -⟩ := codeAt_append.mp hcode
    rw [length_code] at hsplit
    obtain ⟨n, hr⟩ := ih _ _ hbody
    obtain ⟨ts, hts, hmem⟩ := successors_plus text _ hsplit
    exact ⟨_, hr.trans (.single hts ((hmem _).mpr (.inr rfl)))⟩
  | more _ _ ih₁ ih₂ =>
    intro s next hcode
    obtain ⟨hbody, hsplit, -⟩ := codeAt_append.mp hcode
    rw [length_code] at hsplit
    obtain ⟨n, hr⟩ := ih₁ _ _ hbody
    obtain ⟨ts, hts, hmem⟩ := successors_plus text _ hsplit
    obtain ⟨n', hr'⟩ := ih₂ _ _ hcode
    exact ⟨_, (hr.trans (.single hts ((hmem _).mpr (.inl rfl)))).trans hr'⟩

/-- Runs from `s` that leave the code of an expression have matched it and go on at `next`. -/
def RunsThrough (program : Array Instr) (text : Array Char) (r : Regex) (s next : Nat) : Prop :=
  ∀ (n : Nat) (a : Point) (t : Thread), Runs program text n (a.at s) t →
    (t.pc < s ∨ s + r.size ≤ t.pc) →
      ∃ b k, k < n ∧ Takes text r a b ∧ Runs program text k (b.at next) t

theorem runsThrough_empty (h : program[s]? = some (.jump next)) :
    RunsThrough program text .empty s next := by
  intro n a t hr ht
  rw [size] at ht
  obtain ⟨k, hk, hr⟩ := hr.of_single (successors_jump h) (by show t.pc ≠ s; omega)
  exact ⟨a, k, hk, .empty a, hr⟩

theorem runsThrough_set {p : Char → Bool} (h : program[s]? = some (.char p next)) :
    RunsThrough program text (.set p) s next := by
  intro n a t hr ht
  rw [size] at ht
  obtain ⟨k, hk, u, hu, hr⟩ := hr.exists_successor (successors_char h) (by show t.pc ≠ s; omega)
  cases hc : text[a.pos]? with
  | none => simp [hc] at hu
  | some c =>
    rw [hc, Option.any_some] at hu
    split at hu
    · next hp =>
      obtain rfl := List.mem_singleton.mp hu
      exact ⟨_, k, hk, .set hc hp, hr⟩
    · cases hu

theorem runsThrough_assert {x : Assertion} (h : program[s]? = some (.assert x next)) :
    RunsThrough program text (.assert x) s next := by
  intro n a t hr ht
  rw [size] at ht
  obtain ⟨k, hk, u, hu, hr⟩ := hr.exists_successor (successors_assert h) (by show t.pc ≠ s; omega)
  split at hu
  · next hx =>
    obtain rfl := List.mem_singleton.mp hu
    exact ⟨a, k, hk, .assert hx, hr⟩
  · cases hu

theorem RunsThrough.group {i : Nat} (hopen : program[s]? = some (.save (2 * i) (s + 1)))
    (hclose : program[s + 1 + r.size]? = some (.save (2 * i + 1) next))
    (h : RunsThrough program text r (s + 1) (s + 1 + r.size)) :
    RunsThrough program text (.group i r) s next := by
  intro n a t hr ht
  rw [size] at ht
  obtain ⟨k, hk, hr⟩ := hr.of_single (successors_save hopen) (by show t.pc ≠ s; omega)
  obtain ⟨b, k', hk', hb, hr⟩ := h _ _ _ hr (by omega)
  obtain ⟨j, hj, hr⟩ := hr.of_single (successors_save hclose) (by show t.pc ≠ s + 1 + r.size; omega)
  exact ⟨_, j, by omega, .group hb, hr⟩

theorem RunsThrough.seq {r' : Regex} (h : RunsThrough program text r s (s + r.size))
    (h' : RunsThrough program text r' (s + r.size) next) :
    RunsThrough program text (.seq r r') s next := by
  intro n a t hr ht
  rw [size] at ht
  obtain ⟨b, k, hk, hb, hr⟩ := h _ _ _ hr (by omega)
  obtain ⟨c, j, hj, hc, hr⟩ := h' _ _ _ hr (by omega)
  exact ⟨c, j, by omega, .seq hb hc, hr⟩

theorem RunsThrough.alt {r' : Regex}
    (hsplit : program[s]? = some (.split (s + 1) (s + 1 + r.size)))
    (h : RunsThrough program text r (s + 1) next)
    (h' : RunsThrough program text r' (s + 1 + r.size) next) :
    RunsThrough program text (.alt r r') s next := by
  intro n a t hr ht
  rw [size] at ht
  obtain ⟨k, hk, u, hu, hr⟩ := hr.exists_successor (successors_split hsplit)
    (by show t.pc ≠ s; omega)
  rw [List.mem_cons, List.mem_singleton] at hu
  rcases hu with rfl | rfl
  · obtain ⟨b, j, hj, hb, hr⟩ := h _ _ _ hr (by omega)
    exact ⟨b, j, by omega, .altLeft hb, hr⟩
  · obtain ⟨b, j, hj, hb, hr⟩ := h' _ _ _ hr (by omega)
    exact ⟨b, j, by omega, .altRight hb, hr⟩

theorem RunsThrough.plus {greedy : Bool}
    (hsplit : program[s + r.size]? = some (if greedy then .split s next else .split next s))
    (h : RunsThrough program text r s (s + r.size)) :
    RunsThrough program text (.plus greedy r) s next := by
  intro n
  -- the rounds are counted by the length of the run
  induction n using Nat.strongRecOn with
  | _ n ih =>
    intro a t hr ht
    rw [size] at ht
    obtain ⟨b, k, hk, hb, hr⟩ := h _ _ _ hr (by omega)
    obtain ⟨ts, hts, hmem⟩ := successors_plus text b hsplit
    obtain ⟨j, hj, u, hu, hr⟩ := hr.exists_successor hts (by show t.pc ≠ s + r.size; omega)
    rcases (hmem u).mp hu with rfl | rfl
    · obtain ⟨c, m, hm, hc, hr⟩ := ih j (by omega) _ _ hr (by rw [size]; exact ht)
      exact ⟨c, m, by omega, .more hb hc, hr⟩
    · exact ⟨b, j, by omega, .once hb, hr⟩

/-- A run that leaves the code of an expression has matched it and goes on at its exit. -/
theorem runsThrough_code (r : Regex) (hcode : CodeAt program s (r.code s next)) :
    RunsThrough program text r s next := by
  induction r generalizing s next with
  | empty => exact runsThrough_empty hcode.1
  | set p => exact runsThrough_set hcode.1
  | assert x => exact runsThrough_assert hcode.1
  | group i r ih =>
    obtain ⟨hopen, hcode⟩ := hcode
    obtain ⟨hbody, hclose, -⟩ := codeAt_append.mp hcode
    rw [length_code] at hclose
    exact .group hopen hclose (ih hbody)
  | seq r₁ r₂ ih₁ ih₂ =>
    obtain ⟨hfirst, hsecond⟩ := codeAt_append.mp hcode
    rw [length_code] at hsecond
    exact .seq (ih₁ hfirst) (ih₂ hsecond)
  | alt r₁ r₂ ih₁ ih₂ =>
    obtain ⟨hsplit, hcode⟩ := hcode
    obtain ⟨hfirst, hsecond⟩ := codeAt_append.mp hcode
    rw [length_code] at hsecond
    exact .alt hsplit (ih₁ hfirst) (ih₂ hsecond)
  | plus greedy r ih =>
    obtain ⟨hbody, hsplit, -⟩ := codeAt_append.mp hcode
    rw [length_code] at hsplit
    exact .plus hsplit (ih hbody)

/-! ## Whole programs -/

theorem accept_notMem_code (r : Regex) (s next : Nat) : Instr.accept ∉ r.code s next := by
  induction r generalizing s next with
  | empty | set | assert => simp [code]
  | group i r ih => simp [code, ih]
  | seq r₁ r₂ ih₁ ih₂ | alt r₁ r₂ ih₁ ih₂ => simp [code, ih₁, ih₂]
  | plus greedy r ih => cases greedy <;> simp [code, ih]

theorem codeAt_compile (r : Regex) : CodeAt r.compile 0 (r.code 0 r.size) :=
  codeAt_toArray [] (r.code 0 r.size) [.accept]

theorem compile_accept_iff (r : Regex) : r.compile[pc]? = some .accept ↔ pc = r.size := by
  rw [compile, List.getElem?_toArray]
  rcases Nat.lt_trichotomy pc r.size with h | rfl | h
  · rw [List.getElem?_append_left (by rwa [length_code])]
    refine iff_of_false (fun hacc => ?_) (Nat.ne_of_lt h)
    exact accept_notMem_code r _ _ (List.mem_of_getElem? hacc)
  · rw [List.getElem?_append_right (Nat.le_of_eq (length_code ..)), length_code, Nat.sub_self]
    exact iff_of_true rfl rfl
  · refine iff_of_false ?_ (Nat.ne_of_gt h)
    rw [List.getElem?_eq_none (by simp [length_code]; omega)]
    intro hacc
    cases hacc

/-- The program of an expression accepts after a run that has matched it. -/
theorem accepts_iff (r : Regex) (a : Point) (t : Thread) :
    (∃ n, Runs r.compile text n (a.at 0) t) ∧ r.compile[t.pc]? = some .accept ↔
      Takes text r a ⟨t.pos, t.saved⟩ ∧ t.pc = r.size := by
  rw [compile_accept_iff]
  constructor
  · rintro ⟨⟨n, hr⟩, hpc⟩
    obtain ⟨b, k, -, hb, hr⟩ := runsThrough_code r r.codeAt_compile _ _ _ hr (.inr (by omega))
    cases hr with
    | done => exact ⟨hb, hpc⟩
    | step hs hu _ =>
      rw [successors_eq_none.mpr ((compile_accept_iff r).mpr rfl)] at hs
      cases hs
  · rintro ⟨h, hpc⟩
    obtain ⟨n, hr⟩ := h.runs 0 r.size r.codeAt_compile
    obtain ⟨pc, pos, saved⟩ := t
    obtain rfl : pc = r.size := hpc
    exact ⟨⟨n, hr⟩, rfl⟩

end Regex

end Amend
