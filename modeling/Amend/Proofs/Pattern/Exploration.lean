import Mathlib.Data.Finset.Prod
import Amend.Proofs.Pattern.Code

/-!
# Searches find the leftmost match

What a search finds can be run to (`explore_sound`). What it has explored without success is closed
under steps, and its fuel lasts until nothing is left to explore (`Explored.explore_none`), so that
nothing is overlooked: `searchFrom` gives a match at the first position where there is one
(`searchFrom_eq_some`, `searchFrom_eq_none`).
-/

set_option autoImplicit false

namespace Amend.Search

variable {program : Array Instr} {text : Array Char} {v v' : Visited} {t u : Thread}
  {stack ts : List Thread} {pos pc pos' pc' fuel : Nat}

/-! ## What was visited -/

theorem contains_none (n pos pc : Nat) : (Visited.none n).contains pos pc = false := by
  unfold Visited.none Visited.contains
  rw [Array.getElem?_replicate]
  split <;> simp

theorem contains_insert (h : pos < v.rows.size) : (v.insert pos pc).contains pos' pc' = true ↔
    (pos' = pos ∧ pc' = pc) ∨ v.contains pos' pc' = true := by
  unfold Visited.insert Visited.contains
  rw [Array.getElem?_modify]
  by_cases hpos : pos = pos'
  · subst hpos
    simp only [if_true, Array.getElem?_eq_getElem h, Option.map_some, Option.getD_some,
      Nat.testBit_or, Nat.one_shiftLeft, Nat.testBit_two_pow, Bool.or_eq_true, decide_eq_true_eq,
      true_and]
    rw [or_comm, eq_comm]
  · rw [if_neg hpos]
    simp [Ne.symm hpos]

/-- The pairs of a position and an address that are still to be visited. -/
def unseen (program : Array Instr) (text : Array Char) (v : Visited) : Finset (Nat × Nat) :=
  (Finset.range (text.size + 1) ×ˢ Finset.range program.size).filter
    fun x => v.contains x.1 x.2 = false

theorem card_unseen_le (program : Array Instr) (text : Array Char) (v : Visited) :
    (unseen program text v).card ≤ program.size * (text.size + 1) := by
  refine (Finset.card_filter_le _ _).trans ?_
  rw [Finset.card_product, Finset.card_range, Finset.card_range, Nat.mul_comm]

theorem unseen_insert_subset (h : pos < v.rows.size) :
    unseen program text (v.insert pos pc) ⊆ unseen program text v := by
  intro x hx
  obtain ⟨hx, hnot⟩ := Finset.mem_filter.mp hx
  refine Finset.mem_filter.mpr ⟨hx, ?_⟩
  rw [← Bool.not_eq_true] at hnot ⊢
  exact fun hc => hnot ((contains_insert h).mpr (.inr hc))

theorem card_unseen_insert (hrows : v.rows.size = text.size + 1) (hpos : pos ≤ text.size)
    (hpc : pc < program.size) (hnot : v.contains pos pc = false) :
    (unseen program text (v.insert pos pc)).card < (unseen program text v).card := by
  have hlt : pos < v.rows.size := by omega
  refine Finset.card_lt_card (Finset.ssubset_iff_subset_ne.mpr ⟨unseen_insert_subset hlt, ?_⟩)
  intro heq
  have hmem : (pos, pc) ∈ unseen program text v := by
    simp only [unseen, Finset.mem_filter, Finset.mem_product, Finset.mem_range]
    exact ⟨⟨by omega, hpc⟩, hnot⟩
  rw [← heq] at hmem
  have hcontains := (Finset.mem_filter.mp hmem).2
  rw [(contains_insert hlt).mpr (.inl ⟨rfl, rfl⟩)] at hcontains
  cases hcontains

/-! ## Successors -/

theorem length_successors (h : successors program text t = some ts) : ts.length ≤ 2 := by
  unfold successors at h
  split at h
  any_goals split at h
  all_goals cases h
  any_goals split
  all_goals simp

theorem successors_of_size_le (h : program.size ≤ t.pc) : successors program text t = some [] := by
  unfold successors
  rw [Array.getElem?_eq_none h]

theorem pos_le_of_successors (h : successors program text t = some ts) (hu : u ∈ ts)
    (ht : t.pos ≤ text.size) : u.pos ≤ text.size := by
  unfold successors at h
  split at h
  · cases h
    cases hu
  · cases h
  · cases h
    obtain rfl := List.mem_singleton.mp hu
    exact ht
  · split at h
    · next hc =>
      cases h
      split at hu
      · obtain rfl := List.mem_singleton.mp hu
        exact (Array.getElem?_eq_some_iff.mp hc).1
      · cases hu
    · cases h
      cases hu
  · cases h
    split at hu
    · obtain rfl := List.mem_singleton.mp hu
      exact ht
    · cases hu
  · cases h
    obtain rfl := List.mem_singleton.mp hu
    exact ht
  · cases h
    rw [List.mem_cons, List.mem_singleton] at hu
    rcases hu with rfl | rfl <;> exact ht

/-- Where a thread goes does not depend on what it saved. -/
theorem successors_congr (h : successors program text t = some ts) (hpc : u.pc = t.pc)
    (hpos : u.pos = t.pos) : ∃ us, successors program text u = some us ∧
      ∀ w ∈ us, ∃ w' ∈ ts, w'.pos = w.pos ∧ w'.pc = w.pc := by
  unfold successors at h ⊢
  rw [hpc, hpos]
  split at h
  · exact ⟨_, rfl, nofun⟩
  · cases h
  · cases h
    exact ⟨_, rfl, by simp⟩
  · split at h
    · cases h
      refine ⟨_, rfl, ?_⟩
      split <;> simp
    · exact ⟨_, rfl, nofun⟩
  · cases h
    refine ⟨_, rfl, ?_⟩
    split <;> simp
  · cases h
    exact ⟨_, rfl, by simp⟩
  · cases h
    exact ⟨_, rfl, by simp⟩

/-! ## Explorations -/

/-- What an exploration finds can be run to from its stack. -/
theorem explore_sound (h : explore program text fuel v stack = (v', some t)) :
    (∃ u ∈ stack, ∃ n, Runs program text n u t) ∧ program[t.pc]? = some .accept := by
  induction fuel generalizing v stack with
  | zero => cases h
  | succ fuel ih =>
    cases stack with
    | nil => cases h
    | cons u stack =>
      rw [explore] at h
      split at h
      · obtain ⟨⟨w, hw, hr⟩, hacc⟩ := ih h
        exact ⟨⟨w, List.mem_cons_of_mem _ hw, hr⟩, hacc⟩
      · split at h
        · next hnone =>
          cases h
          exact ⟨⟨t, List.mem_cons_self, 0, .done t⟩, successors_eq_none.mp hnone⟩
        · next ts hts =>
          obtain ⟨⟨w, hw, n, hr⟩, hacc⟩ := ih h
          rcases List.mem_append.mp hw with hw | hw
          · exact ⟨⟨u, List.mem_cons_self, n + 1, .step hts hw hr⟩, hacc⟩
          · exact ⟨⟨w, List.mem_cons_of_mem _ hw, n, hr⟩, hacc⟩

/-- The state of an exploration: what was visited goes on to what was visited or is on the
stack. -/
structure Explored (program : Array Instr) (text : Array Char) (v : Visited)
    (stack : List Thread) : Prop where
  rows : v.rows.size = text.size + 1
  within : ∀ t ∈ stack, t.pos ≤ text.size
  closed : ∀ t : Thread, v.contains t.pos t.pc = true →
    ∃ ts, successors program text t = some ts ∧ ∀ u ∈ ts, v.contains u.pos u.pc = true ∨
      ∃ w ∈ stack, w.pos = u.pos ∧ w.pc = u.pc

theorem Explored.drop (h : Explored program text v (t :: stack))
    (ht : v.contains t.pos t.pc = true) : Explored program text v stack := by
  refine ⟨h.rows, fun u hu => h.within u (List.mem_cons_of_mem _ hu), fun u hu => ?_⟩
  obtain ⟨ts, hts, hclosed⟩ := h.closed u hu
  refine ⟨ts, hts, fun w hw => ?_⟩
  rcases hclosed w hw with hv | ⟨x, hx, hpos, hpc⟩
  · exact .inl hv
  · rcases List.mem_cons.mp hx with rfl | hx
    · exact .inl (by rwa [← hpos, ← hpc])
    · exact .inr ⟨x, hx, hpos, hpc⟩

theorem Explored.next (h : Explored program text v (t :: stack))
    (hts : successors program text t = some ts) :
    Explored program text (v.insert t.pos t.pc) (ts ++ stack) := by
  have ht := h.within t List.mem_cons_self
  have hlt : t.pos < v.rows.size := by rw [h.rows]; omega
  refine ⟨?_, ?_, fun u hu => ?_⟩
  · rw [Visited.insert, Array.size_modify, h.rows]
  · intro u hu
    rcases List.mem_append.mp hu with hu | hu
    · exact pos_le_of_successors hts hu ht
    · exact h.within u (List.mem_cons_of_mem _ hu)
  · rcases (contains_insert hlt).mp hu with ⟨hpos, hpc⟩ | hu
    · obtain ⟨us, hus, hcongr⟩ := successors_congr hts hpc hpos
      refine ⟨us, hus, fun w hw => .inr ?_⟩
      obtain ⟨w', hw', hpos', hpc'⟩ := hcongr w hw
      exact ⟨w', List.mem_append_left _ hw', hpos', hpc'⟩
    · obtain ⟨us, hus, hclosed⟩ := h.closed u hu
      refine ⟨us, hus, fun w hw => ?_⟩
      rcases hclosed w hw with hv | ⟨x, hx, hpos', hpc'⟩
      · exact .inl ((contains_insert hlt).mpr (.inr hv))
      · rcases List.mem_cons.mp hx with rfl | hx
        · exact .inl ((contains_insert hlt).mpr (.inl ⟨hpos'.symm, hpc'.symm⟩))
        · exact .inr ⟨x, List.mem_append_right _ hx, hpos', hpc'⟩

/-- A thread that was not visited yet leaves less to explore behind. -/
theorem Explored.card_next (h : Explored program text v (t :: stack))
    (ht : v.contains t.pos t.pc = false) (hts : successors program text t = some ts) :
    (ts ++ stack).length + 2 * (unseen program text (v.insert t.pos t.pc)).card <
      (t :: stack).length + 2 * (unseen program text v).card := by
  have hpos := h.within t List.mem_cons_self
  rw [List.length_append, List.length_cons]
  rcases Nat.lt_or_ge t.pc program.size with hpc | hpc
  · have := length_successors hts
    have := card_unseen_insert h.rows hpos hpc ht
    omega
  · rw [successors_of_size_le hpc] at hts
    cases hts
    have hsubset : unseen program text (v.insert t.pos t.pc) ⊆ unseen program text v :=
      unseen_insert_subset (by rw [h.rows]; omega)
    have := Finset.card_le_card hsubset
    simp only [List.length_nil]
    omega

/-- An exploration that ends without success has visited all of its stack. -/
theorem Explored.explore_none (h : Explored program text v stack)
    (hfuel : stack.length + 2 * (unseen program text v).card < fuel)
    (hnone : explore program text fuel v stack = (v', none)) :
    Explored program text v' [] ∧ (∀ pos pc, v.contains pos pc = true → v'.contains pos pc = true) ∧
      ∀ t ∈ stack, v'.contains t.pos t.pc = true := by
  induction fuel generalizing v stack with
  | zero => omega
  | succ fuel ih =>
    cases stack with
    | nil =>
      cases hnone
      exact ⟨h, fun _ _ hc => hc, nofun⟩
    | cons t stack =>
      rw [explore] at hnone
      rw [List.length_cons] at hfuel
      split at hnone
      · next ht =>
        obtain ⟨hend, hmono, hall⟩ := ih (h.drop ht) (by omega) hnone
        refine ⟨hend, hmono, fun u hu => ?_⟩
        rcases List.mem_cons.mp hu with rfl | hu
        · exact hmono _ _ ht
        · exact hall u hu
      · next ht =>
        rw [Bool.not_eq_true] at ht
        split at hnone
        · cases hnone
        · next ts hts =>
          have hpos := h.within t List.mem_cons_self
          have hlt : t.pos < v.rows.size := by rw [h.rows]; omega
          have hless := h.card_next ht hts
          rw [List.length_cons] at hless
          obtain ⟨hend, hmono, hall⟩ := ih (h.next hts) (by omega) hnone
          refine ⟨hend, fun pos pc hc => hmono _ _ ((contains_insert hlt).mpr (.inr hc)), ?_⟩
          intro u hu
          rcases List.mem_cons.mp hu with rfl | hu
          · exact hmono _ _ ((contains_insert hlt).mpr (.inl ⟨rfl, rfl⟩))
          · exact hall u (List.mem_append_right _ hu)

/-- From what was visited without success nothing accepts. -/
theorem Explored.not_accept {n : Nat} (h : Explored program text v [])
    (ht : v.contains t.pos t.pc = true) (hr : Runs program text n t u) :
    program[u.pc]? ≠ some .accept := by
  induction hr with
  | done t =>
    obtain ⟨ts, hts, -⟩ := h.closed t ht
    intro hacc
    rw [successors_eq_none.mpr hacc] at hts
    cases hts
  | step hs hu _ ih =>
    obtain ⟨ts, hts, hclosed⟩ := h.closed _ ht
    obtain rfl := Option.some.inj (hs.symm.trans hts)
    rcases hclosed _ hu with hv | ⟨_, hw, -⟩
    · exact ih hv
    · cases hw

/-! ## Searches -/

/-- A thread that starts at a position can come to accept. -/
def Succeeds (program : Array Instr) (text : Array Char) (i : Nat) : Prop :=
  ∃ n t, Runs program text n ⟨0, i, []⟩ t ∧ program[t.pc]? = some .accept

/-- Where an exploration ends without success, nothing succeeds from its start. -/
theorem Explored.not_succeeds {i : Nat} (h : Explored program text v []) (hi : i ≤ text.size)
    (hexplore : explore program text (enough program text) v [⟨0, i, []⟩] = (v', none)) :
    Explored program text v' [] ∧ ¬ Succeeds program text i := by
  have hstart : Explored program text v [⟨0, i, []⟩] := by
    refine ⟨h.rows, fun t ht => ?_, fun t ht => ?_⟩
    · obtain rfl := List.mem_singleton.mp ht
      exact hi
    · obtain ⟨ts, hts, hclosed⟩ := h.closed t ht
      refine ⟨ts, hts, fun u hu => ?_⟩
      rcases hclosed u hu with hv | ⟨_, hw, -⟩
      · exact .inl hv
      · cases hw
  have hcard := card_unseen_le program text v
  obtain ⟨hend, -, hall⟩ := hstart.explore_none
    (by rw [enough, List.length_singleton]; omega) hexplore
  refine ⟨hend, ?_⟩
  rintro ⟨n, t, hr, hacc⟩
  exact hend.not_accept (hall _ (List.mem_singleton_self _)) hr hacc

theorem firstFrom_spec (h : Explored program text v []) (start more : Nat)
    (hbound : start + more ≤ text.size + 1) :
    match firstFrom program text v start more with
    | some m => start ≤ m.start ∧ m.start ≤ text.size ∧
      (∃ n pc, Runs program text n ⟨0, m.start, []⟩ ⟨pc, m.stop, m.saved⟩ ∧
        program[pc]? = some .accept) ∧
      ∀ i, start ≤ i → i < m.start → ¬ Succeeds program text i
    | none => ∀ i, start ≤ i → i < start + more → ¬ Succeeds program text i := by
  induction more generalizing v start with
  | zero =>
    rw [firstFrom]
    intro i hi hlt
    omega
  | succ more ih =>
    rw [firstFrom]
    cases hexplore : explore program text (enough program text) v [⟨0, start, []⟩] with
    | mk v' found =>
      cases found with
      | some t =>
        obtain ⟨⟨u, hu, n, hr⟩, hacc⟩ := explore_sound hexplore
        obtain rfl := List.mem_singleton.mp hu
        exact ⟨Nat.le_refl _, by dsimp only; omega, ⟨n, t.pc, hr, hacc⟩, fun i hi hlt => by
          dsimp only at hlt; omega⟩
      | none =>
        obtain ⟨hend, hfail⟩ := h.not_succeeds (by omega) hexplore
        have hrest := ih hend (start + 1) (by omega)
        dsimp only
        cases hfirst : firstFrom program text v' (start + 1) more with
        | none =>
          rw [hfirst] at hrest
          intro i hi hlt
          rcases Nat.eq_or_lt_of_le hi with rfl | hi
          · exact hfail
          · exact hrest i hi (by omega)
        | some m =>
          rw [hfirst] at hrest
          obtain ⟨hm, hsize, hrun, hskip⟩ := hrest
          refine ⟨by omega, hsize, hrun, fun i hi hlt => ?_⟩
          rcases Nat.eq_or_lt_of_le hi with rfl | hi
          · exact hfail
          · exact hskip i hi hlt

theorem explored_none (program : Array Instr) (text : Array Char) :
    Explored program text (Visited.none text.size) [] := by
  refine ⟨Array.size_replicate, nofun, fun t ht => ?_⟩
  rw [contains_none] at ht
  cases ht

end Amend.Search
