import Amend.Proofs.Pattern.Succession

/-!
# Searches look ahead

What a search finds does not depend on the positions that it went through in vain
(`searchFrom_of_not_succeeds`), nor on the text before its start, unless an assertion looks at the
last character there (`searchFrom_alike`). So successive matches of an expression that matches no
empty text can be carried from one text to another (`Regex.Succession.forall₂_shift`).
-/

set_option autoImplicit false

namespace Amend

namespace Search

variable {program : Array Instr} {text : Array Char} {d v w : Visited} {t : Thread}
  {stack stack' ts : List Thread} {fuel fuel' : Nat}

/-! ## Steps of an exploration -/

/-- An exploration with fuel to come to its end. -/
structure Lasts (program : Array Instr) (text : Array Char) (fuel : Nat) (v : Visited)
    (stack : List Thread) : Prop extends Explored program text v stack where
  fuel : stack.length + 2 * (unseen program text v).card < fuel

theorem explore_visited (h : v.contains t.pos t.pc = true) :
    explore program text (fuel + 1) v (t :: stack) = explore program text fuel v stack := by
  rw [explore, if_pos h]

theorem explore_accept (h : v.contains t.pos t.pc = false)
    (ht : successors program text t = none) :
    explore program text (fuel + 1) v (t :: stack) = (v, some t) := by
  rw [explore, if_neg (by rw [h]; exact Bool.false_ne_true), ht]

theorem explore_next (h : v.contains t.pos t.pc = false)
    (ht : successors program text t = some ts) :
    explore program text (fuel + 1) v (t :: stack) =
      explore program text fuel (v.insert t.pos t.pc) (ts ++ stack) := by
  rw [explore, if_neg (by rw [h]; exact Bool.false_ne_true), ht]

theorem Lasts.exists_succ (h : Lasts program text fuel v stack) : ∃ n, fuel = n + 1 :=
  Nat.exists_eq_succ_of_ne_zero (by have := h.fuel; omega)

theorem Lasts.explore_nil (h : Lasts program text fuel v []) :
    explore program text fuel v [] = (v, none) := by
  obtain ⟨fuel, rfl⟩ := h.exists_succ
  rfl

theorem Lasts.visited (h : Lasts program text (fuel + 1) v (t :: stack))
    (ht : v.contains t.pos t.pc = true) : Lasts program text fuel v stack := by
  refine ⟨h.drop ht, ?_⟩
  have := h.fuel
  rw [List.length_cons] at this
  omega

theorem Lasts.next (h : Lasts program text (fuel + 1) v (t :: stack))
    (ht : v.contains t.pos t.pc = false) (hts : successors program text t = some ts) :
    Lasts program text fuel (v.insert t.pos t.pc) (ts ++ stack) := by
  refine ⟨h.toExplored.next hts, ?_⟩
  have := h.fuel
  have := h.card_next ht hts
  omega

theorem Lasts.lt_rows (h : Lasts program text fuel v (t :: stack)) : t.pos < v.rows.size := by
  have := h.within t List.mem_cons_self
  rw [h.rows]
  omega

/-- Each start is explored with enough fuel. -/
theorem Explored.lasts {i : Nat} (h : Explored program text v []) (hi : i ≤ text.size) :
    Lasts program text (enough program text) v [⟨0, i, []⟩] := by
  refine ⟨⟨h.rows, fun t ht => ?_, fun t ht => ?_⟩, ?_⟩
  · obtain rfl := List.mem_singleton.mp ht
    exact hi
  · obtain ⟨ts, hts, hclosed⟩ := h.closed t ht
    refine ⟨ts, hts, fun u hu => (hclosed u hu).imp_right ?_⟩
    rintro ⟨_, hw, -⟩
    cases hw
  · have := card_unseen_le program text v
    rw [enough, List.length_singleton]
    omega

/-! ## What was explored in vain -/

/-- The thread is not at a place that was explored in vain. -/
def alive (d : Visited) (t : Thread) : Bool :=
  !d.contains t.pos t.pc

/-- Two states of an exploration differ in what was explored in vain at most. -/
structure Abreast (d v w : Visited) (stack stack' : List Thread) : Prop where
  visited : ∀ pos pc, d.contains pos pc = false → v.contains pos pc = w.contains pos pc
  pending : stack.filter (alive d) = stack'.filter (alive d)

theorem Abreast.symm (h : Abreast d v w stack stack') : Abreast d w v stack' stack :=
  ⟨fun pos pc hpos => (h.visited pos pc hpos).symm, h.pending.symm⟩

/-- From what was explored in vain one only gets to the like. -/
theorem Explored.filter_successors (hd : Explored program text d []) (ht : alive d t = false) :
    ∃ ts, successors program text t = some ts ∧ ts.filter (alive d) = [] := by
  obtain ⟨ts, hts, hclosed⟩ := hd.closed t (by simpa [alive] using ht)
  refine ⟨ts, hts, List.filter_eq_nil_iff.mpr fun u hu halive => ?_⟩
  rcases hclosed u hu with hu | ⟨_, hw, -⟩
  · rw [alive, hu] at halive
    cases halive
  · cases hw

theorem contains_insert_of_ne {pos pc : Nat} (hlt : t.pos < v.rows.size)
    (hne : ¬ (pos = t.pos ∧ pc = t.pc)) :
    (v.insert t.pos t.pc).contains pos pc = v.contains pos pc := by
  rw [Bool.eq_iff_iff, contains_insert hlt]
  exact or_iff_right hne

/-- An exploration comes to a thread that is alive, or to its end. -/
theorem Lasts.exists_alive (hd : Explored program text d [])
    (h : Lasts program text fuel v stack) : ∃ fuel₁ ≤ fuel, ∃ v₁ stack₁,
      Lasts program text fuel₁ v₁ stack₁ ∧
      explore program text fuel v stack = explore program text fuel₁ v₁ stack₁ ∧
      Abreast d v v₁ stack stack₁ ∧
      (stack₁ = [] ∨ ∃ t rest, stack₁ = t :: rest ∧ alive d t = true) := by
  induction fuel generalizing v stack with
  | zero => exact absurd h.fuel (Nat.not_lt_zero _)
  | succ fuel ih =>
    cases stack with
    | nil => exact ⟨_, Nat.le_refl _, v, [], h, rfl, ⟨fun _ _ _ => rfl, rfl⟩, .inl rfl⟩
    | cons t stack =>
      by_cases halive : alive d t = true
      · exact ⟨_, Nat.le_refl _, v, _, h, rfl, ⟨fun _ _ _ => rfl, rfl⟩,
          .inr ⟨t, stack, rfl, halive⟩⟩
      rw [Bool.not_eq_true] at halive
      cases ht : v.contains t.pos t.pc with
      | true =>
        obtain ⟨fuel₁, hle, v₁, stack₁, hlasts, heq, habreast, hend⟩ := ih (h.visited ht)
        refine ⟨fuel₁, by omega, v₁, stack₁, hlasts, ?_, ⟨habreast.visited, ?_⟩, hend⟩
        · rw [explore_visited ht, heq]
        · rw [List.filter_cons_of_neg (by rw [halive]; exact Bool.false_ne_true), habreast.pending]
      | false =>
        obtain ⟨ts, hts, hfilter⟩ := hd.filter_successors halive
        obtain ⟨fuel₁, hle, v₁, stack₁, hlasts, heq, habreast, hend⟩ := ih (h.next ht hts)
        refine ⟨fuel₁, by omega, v₁, stack₁, hlasts, ?_, ⟨fun pos pc hpos => ?_, ?_⟩, hend⟩
        · rw [explore_next ht hts, heq]
        · rw [← habreast.visited pos pc hpos, contains_insert_of_ne h.lt_rows]
          rintro ⟨rfl, rfl⟩
          rw [alive, hpos] at halive
          cases halive
        · rw [List.filter_cons_of_neg (by rw [halive]; exact Bool.false_ne_true),
            ← habreast.pending, List.filter_append, hfilter, List.nil_append]

/-- Explorations that differ in what was explored in vain find the same. -/
theorem explore_abreast (hd : Explored program text d []) (h : Lasts program text fuel v stack)
    (h' : Lasts program text fuel' w stack') (habreast : Abreast d v w stack stack') :
    (explore program text fuel v stack).2 = (explore program text fuel' w stack').2 ∧
      Abreast d (explore program text fuel v stack).1 (explore program text fuel' w stack').1
        [] [] := by
  induction fuel using Nat.strong_induction_on generalizing fuel' v w stack stack' with
  | _ fuel ih =>
    obtain ⟨fuel₁, hle, v₁, stack₁, h₁, heq, hsame, hend⟩ := h.exists_alive hd
    obtain ⟨fuel₁', -, w₁, stack₁', h₁', heq', hsame', hend'⟩ := h'.exists_alive hd
    rw [heq, heq']
    have hvisited : ∀ pos pc, d.contains pos pc = false →
        v₁.contains pos pc = w₁.contains pos pc := fun pos pc hpos => by
      rw [← hsame.visited pos pc hpos, habreast.visited pos pc hpos, hsame'.visited pos pc hpos]
    have hstacks := hsame.pending.symm.trans (habreast.pending.trans hsame'.pending)
    rcases hend with rfl | ⟨t, rest, rfl, halive⟩ <;>
      rcases hend' with rfl | ⟨t', rest', rfl, halive'⟩
    · rw [h₁.explore_nil, h₁'.explore_nil]
      exact ⟨rfl, hvisited, rfl⟩
    · rw [List.filter_cons_of_pos halive'] at hstacks
      cases hstacks
    · rw [List.filter_cons_of_pos halive] at hstacks
      cases hstacks
    -- both go on with one thread, and it is visited on neither side or on both
    rw [List.filter_cons_of_pos halive, List.filter_cons_of_pos halive'] at hstacks
    obtain ⟨rfl, hrest⟩ := List.cons.inj hstacks
    obtain ⟨n, rfl⟩ := h₁.exists_succ
    obtain ⟨n', rfl⟩ := h₁'.exists_succ
    have ht' := hvisited t.pos t.pc (by simpa [alive] using halive)
    cases ht : v₁.contains t.pos t.pc with
    | true =>
      rw [ht] at ht'
      rw [explore_visited ht, explore_visited ht'.symm]
      exact ih n (by omega) (h₁.visited ht) (h₁'.visited ht'.symm) ⟨hvisited, hrest⟩
    | false =>
      rw [ht] at ht'
      cases hts : successors program text t with
      | none =>
        rw [explore_accept ht hts, explore_accept ht'.symm hts]
        exact ⟨rfl, hvisited, rfl⟩
      | some ts =>
        rw [explore_next ht hts, explore_next ht'.symm hts]
        refine ih n (by omega) (h₁.next ht hts) (h₁'.next ht'.symm hts) ⟨fun pos pc hpos => ?_, ?_⟩
        · rw [Bool.eq_iff_iff, contains_insert h₁.lt_rows, contains_insert h₁'.lt_rows,
            hvisited pos pc hpos]
        · rw [List.filter_append, List.filter_append, hrest]

theorem firstFrom_abreast (hd : Explored program text d []) (hv : Explored program text v [])
    (hw : Explored program text w []) (habreast : Abreast d v w [] []) (start more : Nat)
    (hbound : start + more ≤ text.size + 1) :
    firstFrom program text v start more = firstFrom program text w start more := by
  induction more generalizing v w start with
  | zero => rfl
  | succ more ih =>
    have hlasts := hv.lasts (i := start) (by omega)
    have hlasts' := hw.lasts (i := start) (by omega)
    obtain ⟨hfound, hsame⟩ := explore_abreast hd hlasts hlasts' ⟨habreast.visited, rfl⟩
    rw [firstFrom, firstFrom]
    cases hexplore : explore program text (enough program text) v [⟨0, start, []⟩] with
    | mk v' found =>
      cases hexplore' : explore program text (enough program text) w [⟨0, start, []⟩] with
      | mk w' found' =>
        rw [hexplore, hexplore'] at hfound hsame
        dsimp only at hfound hsame
        subst hfound
        cases found with
        | some t => rfl
        | none =>
          have hv' := (hv.not_succeeds (by omega) hexplore).1
          have hw' := (hw.not_succeeds (by omega) hexplore').1
          exact ih hv' hw' hsame (start + 1) (by omega)

/-- A search that goes through positions in vain goes on from there as one that starts there. -/
theorem exists_firstFrom_add (hv : Explored program text v []) (start k more : Nat)
    (hbound : start + (k + more) ≤ text.size + 1)
    (hnone : ∀ i, start ≤ i → i < start + k → ¬ Succeeds program text i) :
    ∃ w, Explored program text w [] ∧
      firstFrom program text v start (k + more) = firstFrom program text w (start + k) more := by
  induction k generalizing v start with
  | zero => exact ⟨v, hv, by rw [Nat.zero_add, Nat.add_zero]⟩
  | succ k ih =>
    rw [Nat.add_right_comm, firstFrom]
    cases hexplore : explore program text (enough program text) v [⟨0, start, []⟩] with
    | mk v' found =>
      cases found with
      | some t =>
        obtain ⟨⟨u, hu, n, hr⟩, hacc⟩ := explore_sound hexplore
        obtain rfl := List.mem_singleton.mp hu
        exact absurd ⟨n, t, hr, hacc⟩ (hnone start (Nat.le_refl _) (by omega))
      | none =>
        have hv' := (hv.not_succeeds (by omega) hexplore).1
        obtain ⟨w, hw, heq⟩ := ih hv' (start + 1) (by omega) fun i hi hlt =>
          hnone i (by omega) (by omega)
        refine ⟨w, hw, ?_⟩
        dsimp only
        rw [heq, Nat.add_assoc, Nat.add_comm 1]

/-- What a search finds does not depend on where it began in vain. -/
theorem searchFrom_of_not_succeeds {start k : Nat} (hbound : start + k ≤ text.size + 1)
    (hnone : ∀ i, start ≤ i → i < start + k → ¬ Succeeds program text i) :
    searchFrom program text start = searchFrom program text (start + k) := by
  obtain ⟨more, hmore⟩ : ∃ more, text.size + 1 - start = k + more :=
    ⟨text.size + 1 - start - k, by omega⟩
  obtain ⟨w, hw, heq⟩ := exists_firstFrom_add (explored_none program text) start k more (by omega)
    hnone
  rw [searchFrom, searchFrom, hmore, heq, show text.size + 1 - (start + k) = more by omega]
  refine firstFrom_abreast hw hw (explored_none program text) ⟨fun pos pc hpos => ?_, rfl⟩ _ _
    (by omega)
  rw [hpos, contains_none]

/-! ## Texts that are the same from somewhere on -/

/-- Two texts are the same from a position in each on, also to the assertions of a program. -/
structure Alike (program : Array Instr) (text : Array Char) (a : Nat) (text' : Array Char)
    (b : Nat) : Prop where
  le_size : a ≤ text.size
  le_size' : b ≤ text'.size
  same : ∀ n : Nat, text[a + n]? = text'[b + n]?
  asserts : ∀ x next, .assert x next ∈ program → assertionAt text a x = assertionAt text' b x

/-- The threads are at the same place from there on. -/
def Thread.Shift (a b : Nat) (t t' : Thread) : Prop :=
  t.pc = t'.pc ∧ ∃ n, t.pos = a + n ∧ t'.pos = b + n

section
variable {text' : Array Char} {a b : Nat} {t' : Thread}

theorem Alike.size_sub (h : Alike program text a text' b) :
    text.size - a = text'.size - b := by
  have hle := h.le_size
  have hle' := h.le_size'
  refine Nat.le_antisymm (Nat.not_lt.mp fun hlt => ?_) (Nat.not_lt.mp fun hlt => ?_)
  · have hsame := h.same (text'.size - b)
    rw [Nat.add_sub_cancel' hle', Array.getElem?_eq_none (Nat.le_refl _),
      Array.getElem?_eq_none_iff] at hsame
    omega
  · have hsame := h.same (text.size - a)
    rw [Nat.add_sub_cancel' hle, Array.getElem?_eq_none (Nat.le_refl _), eq_comm,
      Array.getElem?_eq_none_iff] at hsame
    omega

theorem Alike.assertionAt_eq (h : Alike program text a text' b) {x : Assertion} {next : Nat}
    (hx : .assert x next ∈ program) (n : Nat) :
    assertionAt text (a + n) x = assertionAt text' (b + n) x := by
  cases n with
  | zero => exact h.asserts x next hx
  | succ n =>
    have hbefore := h.same n
    have hafter := h.same (n + 1)
    unfold assertionAt
    rw [hafter, if_neg (by omega), if_neg (by omega), ← Nat.add_assoc, ← Nat.add_assoc,
      Nat.add_sub_cancel, Nat.add_sub_cancel, hbefore]

theorem Alike.successors (h : Alike program text a text' b) (ht : t.Shift a b t') :
    Option.Rel (List.Forall₂ (Thread.Shift a b)) (successors program text t)
      (successors program text' t') := by
  obtain ⟨hpc, n, hpos, hpos'⟩ := ht
  unfold Search.successors
  rw [← hpc, hpos, hpos', h.same n]
  split
  · exact .some .nil
  · exact .none
  · exact .some (.cons ⟨rfl, n, rfl, rfl⟩ .nil)
  · cases text'[b + n]? with
    | none => exact .some .nil
    | some c =>
      dsimp only
      split
      · exact .some (.cons ⟨rfl, n + 1, rfl, rfl⟩ .nil)
      · exact .some .nil
  · next x next hx =>
    rw [h.assertionAt_eq (Array.mem_of_getElem? hx)]
    split
    · exact .some (.cons ⟨rfl, n, rfl, rfl⟩ .nil)
    · exact .some .nil
  · exact .some (.cons ⟨rfl, n, rfl, rfl⟩ .nil)
  · exact .some (.cons ⟨rfl, n, rfl, rfl⟩ (.cons ⟨rfl, n, rfl, rfl⟩ .nil))

/-- Explorations of two texts visit the same places from there on, and find the same. -/
theorem explore_alike (halike : Alike program text a text' b)
    (h : Lasts program text fuel v stack) (h' : Lasts program text' fuel' w stack')
    (hvisited : ∀ n pc, v.contains (a + n) pc = w.contains (b + n) pc)
    (hstack : List.Forall₂ (Thread.Shift a b) stack stack') :
    Option.Rel (Thread.Shift a b) (explore program text fuel v stack).2
        (explore program text' fuel' w stack').2 ∧
      ∀ n pc, (explore program text fuel v stack).1.contains (a + n) pc =
        (explore program text' fuel' w stack').1.contains (b + n) pc := by
  induction fuel generalizing fuel' v w stack stack' with
  | zero => exact absurd h.fuel (Nat.not_lt_zero _)
  | succ fuel ih =>
    obtain ⟨fuel', rfl⟩ := h'.exists_succ
    cases hstack with
    | nil =>
      rw [h.explore_nil, h'.explore_nil]
      exact ⟨.none, hvisited⟩
    | @cons t t' stack stack' ht hrest =>
      obtain ⟨hpc, n, hpos, hpos'⟩ := ht
      have hcontains : v.contains t.pos t.pc = w.contains t'.pos t'.pc := by
        rw [hpos, hpos', ← hpc, hvisited]
      cases hv : v.contains t.pos t.pc with
      | true =>
        have hw := hcontains.symm.trans hv
        rw [explore_visited hv, explore_visited hw]
        exact ih (h.visited hv) (h'.visited hw) hvisited hrest
      | false =>
        have hw := hcontains.symm.trans hv
        have hnext := halike.successors ⟨hpc, n, hpos, hpos'⟩
        cases hts : Search.successors program text t with
        | none =>
          rw [hts] at hnext
          cases hts' : Search.successors program text' t' with
          | some ts' =>
            rw [hts'] at hnext
            cases hnext
          | none =>
            rw [explore_accept hv hts, explore_accept hw hts']
            exact ⟨.some ⟨hpc, n, hpos, hpos'⟩, hvisited⟩
        | some ts =>
          rw [hts] at hnext
          cases hts' : Search.successors program text' t' with
          | none =>
            rw [hts'] at hnext
            cases hnext
          | some ts' =>
            rw [hts'] at hnext
            cases hnext with
            | some hsame =>
              rw [explore_next hv hts, explore_next hw hts']
              refine ih (h.next hv hts) (h'.next hw hts') (fun k pc => ?_)
                (List.rel_append hsame hrest)
              rw [Bool.eq_iff_iff, contains_insert h.lt_rows, contains_insert h'.lt_rows,
                hvisited, hpos, hpos', hpc, Nat.add_left_cancel_iff, Nat.add_left_cancel_iff]

end

end Search

open Search

/-- The matches are at the same place from there on. -/
def Match.Shift (a b : Nat) (m m' : Match) : Prop :=
  ∃ i j, m.start = a + i ∧ m'.start = b + i ∧ m.stop = a + j ∧ m'.stop = b + j

variable {program : Array Instr} {text text' : Array Char} {a b : Nat} {v w : Visited}

theorem firstFrom_alike (h : Alike program text a text' b) (hv : Explored program text v [])
    (hw : Explored program text' w [])
    (hvisited : ∀ n pc, v.contains (a + n) pc = w.contains (b + n) pc) (n more : Nat)
    (hbound : a + n + more ≤ text.size + 1) :
    Option.Rel (Match.Shift a b) (firstFrom program text v (a + n) more)
      (firstFrom program text' w (b + n) more) := by
  have hsize := h.size_sub
  have hle := h.le_size
  have hle' := h.le_size'
  induction more generalizing v w n with
  | zero => exact .none
  | succ more ih =>
    obtain ⟨hfound, hsame⟩ := explore_alike h (hv.lasts (i := a + n) (by omega))
      (hw.lasts (i := b + n) (by omega)) hvisited (.cons ⟨rfl, n, rfl, rfl⟩ .nil)
    rw [firstFrom, firstFrom]
    cases hexplore : explore program text (enough program text) v [⟨0, a + n, []⟩] with
    | mk v' found =>
      cases hexplore' : explore program text' (enough program text') w [⟨0, b + n, []⟩] with
      | mk w' found' =>
        rw [hexplore, hexplore'] at hfound hsame
        dsimp only at hfound hsame ⊢
        cases hfound with
        | some ht =>
          obtain ⟨-, k, hpos, hpos'⟩ := ht
          exact .some ⟨n, k, rfl, rfl, hpos, hpos'⟩
        | none =>
          have hv' := (hv.not_succeeds (by omega) hexplore).1
          have hw' := (hw.not_succeeds (by omega) hexplore').1
          exact ih hv' hw' hsame (n + 1) (by omega)

theorem searchFrom_alike (h : Alike program text a text' b) (n : Nat) :
    Option.Rel (Match.Shift a b) (searchFrom program text (a + n))
      (searchFrom program text' (b + n)) := by
  have hsize := h.size_sub
  have hle := h.le_size
  have hle' := h.le_size'
  unfold searchFrom
  rw [show text'.size + 1 - (b + n) = text.size + 1 - (a + n) by omega]
  rcases Nat.lt_or_ge (text.size + 1) (a + n) with hlt | hge
  · rw [Nat.sub_eq_zero_of_le (Nat.le_of_lt hlt)]
    exact .none
  · exact firstFrom_alike h (explored_none program text) (explored_none program text')
      (fun _ _ => by rw [contains_none, contains_none]) n _ (by omega)

/-! ## Successive matches -/

namespace Regex

variable {r : Regex} {start n k : Nat} {last last' : Option Nat} {found : Option Match}
  {ms ms' : List Match}

/-- An expression that matches no empty text passes over no match. -/
theorem Next.searched (h : Next text r start last found) (hne : NeverEmpty text r) :
    searchFrom r.compile text start = found := by
  cases h with
  | found hfound => exact hfound.searched
  | passed hm hempty =>
    have hlt : _ < _ := hne _ _ (hm.takes _ rfl).2.2
    exact absurd hempty (Nat.ne_of_lt hlt)

theorem next_of_searched (hne : NeverEmpty text r) (h : searchFrom r.compile text start = found)
    (last : Option Nat) : Next text r start last found := by
  have hleftmost := leftmost_searchFrom text r start
  rw [h] at hleftmost
  refine .found hleftmost fun m hm hempty => ?_
  have hlt : m.start < m.stop := hne _ _ (hleftmost.takes m hm).2.2
  exact absurd hempty (Nat.ne_of_lt hlt)

/-- Positions where no match starts can be passed over. -/
theorem Succession.of_not_takes (h : Succession text r start last ms) (hne : NeverEmpty text r)
    (hbound : start + k ≤ text.size + 1)
    (hnone : ∀ i, start ≤ i → i < start + k → ∀ b, ¬ Takes text r ⟨i, []⟩ b) :
    Succession text r (start + k) last ms := by
  have hsearch : searchFrom r.compile text start = searchFrom r.compile text (start + k) := by
    refine searchFrom_of_not_succeeds hbound fun i hi hlt hs => ?_
    obtain ⟨b, hb⟩ := (succeeds_iff r i).mp hs
    exact hnone i hi hlt b hb
  cases h with
  | done hnext => exact .done (next_of_searched hne (hsearch ▸ hnext.searched hne) last)
  | found hnext hrest =>
    exact .found (next_of_searched hne (hsearch ▸ hnext.searched hne) last) hrest

/-- Texts that are the same from somewhere on have the same matches from there on. -/
theorem Succession.forall₂_shift (h : Succession text r (a + n) last ms)
    (h' : Succession text' r (b + n) last' ms') (halike : Alike r.compile text a text' b)
    (hne : NeverEmpty text r) (hne' : NeverEmpty text' r) :
    List.Forall₂ (Match.Shift a b) ms ms' := by
  generalize hstart : a + n = start at h
  induction h generalizing n last' ms' with
  | done hnext =>
    subst hstart
    have hsame := searchFrom_alike halike n
    rw [hnext.searched hne] at hsame
    cases h' with
    | done => exact .nil
    | found hnext' =>
      rw [hnext'.searched hne'] at hsame
      cases hsame
  | found hnext _ ih =>
    subst hstart
    have hsame := searchFrom_alike halike n
    rw [hnext.searched hne] at hsame
    cases h' with
    | done hnext' =>
      rw [hnext'.searched hne'] at hsame
      cases hsame
    | found hnext' hrest' =>
      rw [hnext'.searched hne'] at hsame
      cases hsame with
      | some hshift =>
        refine .cons hshift ?_
        obtain ⟨i, j, -, -, hstop, hstop'⟩ := hshift
        rw [hstop'] at hrest'
        exact ih hrest' hstop.symm

end Regex

end Amend
