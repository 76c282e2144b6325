import Amend.FileTree.StagedWrite

/-!
# The pieces of a path

`split` and `join` undo each other (`join_split`, `split_join`). A path that ends in a name has a
directory that takes the same steps but the last, up to steps that stay where they are
(`leadsTo_directory`).
-/

set_option autoImplicit false

namespace Amend.Path

/-! ## Splitting and joining -/

theorem split_ne_nil (cs : List Char) : split cs ≠ [] := by
  fun_cases split cs <;> simp_all

theorem join_cons {piece : List Char} {pieces : List (List Char)} (h : pieces ≠ []) :
    join (piece :: pieces) = piece ++ '/' :: join pieces := by
  cases pieces with
  | nil => exact absurd rfl h
  | cons p ps => rfl

theorem join_split (cs : List Char) : join (split cs) = cs := by
  induction cs with
  | nil => rfl
  | cons c cs ih =>
    rw [split]
    split
    · next hc => rw [join_cons (split_ne_nil cs), ih, hc]; rfl
    · split
      · next h => exact absurd h (split_ne_nil cs)
      · next piece pieces h =>
        rw [h] at ih
        cases pieces with
        | nil => simpa [join] using ih
        | cons p ps => simpa [join] using ih

theorem slash_notMem_of_mem_split (cs : List Char) : ∀ piece ∈ split cs, '/' ∉ piece := by
  induction cs with
  | nil => simp [split]
  | cons c cs ih =>
    rw [split]
    split
    · simpa using ih
    · next hc =>
      split
      · next h => exact absurd h (split_ne_nil cs)
      · next piece pieces h =>
        simp only [h, List.mem_cons, forall_eq_or_imp] at ih ⊢
        refine ⟨?_, ih.2⟩
        rintro (h | h)
        · exact hc h.symm
        · exact ih.1 h

theorem split_of_slash_notMem {cs : List Char} (h : '/' ∉ cs) : split cs = [cs] := by
  induction cs with
  | nil => rfl
  | cons c cs ih =>
    simp only [List.mem_cons, not_or] at h
    rw [split, if_neg (Ne.symm h.1), ih h.2]

theorem split_append_slash {piece : List Char} (h : '/' ∉ piece) (cs : List Char) :
    split (piece ++ '/' :: cs) = piece :: split cs := by
  induction piece with
  | nil => simp [split]
  | cons c piece ih =>
    simp only [List.mem_cons, not_or] at h
    rw [List.cons_append, split, if_neg (Ne.symm h.1), ih h.2]

theorem split_join {pieces : List (List Char)} (hne : pieces ≠ [])
    (h : ∀ piece ∈ pieces, '/' ∉ piece) : split (join pieces) = pieces := by
  induction pieces with
  | nil => exact absurd rfl hne
  | cons piece pieces ih =>
    simp only [List.mem_cons, forall_eq_or_imp] at h
    cases pieces with
    | nil => exact split_of_slash_notMem h.1
    | cons p ps => rw [join_cons (by simp), split_append_slash h.1, ih (by simp) h.2]

theorem join_append {ps qs : List (List Char)} (hp : ps ≠ []) (hq : qs ≠ []) :
    join (ps ++ qs) = join ps ++ '/' :: join qs := by
  induction ps with
  | nil => exact absurd rfl hp
  | cons p ps ih =>
    cases ps with
    | nil => exact join_cons hq
    | cons p' ps =>
      rw [List.cons_append, join_cons (by simp), ih (by simp),
        join_cons (List.cons_ne_nil p' ps), List.append_assoc, List.cons_append]

/-- The pieces up to some point, joined, begin what all of them are when joined. -/
theorem join_beginning (ps qs : List (List Char)) : join ps <+: join (ps ++ qs) := by
  by_cases hp : ps = []
  · simp [hp, join]
  by_cases hq : qs = []
  · simp [hq]
  rw [join_append hp hq]
  exact List.prefix_append ..

theorem getLast?_split (cs : List Char) :
    cs.getLast? = some '/' → ∃ ps, ps ≠ [] ∧ split cs = ps ++ [[]] := by
  induction cs with
  | nil => simp
  | cons c cs ih =>
    intro h
    cases cs with
    | nil =>
      obtain rfl : c = '/' := by simpa using h
      exact ⟨[[]], by simp, rfl⟩
    | cons d ds =>
      obtain ⟨ps, hps, hs⟩ := ih (by simpa using h)
      rw [split, hs]
      split
      · exact ⟨[] :: ps, by simp, rfl⟩
      · obtain ⟨p, ps, rfl⟩ := List.exists_cons_of_ne_nil hps
        exact ⟨(c :: p) :: ps, by simp, rfl⟩

theorem split_append (cs ds : List Char) : split (cs ++ '/' :: ds) = split cs ++ split ds := by
  induction cs with
  | nil => simp [split]
  | cons c cs ih =>
    rw [List.cons_append, split, ih, split]
    split
    · rfl
    · obtain ⟨piece, pieces, h⟩ := List.exists_cons_of_ne_nil (split_ne_nil cs)
      rw [h]
      rfl

/-! ## Paths read from others -/

theorem isAbsolute_append (base p : Path) :
    (base ++ p).isAbsolute = (base.isAbsolute || p.isAbsolute) := by
  change (base.append p).isAbsolute = _
  unfold append
  cases hp : p.isAbsolute with
  | true => simp [hp]
  | false =>
    cases hb : base.text.toList with
    | nil =>
      have hempty : base.text.isEmpty = true := by simpa using hb
      have hbase : base.isAbsolute = false := by simp [isAbsolute, hb]
      rw [hempty, Bool.or_true, if_pos rfl, hp, hbase, Bool.or_false]
    | cons c cs =>
      have hempty : base.text.isEmpty = false := by
        rw [← Bool.not_eq_true, String.isEmpty_iff, ← String.toList_eq_nil_iff, hb]
        exact List.cons_ne_nil c cs
      rw [hempty, Bool.or_false, if_neg Bool.false_ne_true, Bool.or_false]
      split <;> simp [isAbsolute, hb]

theorem segments_append (base p : Path) :
    (base ++ p).segments = if p.isAbsolute then p.segments else base.segments ++ p.segments := by
  change (base.append p).segments = _
  unfold append
  cases hp : p.isAbsolute with
  | true => simp
  | false =>
    rw [if_neg Bool.false_ne_true, Bool.false_or]
    split
    · next hempty =>
      have hbase : base.segments = [] := by
        have : base.text.toList = [] := by simpa using hempty
        simp [segments, this, split, isIdle]
      rw [hbase, List.nil_append]
    split
    · next hslash =>
      obtain ⟨cs, hcs⟩ := List.getLast?_eq_some_iff.mp (by simpa [endsInSlash] using hslash)
      simp [segments, hcs, split_append, split, isIdle]
    · simp [segments, split_append]

/-! ## Steps of pieces -/

/-- The steps that pieces are. -/
def stepsOf (pieces : List (List Char)) : List PathStep :=
  pieces.filterMap PathStep.ofPiece

theorem stepsOf_append (ps qs : List (List Char)) :
    stepsOf (ps ++ qs) = stepsOf ps ++ stepsOf qs :=
  List.filterMap_append

theorem innerSteps_eq (p : Path) : p.innerSteps = stepsOf (split p.text.toList) := rfl

/-- The pieces without the idle ones at their end. -/
def trimIdle (pieces : List (List Char)) : List (List Char) :=
  (pieces.reverse.dropWhile isIdle).reverse

theorem trimIdle_eq_concat {ps : List (List Char)} (h : trimIdle ps ≠ []) :
    ∃ init last, trimIdle ps = init ++ [last] ∧ isIdle last = false := by
  unfold trimIdle at *
  have hne : ps.reverse.dropWhile isIdle ≠ [] := by simpa using h
  obtain ⟨last, rest, hl⟩ := List.exists_cons_of_ne_nil hne
  refine ⟨rest.reverse, last, by simp [hl], ?_⟩
  have := List.head_dropWhile_not isIdle hne
  simpa [hl] using this

theorem trimIdle_beginning (ps : List (List Char)) : ∃ tail, ps = trimIdle ps ++ tail ∧
    ∀ piece ∈ tail, isIdle piece = true := by
  refine ⟨(ps.reverse.takeWhile isIdle).reverse, ?_, ?_⟩
  · rw [trimIdle, ← List.reverse_append, List.takeWhile_append_dropWhile, List.reverse_reverse]
  · intro piece h
    exact List.all_eq_true.mp List.all_takeWhile piece (List.mem_reverse.mp h)

theorem stepsOf_idle {ps : List (List Char)} (h : ∀ piece ∈ ps, isIdle piece = true) :
    ∃ k, stepsOf ps = List.replicate k .stay := by
  induction ps with
  | nil => exact ⟨0, rfl⟩
  | cons piece ps ih =>
    simp only [List.mem_cons, forall_eq_or_imp] at h
    obtain ⟨k, hk⟩ := ih h.2
    rcases (by simpa [isIdle] using h.1 : piece = [] ∨ piece = ['.']) with rfl | rfl
    · exact ⟨k, hk⟩
    · exact ⟨k + 1, by rw [List.replicate_succ, ← hk]; rfl⟩

theorem stepsOf_trimIdle (ps : List (List Char)) :
    ∃ k, stepsOf ps = stepsOf (trimIdle ps) ++ List.replicate k .stay := by
  obtain ⟨tail, hps, ht⟩ := trimIdle_beginning ps
  obtain ⟨k, hk⟩ := stepsOf_idle ht
  refine ⟨k, ?_⟩
  rw [← hk, ← stepsOf_append, ← hps]

/-- A path whose last piece is not empty has no steps but those between its slashes. -/
theorem steps_eq {p : Path} {init : List (List Char)} {last : List Char}
    (hs : split p.text.toList = init ++ [last]) (hl : last ≠ []) :
    p.steps = stepsOf (init ++ [last]) := by
  have hslash : p.endsInSlash = false := by
    rw [endsInSlash, beq_eq_false_iff_ne]
    intro h
    obtain ⟨ps, -, hps⟩ := getLast?_split _ h
    rw [hs] at hps
    exact hl (by simpa using (List.append_inj_right' hps rfl))
  rw [steps, hslash, innerSteps_eq, hs]
  rfl

/-- The last piece of a path is empty only where the path ends in a slash. -/
theorem exists_last_piece {p : Path} (hs : p.endsInSlash = false) (ht : p.text.toList ≠ []) :
    ∃ init last, split p.text.toList = init ++ [last] ∧ last ≠ [] := by
  have h := List.dropLast_concat_getLast (split_ne_nil p.text.toList)
  generalize (split p.text.toList).dropLast = init at h
  refine ⟨init, _, h.symm, fun hl => ?_⟩
  rw [hl] at h
  cases init with
  | nil =>
    refine ht ?_
    rw [← join_split p.text.toList, ← h]
    rfl
  | cons piece pieces =>
    rw [endsInSlash, ← join_split p.text.toList, ← h, join_append (by simp) (by simp)] at hs
    simp [join] at hs

theorem stepsOf_singleton {piece : List Char} (h : piece ≠ []) :
    ∃ step, stepsOf [piece] = [step] := by
  obtain ⟨step, hstep⟩ : ∃ step, PathStep.ofPiece piece = some step := by
    unfold PathStep.ofPiece
    rw [if_neg (by simpa using h)]
    split
    · exact ⟨_, rfl⟩
    · split <;> exact ⟨_, rfl⟩
  exact ⟨step, by simp [stepsOf, hstep]⟩

theorem steps_ne_nil {p : Path} (h : p.text.toList ≠ []) : p.steps ≠ [] := by
  unfold steps
  split
  · simp
  · next hs =>
    obtain ⟨init, last, hsplit, hlast⟩ := exists_last_piece (by simpa using hs) h
    obtain ⟨step, hstep⟩ := stepsOf_singleton hlast
    rw [innerSteps_eq, hsplit, stepsOf_append, hstep]
    simp

theorem exists_piece_of_into {p : Path} {name : String} (hs : p.endsInSlash = false)
    (hl : p.innerSteps.getLast? = some (.into name)) :
    ∃ init last, split p.text.toList = init ++ [last] ∧ isIdle last = false ∧
      p.innerSteps.dropLast = stepsOf init := by
  have ht : p.text.toList ≠ [] := by
    intro h
    simp [innerSteps_eq, h, split, stepsOf, PathStep.ofPiece] at hl
  obtain ⟨init, last, hsplit, hlast⟩ := exists_last_piece hs ht
  obtain ⟨step, hstep⟩ := stepsOf_singleton hlast
  rw [innerSteps_eq, hsplit, stepsOf_append, hstep] at hl ⊢
  refine ⟨init, last, rfl, ?_, List.dropLast_concat⟩
  by_cases hdot : last = ['.']
  · subst hdot
    simp [stepsOf, PathStep.ofPiece] at hstep
    simp [← hstep] at hl
  · simp [isIdle, hlast, hdot]

/-! ## The directory of a path -/

theorem fault?_eq_none {p : Path} : p.fault? = none ↔
    '\x00' ∉ p.text.toList ∧ p.text.toList ≠ [] ∧ p.text.utf8ByteSize ≤ lengthLimit := by
  unfold fault?
  simp only [List.contains_iff_mem, String.isEmpty_iff, ← String.toList_eq_nil_iff]
  grind

theorem utf8ByteSize_ofList_le {cs ds : List Char} (h : cs <+: ds) :
    (String.ofList cs).utf8ByteSize ≤ (String.ofList ds).utf8ByteSize := by
  obtain ⟨es, rfl⟩ := h
  rw [String.ofList_append, String.utf8ByteSize_append]
  exact Nat.le_add_right ..

theorem fault?_of_beginning {p : Path} {cs : List Char} (h : p.fault? = none)
    (hp : cs <+: p.text.toList) (hne : cs ≠ []) : (⟨.ofList cs⟩ : Path).fault? = none := by
  rw [fault?_eq_none] at h ⊢
  simp only [String.toList_ofList]
  refine ⟨fun hc => h.1 (hp.subset hc), hne, Nat.le_trans (utf8ByteSize_ofList_le hp) ?_⟩
  rw [String.ofList_toList]
  exact h.2.2

theorem split_of_isAbsolute {p : Path} (h : p.isAbsolute = true) :
    ∃ rest, split p.text.toList = [] :: rest := by
  unfold isAbsolute at h
  cases ht : p.text.toList with
  | nil => simp [ht] at h
  | cons c cs =>
    obtain rfl : c = '/' := by simpa [ht] using h
    exact ⟨split cs, by simp [split]⟩

theorem split_head_ne_nil {p : Path} {first last : List Char} {rest : List (List Char)}
    (h : p.isAbsolute = false) (hs : split p.text.toList = first :: (rest ++ [last])) :
    first ≠ [] := by
  rintro rfl
  unfold isAbsolute at h
  rw [← join_split p.text.toList, hs, join_cons (by simp)] at h
  simp at h

theorem join_ne_nil {ps : List (List Char)} {last : List Char} (h : last ≠ []) :
    join (ps ++ [last]) ≠ [] := by
  cases ps with
  | nil => exact h
  | cons p ps => rw [List.cons_append, join_cons (by simp)]; simp

theorem ne_nil_of_not_idle {piece : List Char} (h : isIdle piece = false) : piece ≠ [] := by
  rintro rfl
  simp [isIdle] at h

theorem directory_of_parent {p : Path} {cs : List Char} (h : p.parent? = some ⟨.ofList cs⟩) :
    StagedWrite.directory p = ⟨.ofList (if cs = [] then ['.'] else cs)⟩ := by
  unfold StagedWrite.directory
  rw [h]
  dsimp only
  split <;> split <;> simp_all [String.isEmpty_iff]

theorem parent?_of_parts {p : Path} {head : Option (List Char)} {init : List (List Char)}
    {last : List Char} (h : p.parts = (head, init ++ [last])) :
    p.parent? = some ⟨.ofList (if head = some [] ∧ trimIdle init = [] then ['/']
      else join (head.toList ++ trimIdle init))⟩ := by
  unfold parent?
  rw [h]
  cases head with
  | none => simp [trimIdle]
  | some first =>
    cases ht : trimIdle init with
    | nil =>
      unfold trimIdle at ht
      cases first <;> simp [ht, join]
    | cons piece pieces =>
      unfold trimIdle at ht
      simp [ht]

/-- The directory of a path that ends in a piece which leads somewhere: from the root, from `.` or
neither. -/
theorem directory_eq {p : Path} {init : List (List Char)} {last : List Char}
    (hs : split p.text.toList = init ++ [last]) (hl : isIdle last = false) :
    (p.isAbsolute = true ∧ ∃ rest, init = [] :: rest ∧
      StagedWrite.directory p =
        ⟨.ofList (if trimIdle rest = [] then ['/'] else join ([] :: trimIdle rest))⟩) ∨
    (p.isAbsolute = false ∧ ∃ rest, init = ['.'] :: rest ∧
      StagedWrite.directory p = ⟨.ofList (join (['.'] :: trimIdle rest))⟩) ∨
    (p.isAbsolute = false ∧ init.head? ≠ some [] ∧
      StagedWrite.directory p =
        ⟨.ofList (if trimIdle init = [] then ['.'] else join (trimIdle init))⟩) := by
  have hlast := ne_nil_of_not_idle hl
  have hdot : (last == ['.']) = false := by simpa [isIdle, hlast] using hl
  cases init with
  | nil =>
    have habs : p.isAbsolute = false := by
      rw [← Bool.not_eq_true]
      intro h
      obtain ⟨rest, hr⟩ := split_of_isAbsolute h
      rw [hs] at hr
      exact hlast (List.cons.inj hr).1
    have hparts : p.parts = (none, [] ++ [last]) := by simp [parts, hs, habs, hdot, hl]
    exact .inr (.inr ⟨habs, by simp, directory_of_parent (parent?_of_parts hparts)⟩)
  | cons first rest =>
    rw [List.cons_append] at hs
    cases habs : p.isAbsolute with
    | true =>
      obtain ⟨rest', hr⟩ := split_of_isAbsolute habs
      obtain rfl : first = [] := by rw [hs] at hr; exact (List.cons.inj hr).1
      have hparts : p.parts = (some [], rest ++ [last]) := by simp [parts, hs, habs, hl]
      refine .inl ⟨rfl, rest, rfl, ?_⟩
      rw [directory_of_parent (parent?_of_parts hparts)]
      by_cases ht : trimIdle rest = []
      · simp [ht]
      · simp [ht, join_cons ht]
    | false =>
      have hfirst := split_head_ne_nil habs hs
      by_cases hd : first = ['.']
      · subst hd
        have hparts : p.parts = (some ['.'], rest ++ [last]) := by simp [parts, hs, habs, hl]
        refine .inr (.inl ⟨rfl, rest, rfl, ?_⟩)
        rw [directory_of_parent (parent?_of_parts hparts)]
        by_cases ht : trimIdle rest = []
        · simp [ht, join]
        · simp [join_cons ht]
      · have hparts : p.parts = (none, (first :: rest) ++ [last]) := by
          simp [parts, hs, habs, hd, hl]
        refine .inr (.inr ⟨rfl, by simpa using hfirst, ?_⟩)
        rw [directory_of_parent (parent?_of_parts hparts)]
        by_cases ht : trimIdle (first :: rest) = []
        · simp [ht, join]
        · obtain ⟨ps, q, hpq, hq⟩ := trimIdle_eq_concat ht
          simp [hpq, join_ne_nil (ne_nil_of_not_idle hq)]

/-! ## The steps of the directory -/

theorem steps_join {ps : List (List Char)} {last : List Char}
    (h : ∀ piece ∈ ps ++ [last], '/' ∉ piece) (hl : last ≠ []) :
    (⟨.ofList (join (ps ++ [last]))⟩ : Path).steps = stepsOf (ps ++ [last]) := by
  refine steps_eq ?_ hl
  rw [String.toList_ofList]
  exact split_join (by simp) h

theorem isAbsolute_of_beginning {p : Path} {cs : List Char} (h : cs <+: p.text.toList)
    (hne : cs ≠ []) : (⟨.ofList cs⟩ : Path).isAbsolute = p.isAbsolute := by
  unfold isAbsolute
  obtain ⟨ds, hd⟩ := h
  obtain ⟨c, cs, rfl⟩ := List.exists_cons_of_ne_nil hne
  simp [← hd]

theorem fault?_dot : (⟨.ofList ['.']⟩ : Path).fault? = none := by
  rw [fault?_eq_none]
  decide

/-- What is known of the directory `q` of a path `p` when the pieces of `p` before its last one are
`init`: it takes their steps, up to steps that stay where they are. -/
structure LeadsTo (init : List (List Char)) (p q : Path) : Prop where
  fault : q.fault? = none
  isAbsolute : q.isAbsolute = p.isAbsolute
  steps : ∃ core i j, stepsOf init = core ++ List.replicate i .stay ∧
    q.steps = core ++ List.replicate j .stay

/-- The first pieces of a path, up to idle ones after them, lead where all but its last lead. -/
theorem leadsTo_join {p : Path} {init : List (List Char)} {last q : List Char}
    (ps : List (List Char)) (hs : split p.text.toList = init ++ [last]) (hp : p.fault? = none)
    (hq : q ≠ []) (hi : ∃ tail, init = (ps ++ [q]) ++ tail)
    (hk : ∃ k, stepsOf init = stepsOf (ps ++ [q]) ++ List.replicate k .stay) :
    LeadsTo init p ⟨.ofList (join (ps ++ [q]))⟩ := by
  obtain ⟨tail, hi⟩ := hi
  obtain ⟨k, hk⟩ := hk
  have hpre : join (ps ++ [q]) <+: p.text.toList := by
    rw [← join_split p.text.toList, hs, hi, List.append_assoc]
    exact join_beginning ..
  have hslash : ∀ piece ∈ ps ++ [q], '/' ∉ piece := by
    intro piece hm
    refine slash_notMem_of_mem_split p.text.toList piece ?_
    rw [hs, hi]
    exact List.mem_append_left _ (List.mem_append_left _ hm)
  exact ⟨fault?_of_beginning hp hpre (join_ne_nil hq),
    isAbsolute_of_beginning hpre (join_ne_nil hq),
    stepsOf (ps ++ [q]), k, 0, hk, by simpa using steps_join hslash hq⟩

theorem leadsTo_root {p : Path} {rest : List (List Char)} (hp : p.fault? = none)
    (h : p.isAbsolute = true) (ht : trimIdle rest = []) :
    LeadsTo ([] :: rest) p ⟨.ofList ['/']⟩ := by
  have hpre : ['/'] <+: p.text.toList := by
    unfold isAbsolute at h
    cases hc : p.text.toList with
    | nil => simp [hc] at h
    | cons c cs =>
      obtain rfl : c = '/' := by simpa [hc] using h
      exact ⟨cs, rfl⟩
  obtain ⟨k, hk⟩ := stepsOf_trimIdle rest
  refine ⟨fault?_of_beginning hp hpre (by simp), isAbsolute_of_beginning hpre (by simp),
    [], k, 1, ?_, rfl⟩
  rw [ht] at hk
  exact hk

theorem leadsTo_dot {p : Path} {init : List (List Char)} (h : p.isAbsolute = false)
    (ht : trimIdle init = []) : LeadsTo init p ⟨.ofList ['.']⟩ := by
  obtain ⟨k, hk⟩ := stepsOf_trimIdle init
  rw [ht] at hk
  exact ⟨fault?_dot, h.symm, [], k, 1, hk, rfl⟩

/-- The directory of a path is where the path leads without its last step. -/
theorem leadsTo_directory {p : Path} {init : List (List Char)} {last : List Char}
    (hs : split p.text.toList = init ++ [last]) (hl : isIdle last = false)
    (hp : p.fault? = none) : LeadsTo init p (StagedWrite.directory p) := by
  rcases directory_eq hs hl with ⟨ha, rest, rfl, hd⟩ | ⟨ha, rest, rfl, hd⟩ | ⟨ha, -, hd⟩
  · obtain ⟨tail, hrest, -⟩ := trimIdle_beginning rest
    obtain ⟨k, hk⟩ := stepsOf_trimIdle rest
    rw [hd]
    split
    · next ht => exact leadsTo_root hp ha ht
    · next ht =>
      obtain ⟨ps, q, hpq, hq⟩ := trimIdle_eq_concat ht
      rw [hpq] at hk hrest ⊢
      exact leadsTo_join ([] :: ps) hs hp (ne_nil_of_not_idle hq) ⟨tail, by simp [hrest]⟩
        ⟨k, hk⟩
  · obtain ⟨tail, hrest, -⟩ := trimIdle_beginning rest
    obtain ⟨k, hk⟩ := stepsOf_trimIdle rest
    rw [hd]
    by_cases ht : trimIdle rest = []
    · rw [ht] at hk ⊢
      exact leadsTo_join [] hs hp (by simp) ⟨rest, rfl⟩ ⟨k, congrArg (PathStep.stay :: ·) hk⟩
    · obtain ⟨ps, q, hpq, hq⟩ := trimIdle_eq_concat ht
      rw [hpq] at hk hrest ⊢
      exact leadsTo_join (['.'] :: ps) hs hp (ne_nil_of_not_idle hq) ⟨tail, by simp [hrest]⟩
        ⟨k, congrArg (PathStep.stay :: ·) hk⟩
  · obtain ⟨tail, hinit, -⟩ := trimIdle_beginning init
    obtain ⟨k, hk⟩ := stepsOf_trimIdle init
    rw [hd]
    split
    · next ht => exact leadsTo_dot ha ht
    · next ht =>
      obtain ⟨ps, q, hpq, hq⟩ := trimIdle_eq_concat ht
      rw [hpq] at hk hinit ⊢
      exact leadsTo_join ps hs hp (ne_nil_of_not_idle hq) ⟨tail, hinit⟩ ⟨k, hk⟩

end Amend.Path
