import Amend.Proofs.Run.Isolation
import Mathlib.Data.List.Sort

/-!
# Normal forms of paths

A path can be read component by component and put together again without those that stay where they
are; what comes of it is the normal form (`Path.normalize_eq_rebuilt`). The paths that are their own
normal form are the plain ones (`Path.normalize_eq_self_iff`). As each normal form stands for one
list of segments, comparing normal forms keeps the first spelling of each target
(`firstSpellings_iff`).
-/

set_option autoImplicit false

namespace Amend

namespace Path

/-! ## Components -/

/-- A component of a path: the root, the directory itself, the one above it, or a name. -/
inductive Component
  | root
  | here
  | above
  | name (cs : List Char)
  deriving DecidableEq

/-- The component that a piece is. Pieces that stay where they are count for nothing after the first
slash. -/
def Component.ofPiece (piece : List Char) : Option Component :=
  if isIdle piece then none
  else if piece = ['.', '.'] then some .above
  else some (.name piece)

/-- The components of a path. Where it starts with `.`, this is one of them. -/
def components (p : Path) : List Component :=
  match split p.text.toList with
  | [] => []
  | first :: rest =>
    if p.isAbsolute then .root :: rest.filterMap Component.ofPiece
    else if first = ['.'] then .here :: rest.filterMap Component.ofPiece
    else (first :: rest).filterMap Component.ofPiece

/-- A component as a path of its own. -/
def Component.toPath : Component → Path
  | root => ⟨"/"⟩
  | here => ⟨"."⟩
  | above => ⟨".."⟩
  | name cs => ⟨.ofList cs⟩

/-- The path that is read component by component. -/
def ofComponents (cs : List Component) : Path :=
  cs.foldl (fun p c => p ++ c.toPath) ⟨""⟩

/-- The component that a segment is. -/
def Component.ofSegment (segment : List Char) : Component :=
  if segment = ['.', '.'] then .above else .name segment

variable {p q : Path} {piece : List Char} {pieces : List (List Char)} {absolute : Bool}

theorem Component.toPath_ofSegment (segment : List Char) :
    (ofSegment segment).toPath = ⟨.ofList segment⟩ := by
  unfold ofSegment
  split
  · next h =>
    rw [h]
    rfl
  · rfl

theorem Component.ofSegment_ne_here (segment : List Char) : ofSegment segment ≠ .here := by
  unfold ofSegment
  split <;> nofun

theorem filterMap_ofPiece (pieces : List (List Char)) :
    pieces.filterMap Component.ofPiece = (pieces.filter (!isIdle ·)).map Component.ofSegment := by
  induction pieces with
  | nil => rfl
  | cons piece pieces ih =>
    rw [List.filterMap_cons, List.filter_cons]
    unfold Component.ofPiece Component.ofSegment at *
    cases isIdle piece with
    | true => simpa using ih
    | false => by_cases hup : piece = ['.', '.'] <;> simp [hup, ih]

/-- What is left of the components are the segments, after the root where the path starts there. -/
theorem filter_components (p : Path) : p.components.filter (· ≠ .here) =
    (if p.isAbsolute then [.root] else []) ++ p.segments.map Component.ofSegment := by
  have hsegments : ∀ segments : List (List Char),
      (segments.map Component.ofSegment).filter (· ≠ .here) = segments.map Component.ofSegment := by
    intro segments
    refine List.filter_eq_self.mpr fun c hc => ?_
    obtain ⟨segment, -, rfl⟩ := List.mem_map.mp hc
    exact decide_eq_true (Component.ofSegment_ne_here segment)
  obtain ⟨first, rest, hs⟩ := List.exists_cons_of_ne_nil (split_ne_nil p.text.toList)
  unfold components segments
  rw [hs]
  dsimp only
  simp only [filterMap_ofPiece]
  cases habs : p.isAbsolute with
  | true =>
    obtain ⟨rest', hr⟩ := split_of_isAbsolute habs
    rw [hs] at hr
    obtain ⟨rfl, rfl⟩ := List.cons.inj hr
    have hidle : (!isIdle ([] : List Char)) = false := rfl
    rw [if_pos rfl, if_pos rfl, List.filter_cons_of_pos rfl, hsegments, List.filter_cons, hidle]
    rfl
  | false =>
    rw [if_neg Bool.false_ne_true, if_neg Bool.false_ne_true, List.nil_append]
    split
    · next hdot =>
      subst hdot
      have hidle : (!isIdle ['.']) = false := rfl
      rw [List.filter_cons, List.filter_cons, hidle]
      exact hsegments _
    · exact hsegments _

/-! ## Putting segments together -/

theorem endsInSlash_ofSegments (absolute : Bool) (hne : pieces ≠ [])
    (h : ∀ piece ∈ pieces, isIdle piece = false ∧ '/' ∉ piece) :
    (ofSegments absolute pieces).endsInSlash = false := by
  obtain ⟨init, last, rfl⟩ := (List.eq_nil_or_concat' pieces).resolve_left hne
  obtain ⟨hidle, hslash⟩ := h last (by simp)
  have hlast := ne_nil_of_not_idle hidle
  obtain ⟨cs, hcs⟩ : ∃ cs, (ofSegments absolute (init ++ [last])).text.toList = cs ++ last := by
    unfold ofSegments
    rw [String.toList_ofList]
    rcases List.eq_nil_or_concat' init with rfl | ⟨_, _, rfl⟩
    · exact ⟨if absolute then ['/'] else [], by cases absolute <;> rfl⟩
    · rw [join_append (by simp) (by simp)]
      cases absolute
      · exact ⟨_, (List.append_cons ..)⟩
      · exact ⟨_, (List.append_cons ('/' :: _) ..)⟩
  rw [endsInSlash, hcs, List.getLast?_append_of_ne_nil _ hlast, beq_eq_false_iff_ne]
  intro hl
  exact hslash (List.mem_of_getLast? hl)

/-- Segments that are put together grow by one when a path of one segment is read from there. -/
theorem ofSegments_append (h : ∀ piece ∈ pieces, isIdle piece = false ∧ '/' ∉ piece)
    (hp : isIdle piece = false ∧ '/' ∉ piece) :
    ofSegments absolute pieces ++ (⟨.ofList piece⟩ : Path) =
      ofSegments absolute (pieces ++ [piece]) := by
  obtain ⟨c, cs, rfl⟩ := List.exists_cons_of_ne_nil (ne_nil_of_not_idle hp.1)
  have hc : c ≠ '/' := fun hc => hp.2 (hc ▸ List.mem_cons_self)
  have hrelative : (⟨.ofList (c :: cs)⟩ : Path).isAbsolute = false := by simp [isAbsolute, hc]
  change (ofSegments absolute pieces).append _ = _
  unfold append
  rw [hrelative, Bool.false_or]
  rcases eq_or_ne pieces [] with rfl | hne
  · cases absolute
    · rfl
    · have htext : "/" ++ String.ofList (c :: cs) = .ofList (['/'] ++ c :: cs) :=
        String.ofList_append.symm
      exact congrArg Path.mk htext
  · have hslash := endsInSlash_ofSegments absolute hne h
    have hnil : join pieces ≠ [] := by
      obtain ⟨init, last, rfl⟩ := (List.eq_nil_or_concat' pieces).resolve_left hne
      exact join_ne_nil (ne_nil_of_not_idle (h last (by simp)).1)
    have hempty : (ofSegments absolute pieces).text.isEmpty = false := by
      rw [← Bool.not_eq_true, String.isEmpty_iff, ← String.toList_eq_nil_iff]
      cases absolute <;> simp [ofSegments, hnil]
    rw [hempty, hslash, if_neg Bool.false_ne_true, if_neg Bool.false_ne_true]
    cases absolute <;>
      simp [ofSegments, join_append hne, join, String.ofList_append, String.append_assoc]

/-- The normal form is the path read component by component, without those that stay where they
are. -/
theorem normalize_eq_rebuilt (p : Path) :
    p.normalize = ofComponents (p.components.filter (· ≠ .here)) := by
  have hpieces : ∀ piece ∈ p.segments, isIdle piece = false ∧ '/' ∉ piece := fun piece hp =>
    ⟨not_idle_of_mem_segments hp, slash_notMem_of_mem_segments hp⟩
  have hstart : ((if p.isAbsolute then [Component.root] else []).foldl
      (fun p c => p ++ c.toPath) ⟨""⟩ : Path) = ofSegments p.isAbsolute [] := by
    cases p.isAbsolute <;> rfl
  rw [filter_components, ofComponents, List.foldl_append, hstart, normalize]
  generalize p.isAbsolute = absolute
  generalize p.segments = pieces at hpieces ⊢
  -- on the segments, of which each is put after those before it
  induction pieces using List.reverseRecOn with
  | nil => rfl
  | append_singleton pieces piece ih =>
    rw [List.forall_mem_append, List.forall_mem_singleton] at hpieces
    rw [List.map_append, List.foldl_append, ← ih hpieces.1, List.map_singleton, List.foldl_cons,
      List.foldl_nil, Component.toPath_ofSegment, ofSegments_append hpieces.1 hpieces.2]

/-! ## Plain paths -/

/-- No slash is followed by another one or by the end, but for the root alone, and no piece is
`.`. -/
structure Plain (p : Path) : Prop where
  single : ¬ ['/', '/'] <:+: p.text.toList
  last : p.endsInSlash = true → p.text = "/"
  moves : ['.'] ∉ split p.text.toList

/-- The pieces of a normal form: an empty one before the slash of the root, and the segments. -/
theorem split_normalize (p : Path) : split p.normalize.text.toList =
    (if p.isAbsolute then [[]] else []) ++ if p.segments = [] then [[]] else p.segments := by
  have hjoin : split (join p.segments) = if p.segments = [] then [[]] else p.segments := by
    split
    · next hnil =>
      rw [hnil]
      rfl
    · next hne => exact split_join hne fun _ => slash_notMem_of_mem_segments
  rw [← hjoin, normalize, ofSegments, String.toList_ofList]
  cases p.isAbsolute with
  | true => rw [if_pos rfl, if_pos rfl, split, if_pos rfl, List.singleton_append]
  | false => rw [if_neg Bool.false_ne_true, if_neg Bool.false_ne_true, List.nil_append]

/-- Where a piece is empty, the text is, or a slash comes first, last or after another one. -/
theorem nil_mem_split {cs : List Char} (h : [] ∈ split cs) :
    cs = [] ∨ cs.head? = some '/' ∨ cs.getLast? = some '/' ∨ ['/', '/'] <:+: cs := by
  obtain ⟨before, after, hsplit⟩ := List.append_of_mem h
  have hcs := join_split cs
  rw [hsplit] at hcs
  rcases eq_or_ne after [] with rfl | hafter
  · rcases eq_or_ne before [] with rfl | hbefore
    · exact .inl hcs.symm
    · rw [join_append hbefore (by simp)] at hcs
      exact .inr (.inr (.inl (by rw [← hcs]; simp [join])))
  · rcases eq_or_ne before [] with rfl | hbefore
    · rw [List.nil_append, join_cons hafter] at hcs
      exact .inr (.inl (by rw [← hcs]; rfl))
    · rw [join_append hbefore (by simp), join_cons hafter] at hcs
      exact .inr (.inr (.inr ⟨join before, join after, by rw [← hcs]; simp⟩))

/-- Only in the normal form of the root an empty piece comes after a slash. -/
theorem text_normalize_of_nil_mem {p : Path}
    (h : [] ∈ (split p.normalize.text.toList).tail) : p.normalize.text = "/" := by
  have hsegments : [] ∉ p.segments := fun hmem =>
    ne_nil_of_not_idle (not_idle_of_mem_segments hmem) rfl
  rw [split_normalize] at h
  by_cases hnil : p.segments = []
  · rw [normalize, hnil]
    cases habs : p.isAbsolute with
    | true => rfl
    | false => simp [habs, hnil] at h
  · rw [if_neg hnil] at h
    cases habs : p.isAbsolute with
    | true =>
      rw [habs] at h
      exact absurd h hsegments
    | false =>
      rw [habs] at h
      exact absurd (List.mem_of_mem_tail h) hsegments

theorem plain_normalize (p : Path) : p.normalize.Plain := by
  refine ⟨?_, fun hslash => ?_, fun hdot => ?_⟩
  · rintro ⟨cs, ds, htext⟩
    have hmem : [] ∈ (split p.normalize.text.toList).tail := by
      obtain ⟨first, rest, hcs⟩ := List.exists_cons_of_ne_nil (split_ne_nil cs)
      rw [← htext, List.append_assoc, List.cons_append, split_append, hcs]
      simp [split]
    rw [text_normalize_of_nil_mem hmem] at htext
    have hlength := congrArg List.length htext
    simp only [List.length_append, List.length_cons, List.length_nil] at hlength
    have hone : "/".toList.length = 1 := rfl
    omega
  · obtain ⟨ps, hps, hsplit⟩ := getLast?_split _ (by simpa [endsInSlash] using hslash)
    obtain ⟨first, rest, rfl⟩ := List.exists_cons_of_ne_nil hps
    exact text_normalize_of_nil_mem (by simp [hsplit])
  · have hsegments : ['.'] ∉ p.segments := fun hmem => by
      simpa [isIdle] using not_idle_of_mem_segments hmem
    rw [split_normalize] at hdot
    cases habs : p.isAbsolute <;> by_cases hnil : p.segments = [] <;> simp_all

theorem normalize_eq_self_iff : p.normalize = p ↔ p.Plain := by
  refine ⟨fun h => h ▸ plain_normalize p, fun h => ?_⟩
  suffices htext : p.normalize.text.toList = p.text.toList by
    obtain ⟨text⟩ := p
    exact congrArg Path.mk (String.toList_inj.mp htext)
  -- after the slash of the root the text has no idle piece, unless there is nothing else in it
  have hkept : ∀ before cs, p.text.toList = before ++ cs → ['.'] ∉ split cs → p.text ≠ "/" →
      cs ≠ [] → cs.head? ≠ some '/' → (split cs).filter (!isIdle ·) = split cs := by
    intro before cs htext hdots hroot hne hhead
    refine List.filter_eq_self.mpr fun piece hp => ?_
    have hdot : piece ≠ ['.'] := fun he => hdots (he ▸ hp)
    have hnil : piece ≠ [] := by
      rintro rfl
      rcases nil_mem_split hp with rfl | hfirst | hlast | hdouble
      · exact hne rfl
      · exact hhead hfirst
      · refine hroot (h.last ?_)
        rw [endsInSlash, htext, List.getLast?_append_of_ne_nil _ hne, hlast]
        rfl
      · exact h.single (htext ▸ hdouble.trans (List.suffix_append before cs).isInfix)
    simp [isIdle, hnil, hdot]
  have hdots := h.moves
  rw [normalize, ofSegments, String.toList_ofList, segments]
  by_cases hroot : p.text = "/"
  · rw [isAbsolute, hroot]
    rfl
  cases htext : p.text.toList with
  | nil => rw [isAbsolute, htext]; rfl
  | cons c cs =>
    rw [htext] at hdots
    by_cases hc : c = '/'
    · subst hc
      have habs : p.isAbsolute = true := by simp [isAbsolute, htext]
      rw [split, if_pos rfl] at hdots ⊢
      have hne : cs ≠ [] := by
        rintro rfl
        exact hroot (String.toList_inj.mp htext)
      have hhead : cs.head? ≠ some '/' := by
        intro hhead
        obtain ⟨rest, rfl⟩ := List.head?_eq_some_iff.mp hhead
        exact h.single ⟨[], rest, by simp [htext]⟩
      have hidle : (!isIdle ([] : List Char)) = false := rfl
      rw [habs, if_pos rfl, List.filter_cons, hidle, if_neg Bool.false_ne_true,
        hkept ['/'] cs (by simp [htext]) (fun hmem => hdots (List.mem_cons_of_mem _ hmem)) hroot
          hne hhead, join_split]
    · have habs : p.isAbsolute = false := by simp [isAbsolute, htext, hc]
      rw [habs, if_neg Bool.false_ne_true, hkept [] (c :: cs) htext hdots hroot (by simp)
        (by simpa using hc), join_split]

end Path

/-! ## The targets that are kept -/

/-- The first spellings of the targets are those that are kept, and no other list has them all in
their order. -/
theorem firstSpellings_iff {targets files : List Path} :
    FirstSpellings targets files ↔ files = distinctTargets targets := by
  refine ⟨fun h => ?_, fun h => h ▸ firstSpellings targets⟩
  have hkept := firstSpellings targets
  have hsub : ∀ {files files'}, FirstSpellings targets files → FirstSpellings targets files' →
      ∀ p ∈ files, p ∈ files' := by
    intro files files' h h' p hp
    have hfirst := h.first p hp
    obtain ⟨q, hq, hnormal⟩ := h'.all p (List.mem_of_find?_eq_some hfirst)
    have hfirst' := h'.first q hq
    rw [hnormal, hfirst] at hfirst'
    exact Option.some.inj hfirst' ▸ hq
  have hnodup : ∀ {files}, FirstSpellings targets files → files.Nodup := fun h =>
    h.distinct.imp fun hne heq => hne (congrArg Path.normalize heq)
  have hperm : files.Perm (distinctTargets targets) :=
    (List.perm_ext_iff_of_nodup (hnodup h) (hnodup hkept)).mpr fun p =>
      ⟨hsub h hkept p, hsub hkept h p⟩
  exact hperm.eq_of_pairwise (fun _ _ _ _ hlt hgt => absurd hlt (Nat.lt_asymm hgt)) h.ordered
    hkept.ordered

/-- The normal form of a path is the path without the pieces that are empty or `.`, from the root if
the path starts there. It is what the components other than `.` are put together. It is plain, and
the paths that are their own normal form are the plain ones. Two paths have one normal form exactly
if both or neither of them starts at the root and they have the same segments. Of targets, the first
of each normal form are kept, in their order. -/
theorem Path.normalize_canonical (p q : Path) (targets : List Path) :
    p.normalize.isAbsolute = p.isAbsolute ∧
    (p.normalize.segments = p.segments ∧
      p.segments = (split p.text.toList).filter (fun piece => piece ≠ [] ∧ piece ≠ ['.']) ∧
      p.normalize.segments.count ['.', '.'] = (split p.text.toList).count ['.', '.']) ∧
    split p.normalize.text.toList =
      (if p.isAbsolute then [[]] else []) ++ (if p.segments = [] then [[]] else p.segments) ∧
    p.normalize = ofComponents (p.components.filter (· ≠ .here)) ∧
    p.normalize.Plain ∧ (p.normalize = p ↔ p.Plain) ∧
    p.normalize.normalize = p.normalize ∧
    (p.normalize = q.normalize ↔ p.isAbsolute = q.isAbsolute ∧ p.segments = q.segments) ∧
    ∀ files, FirstSpellings targets files ↔ files = distinctTargets targets := by
  refine ⟨isAbsolute_normalize p, ⟨segments_normalize p, ?_, ?_⟩, split_normalize p,
    normalize_eq_rebuilt p, plain_normalize p, normalize_eq_self_iff, normalize_normalize p,
    normalize_eq_iff, fun _ => firstSpellings_iff⟩
  · refine List.filter_congr fun piece _ => ?_
    rcases piece with _ | ⟨c, cs⟩ <;> simp [isIdle, Bool.beq_eq_decide_eq]
  · rw [segments_normalize, segments, List.count_filter]
    rfl

end Amend
