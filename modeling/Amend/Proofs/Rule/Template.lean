import Amend.Fault
import Amend.Proofs.Rule.Placeholder
import Mathlib.Data.List.Chain

/-!
# Templates and their sources

The segments of a template are its source, cut at the placeholders (`segmentsOf_eq_cut`). So a
template is there exactly where there are placeholders and all of them are for groups of the
pattern, writing its segments gives the source again, and filling it in replaces the placeholders
and nothing else (`ofString?_faithful`).
-/

set_option autoImplicit false

namespace Amend

namespace Segment

/-- The text of a segment, with `value` for what a capture holds. -/
def fill (value : String → List Char) : Segment → List Char
  | text s => s
  | capture name => value name

def isCapture : Segment → Bool
  | text _ => false
  | capture _ => true

end Segment

namespace Template

/-! ## Cutting a source -/

/-- What is before, between or after placeholders as segments: there is none if it is empty. -/
def plain : List Char → List Segment
  | [] => []
  | c :: cs => [.text (c :: cs)]

/-- The segments of a source from `pos` on where the placeholders in it are known. -/
def cut (source : List Char) : Nat → List Match → List Segment
  | pos, [] => plain (source.drop pos)
  | pos, m :: ms => plain (slice source pos m.start) ++
    .capture (nameOf source m) :: cut source m.stop ms

section
variable {name : String} {c : Char} {cs rest gap : List Char} {segments : List Segment}

theorem placeholder?_eq_some {w : List Char} (h : placeholder? cs = some (w, rest)) :
    isIdentifier w = true ∧ cs = w ++ '}' :: rest := by
  have hsplit := List.takeWhile_append_dropWhile (p := isIdentifierChar) (l := cs)
  unfold placeholder? at h
  split at h
  · next rest' hclose =>
    dsimp only at h
    split at h
    · next hid =>
      cases h
      exact ⟨hid, by rw [← hclose, hsplit]⟩
    · cases h
  · cases h

theorem placeholder?_append (h : isIdentifier name.toList = true) (rest : List Char) :
    placeholder? (name.toList ++ '}' :: rest) = some (name.toList, rest) := by
  have hchars := isIdentifierChar_of_isIdentifier h
  have htake : (name.toList ++ '}' :: rest).takeWhile isIdentifierChar = name.toList := by
    rw [List.takeWhile_append_of_pos hchars, List.takeWhile_cons_of_neg (by decide),
      List.append_nil]
  have hdrop : (name.toList ++ '}' :: rest).dropWhile isIdentifierChar = '}' :: rest := by
    rw [List.dropWhile_append_of_pos hchars, List.dropWhile_cons_of_neg (by decide)]
  unfold placeholder?
  rw [htake, hdrop]
  exact if_pos h

theorem segmentsOf_mark (h : isIdentifier name.toList = true) (rest : List Char) :
    segmentsOf (mark name ++ rest) = .capture name :: segmentsOf rest := by
  have hplaceholder := placeholder?_append h rest
  rw [mark, List.cons_append, List.append_assoc, List.singleton_append, segmentsOf, if_pos rfl]
  split
  · next w rest' hsome =>
    rw [hplaceholder] at hsome
    cases hsome
    rw [String.ofList_toList]
  · next hnone =>
    rw [hplaceholder] at hnone
    cases hnone

/-- A character that begins no placeholder is part of a text. -/
theorem segmentsOf_cons (h : ∀ name, isIdentifier name.toList = true → ¬ mark name <+: c :: cs) :
    segmentsOf (c :: cs) = consChar c (segmentsOf cs) := by
  rw [segmentsOf]
  split
  · next hc =>
    subst hc
    split
    · next w rest hsome =>
      obtain ⟨hid, rfl⟩ := placeholder?_eq_some hsome
      have hid : isIdentifier (String.ofList w).toList = true := by simpa using hid
      exact absurd ⟨rest, by simp [mark]⟩ (h _ hid)
    · rfl
  · rfl

theorem consChar_of_ne_text (h : ∀ s segments', segments ≠ .text s :: segments') :
    consChar c segments = .text [c] :: segments := by
  unfold consChar
  split
  · next s segments' => exact absurd rfl (h s segments')
  · rfl

theorem segmentsOf_gap (hgap : ∀ u v, gap = u ++ v → v ≠ [] →
      ∀ name, isIdentifier name.toList = true → ¬ mark name <+: v ++ rest)
    (hrest : ∀ s segments, segmentsOf rest ≠ .text s :: segments) :
    segmentsOf (gap ++ rest) = plain gap ++ segmentsOf rest := by
  induction gap with
  | nil => rfl
  | cons c gap ih =>
    have hhead : ∀ name, isIdentifier name.toList = true → ¬ mark name <+: c :: (gap ++ rest) :=
      hgap [] (c :: gap) rfl (List.cons_ne_nil _ _)
    rw [List.cons_append, segmentsOf_cons hhead,
      ih fun u v huv => hgap (c :: u) v (congrArg (c :: ·) huv)]
    cases gap with
    | nil => exact consChar_of_ne_text hrest
    | cons d gap => rfl

end

section
variable {source : List Char} {start i : Nat} {ms : List Match}

theorem segmentsOf_skip (hle : start ≤ i) (hi : i ≤ source.length)
    (hskip : ∀ j name, start ≤ j → j < i → ¬ PlaceholderAt source name j)
    (hrest : ∀ s segments, segmentsOf (source.drop i) ≠ .text s :: segments) :
    segmentsOf (source.drop start) =
      plain (slice source start i) ++ segmentsOf (source.drop i) := by
  rw [← slice_append_drop source hle]
  refine segmentsOf_gap (fun u v huv hv name hname => ?_) hrest
  exact not_prefix_of_skip hle hi
    (fun j hj hlt hstands => hskip j name hj hlt ⟨hname, hstands⟩) huv hv

/-- A source is cut at its placeholders. -/
theorem segmentsOf_eq_cut (h : Marks source start ms) (hstart : start ≤ source.length) :
    segmentsOf (source.drop start) = cut source start ms := by
  induction h with
  | @done start hnone =>
    have hend : segmentsOf (source.drop source.length) = [] := by
      rw [List.drop_length, segmentsOf]
    have hrest : ∀ s segments, segmentsOf (source.drop source.length) ≠ .text s :: segments := by
      rw [hend]
      intro s segments h
      cases h
    rw [segmentsOf_skip hstart (Nat.le_refl _) (fun j name hj _ => hnone j name hj) hrest, hend,
      List.append_nil, slice_length, cut]
  | @found start i name ms hle hplaceholder hskip _ ih =>
    have hmark : segmentsOf (source.drop i) =
        .capture name :: cut source (i + (mark name).length) ms := by
      rw [hplaceholder.2.drop_eq, segmentsOf_mark hplaceholder.1,
        ih hplaceholder.2.add_length_le]
    have hrest : ∀ s segments, segmentsOf (source.drop i) ≠ .text s :: segments := by
      rw [hmark]
      intro s segments h
      cases h
    rw [segmentsOf_skip hle hplaceholder.2.le_length hskip hrest, hmark, cut,
      nameOf_matchOf hplaceholder]
    rfl

/-! ## What is cut -/

theorem captures_append (segments segments' : List Segment) :
    captures (segments ++ segments') = captures segments ++ captures segments' :=
  List.filterMap_append ..

theorem captures_plain (s : List Char) : captures (plain s) = [] := by
  cases s <;> rfl

theorem captures_cut (source : List Char) (pos : Nat) (ms : List Match) :
    captures (cut source pos ms) = ms.map (nameOf source) := by
  induction ms generalizing pos with
  | nil => exact captures_plain _
  | cons m ms ih =>
    have hcapture : ∀ name segments,
        captures (.capture name :: segments) = name :: captures segments :=
      fun _ _ => rfl
    rw [cut, captures_append, captures_plain, hcapture, ih]
    rfl

theorem flatMap_plain (value : String → List Char) (s : List Char) :
    (plain s).flatMap (Segment.fill value) = s := by
  cases s with
  | nil => rfl
  | cons c cs => exact List.append_nil _

/-- To fill the segments of a source is to put something else in the place of its placeholders. -/
theorem flatMap_cut (value : String → List Char) (source : List Char) (pos : Nat)
    (ms : List Match) : (cut source pos ms).flatMap (Segment.fill value) =
      weave (remainder source pos ms) (gaps source pos ms)
        (ms.map fun m => value (nameOf source m)) := by
  induction ms generalizing pos with
  | nil => exact flatMap_plain value _
  | cons m ms ih =>
    rw [cut, List.flatMap_append, flatMap_plain, List.flatMap_cons, ih]
    rfl

theorem text_nil_notMem_plain (s : List Char) : .text [] ∉ plain s := by
  cases s <;> simp [plain]

theorem text_nil_notMem_cut (source : List Char) (pos : Nat) (ms : List Match) :
    .text [] ∉ cut source pos ms := by
  induction ms generalizing pos with
  | nil => exact text_nil_notMem_plain _
  | cons m ms ih =>
    intro hmem
    rcases List.mem_append.mp hmem with hplain | hmem
    · exact text_nil_notMem_plain _ hplain
    · rcases List.mem_cons.mp hmem with heq | hrest
      · cases heq
      · exact ih m.stop hrest

theorem isChain_cut (source : List Char) (pos : Nat) (ms : List Match) :
    (cut source pos ms).IsChain fun a b => a.isCapture = true ∨ b.isCapture = true := by
  have hplain : ∀ s, (plain s).IsChain fun a b => a.isCapture = true ∨ b.isCapture = true := by
    intro s
    cases s with
    | nil => exact .nil
    | cons c cs => exact .singleton _
  induction ms generalizing pos with
  | nil => exact hplain _
  | cons m ms ih =>
    refine (hplain _).append ((ih m.stop).cons fun _ _ => .inl rfl) fun _ _ b hb => ?_
    obtain rfl := Option.some.inj hb
    exact .inr rfl

end

/-! ## Putting a template together -/

/-- The template that `source` writes for a pattern, put together from the matches of the pattern of
placeholders. -/
def assemble (pattern : Pattern) (source : String) : Except TemplateFault Template :=
  go [] 0 (placeholderPattern.matchesIn source.toList)
where
  /-- The template that starts with `segments`. These end at position `last`. -/
  go (segments : List Segment) (last : Nat) : List Match → Except TemplateFault Template
    | m :: ms =>
      let name := nameOf source.toList m
      if !pattern.hasName name then .error (.unknownGroup name)
      else
        let between := if last < m.start then [.text (slice source.toList last m.start)] else []
        go (segments ++ between ++ [.capture name]) m.stop ms
    | [] =>
      let rest := if last < source.length then [.text (source.toList.drop last)] else []
      let segments := segments ++ rest
      if segments.any Segment.isCapture then .ok ⟨segments⟩ else .error .noCapture

section
variable {pattern : Pattern} {source : String} {ms : List Match}

theorem plain_slice (text : List Char) {a b : Nat} (hb : b ≤ text.length) :
    plain (slice text a b) = if a < b then [.text (slice text a b)] else [] := by
  have hlength := length_slice (a := a) hb
  cases hslice : slice text a b with
  | nil =>
    rw [hslice, List.length_nil] at hlength
    rw [if_neg (by omega)]
    rfl
  | cons c cs =>
    rw [hslice, List.length_cons] at hlength
    rw [if_pos (by omega)]
    rfl

theorem any_isCapture (segments : List Segment) :
    segments.any Segment.isCapture = !(captures segments).isEmpty := by
  induction segments with
  | nil => rfl
  | cons segment segments ih =>
    cases segment with
    | text s => exact ih
    | capture name => rfl

/-- The template with the segments, if all names are those of groups. -/
def checked (pattern : Pattern) (names : List String) (segments : List Segment) :
    Except TemplateFault Template :=
  match names.find? fun name => !pattern.hasName name with
  | some name => .error (.unknownGroup name)
  | none => if (captures segments).isEmpty then .error .noCapture else .ok ⟨segments⟩

theorem checked_eq_ok {names : List String} {segments : List Segment} {t : Template} :
    checked pattern names segments = .ok t ↔
      (names.find? fun name => !pattern.hasName name) = none ∧ captures segments ≠ [] ∧
        t = ⟨segments⟩ := by
  unfold checked
  cases names.find? fun name => !pattern.hasName name with
  | some name => simp
  | none => cases captures segments <;> simp [eq_comm]

theorem checked_eq_error {names : List String} {segments : List Segment} {fault : TemplateFault} :
    checked pattern names segments = .error fault ↔
      (∃ name, (names.find? fun name => !pattern.hasName name) = some name ∧
        fault = .unknownGroup name) ∨
      (names.find? fun name => !pattern.hasName name) = none ∧ captures segments = [] ∧
        fault = .noCapture := by
  unfold checked
  cases names.find? fun name => !pattern.hasName name with
  | some name =>
    simp only [Except.error.injEq, Option.some.injEq, exists_eq_left', reduceCtorEq, false_and,
      or_false]
    exact eq_comm
  | none => cases captures segments <;> simp [eq_comm]

theorem assemble_go {last : Nat} (h : Regex.Follow source.length last ms)
    (segments : List Segment) : assemble.go pattern source segments last ms =
      checked pattern (ms.map (nameOf source.toList)) (segments ++ cut source.toList last ms) := by
  induction ms generalizing last segments with
  | nil =>
    have hrest := plain_slice source.toList (a := last) (Nat.le_refl _)
    rw [slice_length, String.length_toList] at hrest
    rw [assemble.go, cut, hrest, any_isCapture, checked, List.map_nil, List.find?_nil]
    cases (captures (segments ++ _)).isEmpty <;> rfl
  | cons m ms ih =>
    obtain ⟨-, hspan, hsize, hfollow⟩ := h
    have hbetween := plain_slice source.toList (a := last) (b := m.start) (by
      rw [String.length_toList]
      omega)
    rw [assemble.go, checked, List.map_cons, List.find?_cons, cut, hbetween]
    cases pattern.hasName (nameOf source.toList m) with
    | false => rfl
    | true =>
      dsimp only
      rw [ih hfollow, checked]
      simp

theorem ofString?_eq_checked (pattern : Pattern) (source : String) :
    ofString? pattern source =
      checked pattern ((placeholderPattern.matchesIn source.toList).map (nameOf source.toList))
        (cut source.toList 0 (placeholderPattern.matchesIn source.toList)) := by
  have hcut := segmentsOf_eq_cut (marks_matchesIn source.toList) (Nat.zero_le _)
  rw [List.drop_zero] at hcut
  rw [← captures_cut _ 0, ← hcut]
  rfl

/-- Reading a source character by character and putting the template together from matches come to
the same. -/
theorem ofString?_eq_assemble (pattern : Pattern) (source : String) :
    ofString? pattern source = assemble pattern source := by
  have hfollow := (marks_matchesIn source.toList).follow
  rw [String.length_toList] at hfollow
  rw [ofString?_eq_checked, assemble, assemble_go hfollow, List.nil_append]

end

/-! ## Names of groups -/

/-- The first placeholder in a source that names no group of the pattern is one for `name`. -/
def FirstUnknown (pattern : Pattern) (source : List Char) (name : String) : Prop :=
  ∃ i, PlaceholderAt source name i ∧ pattern.hasName name = false ∧
    ∀ j name', j < i → PlaceholderAt source name' j → pattern.hasName name' = true

section
variable {pattern : Pattern} {source : List Char} {name name' : String} {ms : List Match}

theorem FirstUnknown.unique (h : FirstUnknown pattern source name)
    (h' : FirstUnknown pattern source name') : name = name' := by
  obtain ⟨i, hplaceholder, hunknown, hbefore⟩ := h
  obtain ⟨i', hplaceholder', hunknown', hbefore'⟩ := h'
  rcases Nat.lt_trichotomy i i' with hlt | rfl | hlt
  · rw [hbefore' i name hlt hplaceholder] at hunknown
    cases hunknown
  · exact hplaceholder.unique hplaceholder'
  · rw [hbefore i' name' hlt hplaceholder'] at hunknown'
    cases hunknown'

theorem find?_unknown_eq_none (h : Marks source 0 ms) :
    ((ms.map (nameOf source)).find? fun name => !pattern.hasName name) = none ↔
      ∀ i name, PlaceholderAt source name i → pattern.hasName name = true := by
  rw [List.find?_eq_none]
  simp only [List.forall_mem_map, Bool.not_eq_true', Bool.not_eq_false]
  constructor
  · intro hknown i name hplaceholder
    have hm := hknown _ (h.mem_iff.mpr ⟨i, name, Nat.zero_le i, hplaceholder, rfl⟩)
    rwa [nameOf_matchOf hplaceholder] at hm
  · intro hknown m hm
    obtain ⟨i, name, -, hplaceholder, rfl⟩ := h.mem_iff.mp hm
    rw [nameOf_matchOf hplaceholder]
    exact hknown i name hplaceholder

/-- What is found to be unknown comes first. -/
theorem firstUnknown_of_find? (h : Marks source 0 ms)
    (hfind : ((ms.map (nameOf source)).find? fun name => !pattern.hasName name) = some name) :
    FirstUnknown pattern source name := by
  rw [List.find?_map, Option.map_eq_some_iff] at hfind
  obtain ⟨m, hm, hname⟩ := hfind
  obtain ⟨hunknown, before, after, rfl, hbefore⟩ := List.find?_eq_some_iff_append.mp hm
  obtain ⟨i, name', -, hplaceholder, rfl⟩ :=
    h.mem_iff.mp (List.mem_append_right _ List.mem_cons_self)
  rw [nameOf_matchOf hplaceholder] at hname
  subst hname
  rw [Function.comp_apply, nameOf_matchOf hplaceholder, Bool.not_eq_true'] at hunknown
  refine ⟨i, hplaceholder, hunknown, fun j name hlt hplaceholder' => ?_⟩
  -- a placeholder further to the left is among the matches that were passed over
  have hmem := h.mem_iff.mpr ⟨j, name, Nat.zero_le j, hplaceholder', rfl⟩
  rcases List.mem_append.mp hmem with hmem | hmem
  · have hknown := hbefore _ hmem
    simpa [nameOf_matchOf hplaceholder'] using hknown
  · have hle : i ≤ j := by
      rcases List.mem_cons.mp hmem with heq | hmem
      · exact Nat.le_of_eq (congrArg Match.start heq).symm
      · have hafter := (List.pairwise_append.mp h.pairwise).2.1
        exact Nat.le_of_add_right_le ((List.pairwise_cons.mp hafter).1 _ hmem)
    omega

theorem find?_unknown_eq_some (h : Marks source 0 ms) :
    ((ms.map (nameOf source)).find? fun name => !pattern.hasName name) = some name ↔
      FirstUnknown pattern source name := by
  refine ⟨firstUnknown_of_find? h, fun hfirst => ?_⟩
  cases hfind : (ms.map (nameOf source)).find? fun name => !pattern.hasName name with
  | some name' => rw [(firstUnknown_of_find? h hfind).unique hfirst]
  | none =>
    obtain ⟨i, hplaceholder, hunknown, -⟩ := hfirst
    rw [(find?_unknown_eq_none h).mp hfind i name hplaceholder] at hunknown
    cases hunknown

end

/-- The template that is read, and when there is one. -/
theorem ofString?_eq_ok_iff {pattern : Pattern} {source : String} {t : Template} :
    ofString? pattern source = .ok t ↔
      (∀ i name, PlaceholderAt source.toList name i → pattern.hasName name = true) ∧
      (∃ i name, PlaceholderAt source.toList name i) ∧
      t = ⟨cut source.toList 0 (placeholderPattern.matchesIn source.toList)⟩ := by
  have hmarks := marks_matchesIn source.toList
  rw [ofString?_eq_checked, checked_eq_ok, find?_unknown_eq_none hmarks, captures_cut, Ne,
    List.map_eq_nil_iff, hmarks.eq_nil_iff]
  simp only [not_forall, not_not]

/-- The fault of a source that writes no template. -/
theorem ofString?_eq_error_iff {pattern : Pattern} {source : String} {fault : TemplateFault} :
    ofString? pattern source = .error fault ↔
      (∃ name, FirstUnknown pattern source.toList name ∧ fault = .unknownGroup name) ∨
      (∀ i name, ¬ PlaceholderAt source.toList name i) ∧ fault = .noCapture := by
  have hmarks := marks_matchesIn source.toList
  rw [ofString?_eq_checked, checked_eq_error, find?_unknown_eq_none hmarks, captures_cut,
    List.map_eq_nil_iff, hmarks.eq_nil_iff]
  simp only [find?_unknown_eq_some hmarks]
  refine or_congr_right (and_iff_right_of_imp fun ⟨hnone, _⟩ i name hplaceholder => ?_)
  exact absurd hplaceholder (hnone i name)

/-! ## Filling a template in -/

section
variable {pattern : Pattern} {source : List Char} {ms : List Match}

/-- The placeholders as they are written, with what is around them, make up the source. -/
theorem weave_names (h : Marks source 0 ms) :
    weave (remainder source 0 ms) (gaps source 0 ms) (ms.map fun m => mark (nameOf source m)) =
      source := by
  have hnames : ms.map (fun m => mark (nameOf source m)) = ms.map (·.matched source) := by
    refine List.map_congr_left fun m hm => ?_
    obtain ⟨i, name, -, hplaceholder, rfl⟩ := h.mem_iff.mp hm
    rw [nameOf_matchOf hplaceholder, matched_matchOf hplaceholder]
  rw [hnames, weave_matched h.follow, List.drop_zero]

theorem textNamed_eq (pattern : Pattern) (m : Match) (text : List Char) (name : String) :
    pattern.textNamed m text name = match (pattern.names.lookup name).bind m.group? with
      | some (a, b) => slice text a b
      | none => [] := by
  unfold Pattern.textNamed Match.textOf
  cases pattern.names.lookup name <;> rfl

theorem render_eq_flatMap (pattern : Pattern) (t : Template) (m : Match) (text : List Char) :
    t.render pattern m text = t.segments.flatMap (Segment.fill (pattern.textNamed m text)) :=
  rfl

theorem message_unknownGroup (name : String) :
    (RuleFault.template (.unknownGroup name)).message = "template uses " ++ .ofList (mark name) ++
      " but the pattern has no group named '" ++ name ++ "'" := by
  have hmark : String.ofList (mark name) = "\x7b" ++ name ++ "\x7d" := by
    rw [mark, String.ofList_cons, String.ofList_append, String.ofList_toList,
      ← String.append_assoc]
    rfl
  have hopen : "template uses \x7b" = "template uses " ++ "\x7b" := rfl
  have hclose : "\x7d but the pattern has no group named '" =
    "\x7d" ++ " but the pattern has no group named '" := rfl
  unfold RuleFault.message
  dsimp only
  rw [hmark, hopen, hclose]
  simp only [String.append_assoc]

end

/-- A template is what is written around its placeholders. It is there if there are placeholders
and all of them name groups of the pattern; else the fault is the first that does not, or that there
is none. Its segments are the source as it is written: no text among them is empty, no two of them
follow each other, and the template of a match is the source with the text of the group in the place
of each placeholder. The placeholders are all identifiers in braces, and they are found by their
pattern, whose matches the template can be put together from. -/
theorem ofString?_faithful (pattern : Pattern) (source : String) :
    let src := source.toList
    let marks := placeholderPattern.matchesIn src
    (Pattern.ofString? placeholderSource = .ok placeholderPattern ∧
      (∀ m, m ∈ marks ↔ ∃ i name, PlaceholderAt src name i ∧ m = matchOf name i) ∧
      (marks.Pairwise fun m m' => m.stop ≤ m'.start) ∧
      ofString? pattern source = assemble pattern source) ∧
    ((∃ t, ofString? pattern source = .ok t) ↔ (∃ i name, PlaceholderAt src name i) ∧
      ∀ i name, PlaceholderAt src name i → pattern.hasName name = true) ∧
    (∀ t, ofString? pattern source = .ok t →
      t.segments.flatMap (Segment.fill mark) = src ∧ .text [] ∉ t.segments ∧
      (t.segments.IsChain fun a b => a.isCapture = true ∨ b.isCapture = true) ∧
      src = weave (remainder src 0 marks) (gaps src 0 marks)
        (marks.map fun m => mark (nameOf src m)) ∧
      ∀ m text, t.render pattern m text = weave (remainder src 0 marks) (gaps src 0 marks)
        (marks.map fun found => match (pattern.names.lookup (nameOf src found)).bind m.group? with
          | some (a, b) => slice text a b
          | none => [])) ∧
    ∀ fault, ofString? pattern source = .error fault ↔
      (∃ name, FirstUnknown pattern src name ∧ fault = .unknownGroup name ∧
        (RuleFault.template fault).message = "template uses " ++ .ofList (mark name) ++
          " but the pattern has no group named '" ++ name ++ "'") ∨
      (∀ i name, ¬ PlaceholderAt src name i) ∧ fault = .noCapture ∧
        (RuleFault.template fault).message =
          "structural template re-emits no capture; use a substitution instead" := by
  intro src marks
  have hmarks : Marks src 0 marks := marks_matchesIn src
  have hwritten := weave_names hmarks
  refine ⟨⟨ofString?_placeholderSource, ?_, hmarks.pairwise,
    ofString?_eq_assemble pattern source⟩, ?_, ?_, ?_⟩
  · intro m
    simp only [hmarks.mem_iff, Nat.zero_le, true_and]
  · constructor
    · intro ⟨t, ht⟩
      obtain ⟨hknown, hplaceholder, -⟩ := ofString?_eq_ok_iff.mp ht
      exact ⟨hplaceholder, hknown⟩
    · intro ⟨hplaceholder, hknown⟩
      exact ⟨_, ofString?_eq_ok_iff.mpr ⟨hknown, hplaceholder, rfl⟩⟩
  · intro t ht
    obtain ⟨-, -, rfl⟩ := ofString?_eq_ok_iff.mp ht
    refine ⟨?_, text_nil_notMem_cut src 0 marks, isChain_cut src 0 marks, hwritten.symm, ?_⟩
    · exact (flatMap_cut mark src 0 marks).trans hwritten
    · intro m text
      rw [render_eq_flatMap, flatMap_cut]
      simp only [textNamed_eq]
      rfl
  · intro fault
    rw [ofString?_eq_error_iff]
    constructor
    · rintro (⟨name, hfirst, rfl⟩ | ⟨hnone, rfl⟩)
      · exact .inl ⟨name, hfirst, rfl, message_unknownGroup name⟩
      · exact .inr ⟨hnone, rfl, rfl⟩
    · rintro (⟨name, hfirst, hfault, -⟩ | ⟨hnone, hfault, -⟩)
      · exact .inl ⟨name, hfirst, hfault⟩
      · exact .inr ⟨hnone, hfault⟩

/-- Braces that are not closed, are nested or hold no identifier are text. -/
example : segmentsOf "f(\x7b\x7ba\x7d\x7d, \x7bb c\x7d, \x7b1\x7d\x7bb)".toList =
    [.text "f(\x7b".toList, .capture "a",
      .text "\x7d, \x7bb c\x7d, \x7b1\x7d\x7bb)".toList] := by
  decide +kernel

end Template

end Amend
