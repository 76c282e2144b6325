import Amend.Proofs.Rule.AccessRule

/-!
# Field rules are complete and stable

With the default accessor, the rule for a field replaces the accesses to it from left to right
(`accessed_apply`). So the rules for all fields together leave no access to any of them, and have
nothing to do when they are applied again (`applyAll_expand_stable`).
-/

set_option autoImplicit false

namespace Amend

namespace FieldSpec

/-! ## The rule with the default accessor -/

theorem toList_defaultAccessor : defaultAccessor.toList = receiverMark.toList ++
    (".try_get(\"".toList ++ (fieldMark.toList ++ "\").unwrap_or_default()".toList)) := by
  rfl

theorem fill_defaultAccessor (w name : List Char) :
    fill w name defaultAccessor.toList = w ++ inserted name := by
  rw [toList_defaultAccessor, fill_receiver, fill_append (by decide), fill_field,
    ← List.append_nil "\").unwrap_or_default()".toList, fill_append (by decide), fill]
  rfl

/-- The rule for the accesses to a field with the default accessor. -/
def fieldRule (receiver : Option String) (source name : String) : Rule :=
  accessRule defaultAccessor receiver source name

variable {receiver : Option String} {source name : String} {text before gap cs out : List Char}
  {b : Option Char}

/-- A gap in which no access begins is kept. -/
theorem Accessed.of_gap {f : List Char}
    (hgap : ∀ u v, gap = u ++ v → v ≠ [] → ∀ w rest,
      ¬ Access receiver f (lastOr b u) (v ++ cs) w rest)
    (h : Accessed receiver f (lastOr b gap) cs out) :
    Accessed receiver f b (gap ++ cs) (gap ++ out) := by
  induction gap generalizing b with
  | nil => exact h
  | cons c gap ih =>
    refine .skip (hgap [] (c :: gap) rfl (List.cons_ne_nil _ _)) (ih (fun u v huv hv => ?_) h)
    exact hgap (c :: u) v (congrArg (c :: ·) huv) hv

theorem lastOr_split (b : Option Char) (u v : List Char) :
    lastOr b (u ++ v) = lastOr (lastOr b u) v := by
  induction u generalizing b with
  | nil => rfl
  | cons c u ih => exact ih (some c)

/-- A gap in which no match begins is kept. -/
theorem Accessed.of_unmatched (hreceiver : ∀ r, receiver = some r → isIdentifier r.toList = true)
    (hname : isIdentifier name.toList = true) (htext : text = before ++ (gap ++ cs))
    (hskip : ∀ i, before.length ≤ i → i < (before ++ gap).length →
      ∀ b, ¬ Regex.Takes text.toArray (accessRegex receiver name) ⟨i, []⟩ b)
    (h : Accessed receiver name.toList (lastOr none (before ++ gap)) cs out) :
    Accessed receiver name.toList (lastOr none before) (gap ++ cs) (gap ++ out) := by
  rw [lastOr_split] at h
  refine .of_gap (fun u v huv hv w rest hacc => ?_) h
  subst huv
  have hsplit : text = (before ++ u) ++ (v ++ cs) := by
    rw [htext]
    simp
  rw [← lastOr_split, lastOr_none] at hacc
  have hpos := List.length_pos_iff.mpr hv
  refine hskip (before ++ u).length ?_ ?_ _
    ((takes_accessRegex hreceiver hname hsplit).mpr ⟨w, rest, hacc, rfl⟩)
  · simp
  · simp only [List.length_append]
    omega

/-- What a match becomes: its receiver, and what is put in the place of the access. -/
theorem rewrite_fieldRule (receiver : Option String) (source : String) {m : Match}
    {w : List Char} (hname : isIdentifier name.toList = true) (htext : text = before ++ (w ++ cs))
    (hsaved : m.saved = [(3, (before ++ w).length), (2, before.length)]) :
    (fieldRule receiver source name).strategy.rewrite (fieldRule receiver source name).pattern
      text m = w ++ inserted name.toList := by
  refine (replacing_accessRule defaultAccessor receiver source hname text m).trans ?_
  rw [textNamed_receiver htext hsaved, fill_defaultAccessor]

theorem exists_gap {i : Nat} (htext : text = before ++ cs) (hle : before.length ≤ i)
    (hi : i ≤ text.length) : ∃ gap tail, cs = gap ++ tail ∧ i = (before ++ gap).length := by
  refine ⟨cs.take (i - before.length), cs.drop (i - before.length),
    (List.take_append_drop ..).symm, ?_⟩
  simp only [List.length_append, List.length_take, htext] at hi ⊢
  omega

/-- What is made of a text by the edits of a scan. -/
theorem accessed_splice (hreceiver : ∀ r, receiver = some r → isIdentifier r.toList = true)
    (hname : isIdentifier name.toList = true) {start : Nat} {ms : List Match}
    (h : Regex.Scan text.toArray (accessRegex receiver name) start ms)
    (htext : text = before ++ cs) (hstart : start = before.length) :
    Accessed receiver name.toList (lastOr none before) cs (splice start cs (ms.map fun m =>
      ⟨m.start, m.stop, (fieldRule receiver source name).strategy.rewrite
        (fieldRule receiver source name).pattern text m⟩)) := by
  induction h generalizing before cs with
  | done hnone =>
    subst hstart
    have htext' : text = before ++ (cs ++ []) := by rw [htext, List.append_nil]
    have hgap : Accessed receiver name.toList (lastOr none before) (cs ++ []) (cs ++ []) := by
      refine .of_unmatched hreceiver hname htext' (fun i hle hi b => hnone i hle ?_ b) (.nil _)
      rw [List.size_toArray, htext]
      exact Nat.le_of_lt hi
    rwa [List.append_nil] at hgap
  | @found start m ms hle hm htakes hskip _ ih =>
    subst hstart
    rw [List.size_toArray] at hm
    obtain ⟨gap, tail, rfl, hgap⟩ := exists_gap htext hle hm
    have htext' : text = (before ++ gap) ++ tail := by rw [htext, List.append_assoc]
    rw [hgap] at htakes hskip
    obtain ⟨w, rest, hacc, hpoint⟩ := (takes_accessRegex hreceiver hname htext').mp htakes
    obtain ⟨hstop, hsaved⟩ := Point.mk.inj hpoint
    obtain rfl := hacc.eq
    have hnew := rewrite_fieldRule receiver source hname htext' hsaved
    have htake : (gap ++ (w ++ '.' :: (name.toList ++ rest))).take (m.start - before.length) =
        gap := by
      rw [hgap, List.length_append, Nat.add_sub_cancel_left, List.take_left]
    have hdrop : (gap ++ (w ++ '.' :: (name.toList ++ rest))).drop (m.stop - before.length) =
        rest := by
      have hassoc : gap ++ (w ++ '.' :: (name.toList ++ rest)) =
          (gap ++ w ++ '.' :: name.toList) ++ rest := by simp
      rw [hassoc, List.drop_left']
      simp only [hstop, List.length_append, List.length_cons]
      omega
    rw [List.map_cons, splice, htake, hdrop, hnew, List.append_assoc]
    rw [← lastOr_none] at hacc
    refine .of_unmatched hreceiver hname htext hskip (.access hacc ?_)
    -- the rest is scanned from the end of the access, which the field's name makes
    have htext'' : text = (before ++ gap ++ w ++ '.' :: name.toList) ++ rest := by
      rw [htext']
      simp
    have hrest := ih htext'' hstop
    rwa [List.append_cons, lastOr_append _ _ (ne_nil_of_isIdentifier hname)] at hrest

/-- A rule replaces the accesses to its field. -/
theorem accessed_apply (hreceiver : ∀ r, receiver = some r → isIdentifier r.toList = true)
    (hname : isIdentifier name.toList = true) (source : String) (text : List Char) :
    Accessed receiver name.toList none text ((fieldRule receiver source name).apply text).1 := by
  have hscan := (fieldRule receiver source name).pattern.scan_matchesIn text neverEmpty_accessRegex
  have hlimit : ∀ n, (fieldRule receiver source name).strategy.limit n = n := fun _ => rfl
  unfold Rule.apply Rule.edits
  simp only [hlimit, List.take_length]
  have hsplit : text = [] ++ text := rfl
  exact accessed_splice hreceiver hname hscan hsplit rfl

/-- A rule finds nothing where there is no access to its field. -/
theorem matchesIn_eq_nil (hreceiver : ∀ r, receiver = some r → isIdentifier r.toList = true)
    (hname : isIdentifier name.toList = true) (source : String)
    (h : ¬ HasAccess receiver name.toList none text) :
    (fieldRule receiver source name).pattern.matchesIn text = [] := by
  have hscan := (fieldRule receiver source name).pattern.scan_matchesIn text neverEmpty_accessRegex
  generalize (fieldRule receiver source name).pattern.matchesIn text = ms at hscan
  cases hscan with
  | done => rfl
  | @found _ m ms _ hm htakes =>
    have htext : text = text.take m.start ++ text.drop m.start := (List.take_append_drop ..).symm
    have hlength : (text.take m.start).length = m.start := by
      rw [List.size_toArray] at hm
      simpa using hm
    rw [← hlength] at htakes
    obtain ⟨w, rest, hacc, -⟩ := (takes_accessRegex hreceiver hname htext).mp htakes
    rw [← lastOr_none] at hacc
    refine absurd ?_ h
    rw [htext]
    exact hacc.hasAccess.append

/-! ## The rules for all fields -/

/-- What is accessed after the rules for some fields are applied was accessed before, and is none
of these fields. -/
theorem hasAccess_applyAll (hreceiver : ∀ r, receiver = some r → isIdentifier r.toList = true)
    {names : List String} (hnames : ∀ n ∈ names, isIdentifier n.toList = true) (source : String)
    (text : List Char) {g : String} (hg : isIdentifier g.toList = true) (hne : g ≠ "try_get")
    (h : HasAccess receiver g.toList none
      (Rule.applyAll (names.map (fieldRule receiver source)) text).text) :
    g ∉ names ∧ HasAccess receiver g.toList none text := by
  have hne' : g.toList ≠ "try_get".toList := fun heq => hne (String.toList_injective heq)
  induction names generalizing text with
  | nil => exact ⟨List.not_mem_nil, h⟩
  | cons name names ih =>
    have hname := hnames name List.mem_cons_self
    rw [List.map_cons, Rule.text_applyAll_cons] at h
    obtain ⟨hrest, hafter⟩ := ih (fun n hn => hnames n (List.mem_cons_of_mem _ hn)) _ h
    obtain ⟨hself, hbefore⟩ :=
      (accessed_apply hreceiver hname source text).hasAccess hname hg hne' hafter
    refine ⟨fun hmem => ?_, hbefore⟩
    rcases List.mem_cons.mp hmem with rfl | hmem
    · exact hself rfl
    · exact hrest hmem

/-- With the default accessor, the rules for fields leave nothing to find to any of them, and change
nothing when they are applied again. Where there are no rules, the program for one of the fields
would be too large. -/
theorem applyAll_expand_stable (spec : FieldSpec) (haccessor : spec.accessor = defaultAccessor)
    (hreceiver : ∀ r, spec.receiver = some r → isIdentifier r.toList = true)
    (hnames : ∀ n ∈ spec.names, isIdentifier n.toList = true) (htry : "try_get" ∉ spec.names) :
    match spec.expand with
    | .ok rules => rules.map Rule.id = spec.sortedNames.map ("field-access:" ++ ·) ∧
      ∀ text, let out := (Rule.applyAll rules text).text
        (∀ rule ∈ rules, rule.pattern.matchesIn out = []) ∧ Rule.applyAll rules out = ⟨out, [], 0⟩
    | .error e => ∃ name ∈ spec.names,
      Pattern.Reading.maxWeight < accessWeight spec.receiver name ∧
        e = .rule ("field-access:" ++ name) (.malformedPattern .tooLarge) := by
  obtain ⟨source, hsource⟩ := exists_receiverPattern hreceiver
  have hsorted : ∀ n ∈ spec.sortedNames, isIdentifier n.toList = true :=
    fun n hn => hnames n (mem_sortedNames.mp hn)
  have hexpand : spec.expand = spec.sortedNames.mapM (ruleFor defaultAccessor source) := by
    have hoccurs : occursIn receiverMark.toList defaultAccessor.toList = true := by decide
    unfold expand
    rw [haccessor, hoccurs, hsource]
    rfl
  rw [hexpand]
  rcases mapM_ruleFor hsource hsorted defaultAccessor with hok | ⟨name, hname, hlarge, herr⟩
  · rw [hok]
    refine ⟨by rw [List.map_map]; rfl, fun text => ?_⟩
    have hnone : ∀ rule ∈ spec.sortedNames.map (fieldRule spec.receiver source),
        rule.pattern.matchesIn (Rule.applyAll (spec.sortedNames.map
          (fieldRule spec.receiver source)) text).text = [] := by
      intro rule hrule
      obtain ⟨g, hg, rfl⟩ := List.mem_map.mp hrule
      refine matchesIn_eq_nil hreceiver (hsorted g hg) source fun hacc => ?_
      have hne : g ≠ "try_get" := fun heq => htry (heq ▸ mem_sortedNames.mp hg)
      exact (hasAccess_applyAll hreceiver hsorted source text (hsorted g hg) hne hacc).1 hg
    exact ⟨hnone, Rule.applyAll_of_matchesIn_eq_nil hnone⟩
  · rw [herr]
    exact ⟨name, mem_sortedNames.mp hname, hlarge, rfl⟩

/-- The chained accesses of `a.id.status.id` are replaced for good. -/
theorem chained_accesses_stable :
    ∃ rules, (⟨none, defaultAccessor, ["status", "id"]⟩ : FieldSpec).expand = .ok rules ∧
      rules.map Rule.id = ["field-access:id", "field-access:status"] ∧
      let out := (Rule.applyAll rules "a.id.status.id".toList).text
      (∀ rule ∈ rules, rule.pattern.matchesIn out = []) ∧
        Rule.applyAll rules out = ⟨out, [], 0⟩ := by
  have h := applyAll_expand_stable ⟨none, defaultAccessor, ["status", "id"]⟩ rfl nofun (by decide)
    (by decide)
  cases hexpand : (⟨none, defaultAccessor, ["status", "id"]⟩ : FieldSpec).expand with
  | ok rules =>
    rw [hexpand] at h
    exact ⟨rules, rfl, h.1.trans (by decide), h.2 _⟩
  | error e =>
    rw [hexpand] at h
    obtain ⟨name, hname, hlarge, -⟩ := h
    rcases (by simpa using hname : name = "status" ∨ name = "id") with rfl | rfl
    · exact absurd hlarge (by decide)
    · exact absurd hlarge (by decide)

end FieldSpec

end Amend
