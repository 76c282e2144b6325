import Amend.Proofs.Rule.AccessRule

/-!
# Scanning for accesses

A scanner reads a text from left to right. Where no word goes on, it takes the longest run of
identifier characters as a receiver, and it looks for a dot, the name of the field and the end of a
word after it; then it goes on after the access. A rule for a field matches what the scanner finds
(`FieldSpec.matches_eq_scanAccesses`), and leaves everything else
(`FieldSpec.expand_matches_accesses`).
-/

set_option autoImplicit false

namespace Amend.FieldSpec

/-! ## The scanner -/

/-- The receiver of the access to `name` with which `cs` begins, after the character `before`. -/
def accessAt? (receiver : Option String) (name : List Char) (before : Option Char)
    (cs : List Char) : Option (List Char) :=
  let run := cs.takeWhile isIdentifierChar
  let field := '.' :: name
  let after := cs.dropWhile isIdentifierChar
  if !before.any Unicode.isWord && isIdentifier run && receiver.all (·.toList == run) &&
      field.isPrefixOf after && !(after.drop field.length).head?.any Unicode.isWord then
    some run
  else none

/-- An access in a text. -/
structure Found where
  start : Nat
  stop : Nat
  receiver : List Char
  deriving DecidableEq, Repr

/-- The accesses to `name` in `cs`, which stands at position `pos` after the character `before`. -/
def scanAccesses (receiver : Option String) (name : List Char) (pos : Nat)
    (before : Option Char) : List Char → List Found
  | [] => []
  | c :: cs =>
    match accessAt? receiver name before (c :: cs) with
    | some w =>
      ⟨pos, pos + w.length + 1 + name.length, w⟩ ::
        scanAccesses receiver name (pos + w.length + 1 + name.length) ('.' :: name).getLast?
          (cs.drop (w.length + name.length))
    | none => scanAccesses receiver name (pos + 1) (some c) cs
termination_by cs => cs.length
decreasing_by all_goals grind

variable {receiver : Option String} {name : List Char} {before : Option Char}
  {cs w rest : List Char}

theorem span_run (hw : ∀ c ∈ w, isIdentifierChar c = true) (hrest : EndsRun rest) :
    (w ++ rest).takeWhile isIdentifierChar = w ∧
      (w ++ rest).dropWhile isIdentifierChar = rest := by
  rw [List.takeWhile_append_of_pos hw, List.dropWhile_append_of_pos hw]
  cases rest with
  | nil => exact ⟨List.append_nil w, rfl⟩
  | cons c rest =>
    have hc : ¬ isIdentifierChar c = true := Bool.not_eq_true _ ▸ hrest
    rw [List.takeWhile_cons_of_neg hc, List.dropWhile_cons_of_neg hc]
    exact ⟨List.append_nil w, rfl⟩

theorem Access.drop_eq {c : Char} (h : Access receiver name before (c :: cs) w rest) :
    cs.drop (w.length + name.length) = rest := by
  have hcs : c :: cs = (w ++ '.' :: name) ++ rest := by rw [h.eq]; simp
  have hlength : w.length + name.length + 1 = (w ++ '.' :: name).length := by
    simp only [List.length_append, List.length_cons]
    omega
  rw [← List.drop_succ_cons (a := c), hcs, hlength, List.drop_left]

theorem accessAt?_eq_some :
    accessAt? receiver name before cs = some w ↔
      ∃ rest, Access receiver name before cs w rest := by
  unfold accessAt?
  dsimp only
  constructor
  · intro h
    split at h
    · next hif =>
      obtain rfl := Option.some.inj h
      simp only [Bool.and_eq_true, Bool.not_eq_true', List.isPrefixOf_iff_prefix] at hif
      obtain ⟨⟨⟨⟨hbefore, hw⟩, hreceiver⟩, rest, hrest⟩, hends⟩ := hif
      rw [← hrest, List.drop_left] at hends
      refine ⟨rest, hbefore, ⟨hw, fun r hr => ?_⟩, ?_, hends⟩
      · rw [hr, Option.all_some, beq_iff_eq] at hreceiver
        exact hreceiver.symm
      · rw [← List.cons_append, hrest, List.takeWhile_append_dropWhile]
    · cases h
  · rintro ⟨rest, hbefore, ⟨hw, hreceiver⟩, rfl, hends⟩
    have hdot : EndsRun ('.' :: (name ++ rest)) := rfl
    obtain ⟨hrun, hafter⟩ := span_run (isIdentifierChar_of_isIdentifier hw) hdot
    rw [hrun, hafter, ← List.cons_append, List.drop_left, if_pos]
    simp only [hbefore, hw, hends, Bool.not_false, Bool.true_and, Bool.and_true, Bool.and_eq_true,
      List.isPrefixOf_iff_prefix, List.prefix_append, and_true]
    cases receiver with
    | none => rfl
    | some r => exact beq_iff_eq.mpr (hreceiver r rfl).symm

theorem accessAt?_eq_none (h : accessAt? receiver name before cs = none) :
    ¬ Access receiver name before cs w rest := by
  intro hacc
  rw [accessAt?_eq_some.mpr ⟨rest, hacc⟩] at h
  cases h

/-! ## The matches of a rule -/

/-- A match as an access, with what the pattern captured as its receiver. -/
def foundOf (p : Pattern) (text : List Char) (m : Match) : Found :=
  ⟨m.start, m.stop, p.textNamed m text "receiver"⟩

/-- A scan with the expression for accesses finds what the scanner finds. -/
theorem scan_eq_scanAccesses {accessor source name : String} {text : List Char} {ms : List Match}
    (before : List Char) (hreceiver : ∀ r, receiver = some r → isIdentifier r.toList = true)
    (hname : isIdentifier name.toList = true)
    (h : Regex.Scan text.toArray (accessRegex receiver name) before.length ms)
    (htext : text = before ++ cs) :
    ms.map (foundOf (accessRule accessor receiver source name).pattern text) =
      scanAccesses receiver name.toList before.length before.getLast? cs := by
  -- by induction on the scanner: `before` is what it has read, and `ms` what is still to be found
  generalize hpos : before.length = pos at h ⊢
  generalize hlast : before.getLast? = last
  fun_induction scanAccesses receiver name.toList pos last cs generalizing before ms with
  | case1 pos last =>
    subst hpos hlast
    cases h with
    | done => rfl
    | @found _ m ms hle hsize htakes =>
      have hstart : m.start = before.length := by
        rw [List.size_toArray, htext, List.append_nil] at hsize
        omega
      obtain ⟨w, rest, hacc, -⟩ := matched_of_takes accessor source hreceiver hname htext
        hstart htakes
      exact hacc.not_nil.elim
  | case2 pos last c cs w haccess ih =>
    subst hpos hlast
    obtain ⟨rest, hacc⟩ := accessAt?_eq_some.mp haccess
    have hsome : ∃ b, Regex.Takes text.toArray (accessRegex receiver name) ⟨before.length, []⟩ b :=
      ⟨_, (takes_accessRegex hreceiver hname htext).mpr ⟨w, rest, hacc, rfl⟩⟩
    have hsize : before.length ≤ text.toArray.size := by
      rw [List.size_toArray, htext, List.length_append]
      omega
    obtain ⟨m, ms, rfl, hstart, htakes, hrest⟩ := h.start_eq hsize hsome
    obtain ⟨v, rest', hacc', hstop, hv⟩ := matched_of_takes accessor source hreceiver hname htext
      hstart htakes
    obtain rfl : w = v := Option.some.inj
      (haccess.symm.trans (accessAt?_eq_some.mpr ⟨rest', hacc'⟩))
    have hend : m.stop = before.length + w.length + 1 + name.toList.length := by
      rw [hstop]
      simp only [List.length_append, List.length_cons]
      omega
    have htext' : text = (before ++ w ++ '.' :: name.toList) ++
        cs.drop (w.length + name.toList.length) := by
      rw [hacc'.drop_eq, htext, hacc'.eq]
      simp
    have hlast : (before ++ w ++ '.' :: name.toList).getLast? = ('.' :: name.toList).getLast? := by
      rw [List.getLast?_append_of_ne_nil _ (List.cons_ne_nil _ _)]
    rw [List.map_cons, foundOf, hstart, hv, hend,
      ih _ htext' (by rw [← hend, hstop]) (hend ▸ hrest) hlast]
  | case3 pos last c cs hnone ih =>
    subst hpos hlast
    have htext' : text = (before ++ [c]) ++ cs := by rw [htext]; simp
    refine ih _ htext' (by simp) (h.succ fun b hb => ?_) (by simp)
    obtain ⟨w, rest, hacc, -⟩ := (takes_accessRegex hreceiver hname htext).mp hb
    exact accessAt?_eq_none hnone hacc

theorem matches_eq_scanAccesses {accessor source name : String}
    (hreceiver : ∀ r, receiver = some r → isIdentifier r.toList = true)
    (hname : isIdentifier name.toList = true) (text : List Char) :
    let p := (accessRule accessor receiver source name).pattern
    (p.matchesIn text).map (foundOf p text) = scanAccesses receiver name.toList 0 none text :=
  scan_eq_scanAccesses [] hreceiver hname (Pattern.scan_matchesIn
    (accessRule accessor receiver source name).pattern text neverEmpty_accessRegex) rfl

/-- The rules for fields match the accesses that a scanner finds, from left to right, and capture
their receivers. All of these are replaced, and the text between them is kept. Where there are no
rules, the program for one of the fields would be too large. -/
theorem expand_matches_accesses (spec : FieldSpec)
    (haccessor : occursIn receiverMark.toList spec.accessor.toList = true)
    (hreceiver : ∀ r, spec.receiver = some r → isIdentifier r.toList = true)
    (hnames : ∀ n ∈ spec.names, isIdentifier n.toList = true) :
    match spec.expand with
    | .ok rules => List.Forall₂ (fun name rule => rule.id = "field-access:" ++ name ∧
      ∀ text : List Char,
        let ms := rule.pattern.matchesIn text
        let found := scanAccesses spec.receiver name.toList 0 none text
        ms.map (fun m => ⟨m.start, m.stop, rule.pattern.textNamed m text "receiver"⟩) = found ∧
        text = weave (remainder text 0 ms) (gaps text 0 ms)
          (found.map fun access => access.receiver ++ '.' :: name.toList) ∧
        rule.apply text = (weave (remainder text 0 ms) (gaps text 0 ms)
          (ms.map (rule.strategy.rewrite rule.pattern text)), found.length))
      spec.sortedNames rules
    | .error e => ∃ name ∈ spec.names,
      Pattern.Reading.maxWeight < accessWeight spec.receiver name ∧
        e = .rule ("field-access:" ++ name) (.malformedPattern .tooLarge) := by
  refine expand_forall₂ haccessor hreceiver hnames fun source name hmem => ⟨rfl, ?_⟩
  intro text ms found
  have hname := hnames name hmem
  have hfound : ms.map (foundOf (accessRule spec.accessor spec.receiver source name).pattern text) =
      found := matches_eq_scanAccesses hreceiver hname text
  refine ⟨hfound, ?_, ?_⟩
  · have hfollow := (Pattern.succession_matchesIn
      (accessRule spec.accessor spec.receiver source name).pattern text).follow
    have hmatched : found.map (fun access => access.receiver ++ '.' :: name.toList) =
        ms.map (·.matched text) := by
      rw [← hfound, List.map_map]
      exact List.map_congr_left fun m hm => (matched_of_mem hreceiver hname hm).2.symm
    rw [hmatched]
    exact (weave_matched hfollow).symm
  · rw [apply_accessRule, ← hfound, List.length_map]
    rfl

/-- With a fixed receiver, other receivers and longer names are left. -/
theorem fixed_receiver_accesses :
    ∃ rule, (⟨some "row", defaultAccessor, ["id"]⟩ : FieldSpec).expand = .ok [rule] ∧
      (rule.pattern.matchesIn "row.id.id + msg.id + row.ids + row.id".toList).map
        (fun m => (m.start, m.stop)) = [(0, 6), (31, 37)] := by
  have h := expand_matches_accesses ⟨some "row", defaultAccessor, ["id"]⟩ (by decide)
    (fun r hr => by cases hr; decide) (by decide)
  have hsorted : (⟨some "row", defaultAccessor, ["id"]⟩ : FieldSpec).sortedNames = ["id"] := by
    decide
  rw [hsorted] at h
  split at h
  · next rules hexpand =>
    cases h with
    | cons hrule hnil =>
      cases hnil
      have hfound := congrArg (List.map fun access => (access.start, access.stop))
        (hrule.2 "row.id.id + msg.id + row.ids + row.id".toList).1
      rw [List.map_map] at hfound
      refine ⟨_, hexpand, hfound.trans ?_⟩
      decide +kernel
  · obtain ⟨name, hname, hlarge, -⟩ := h
    obtain rfl := List.mem_singleton.mp hname
    exact absurd hlarge (by decide)

end Amend.FieldSpec
