import Amend.Proofs.Rule.AccessPattern
import Amend.Proofs.Rule.Accessor
import Amend.Proofs.Rule.FieldNames
import Amend.Proofs.Rule.Splicing

/-!
# The rule for a field

A field specification stands for one rule per name, unless the program for one of them is too large
(`FieldSpec.expand_forall₂`). What such a rule matches is an access to its field, and what it puts
there is the accessor with the receiver and the name in their places
(`FieldSpec.expand_fills_accessor`).
-/

set_option autoImplicit false

namespace Amend.FieldSpec

/-! ## The rules of a specification -/

/-- The rule for the accesses to a field, where `source` is the pattern of receivers. -/
def accessRule (accessor : String) (receiver : Option String) (source name : String) : Rule where
  id := "field-access:" ++ name
  description := some ("defensive read of ." ++ name)
  pattern := {
    source := accessPattern source name
    regex := accessRegex receiver name
    names := [("receiver", 1)] }
  strategy := .substitution (replacement accessor name) none

theorem ruleFor_eq {spec : FieldSpec} {source name : String}
    (hsource : spec.receiverPattern = .ok source) (hname : isIdentifier name.toList = true)
    (accessor : String) : ruleFor accessor source name =
      if Pattern.Reading.maxWeight < accessWeight spec.receiver name then
        .error (.rule ("field-access:" ++ name) (.malformedPattern .tooLarge))
      else .ok (accessRule accessor spec.receiver source name) := by
  have hnonempty : (accessPattern source name).isEmpty = false := by
    rw [← Bool.not_eq_true, String.isEmpty_iff, ← String.toList_eq_nil_iff,
      toList_accessPattern hname]
    exact List.cons_ne_nil _ _
  unfold ruleFor checkIdentifier compile
  rw [if_pos hname, hnonempty, if_neg Bool.false_ne_true, ofString?_accessPattern hsource hname]
  split <;> rfl

/-- The rules for fields, unless the program for one of them is too large. -/
theorem mapM_ruleFor {spec : FieldSpec} {source : String}
    (hsource : spec.receiverPattern = .ok source) {names : List String}
    (hnames : ∀ n ∈ names, isIdentifier n.toList = true) (accessor : String) :
    names.mapM (ruleFor accessor source) =
        .ok (names.map (accessRule accessor spec.receiver source)) ∨
      ∃ name ∈ names, Pattern.Reading.maxWeight < accessWeight spec.receiver name ∧
        names.mapM (ruleFor accessor source) =
          .error (.rule ("field-access:" ++ name) (.malformedPattern .tooLarge)) := by
  induction names with
  | nil => exact .inl rfl
  | cons name names ih =>
    have hname := hnames name List.mem_cons_self
    rw [List.mapM_cons, ruleFor_eq hsource hname]
    by_cases hlarge : Pattern.Reading.maxWeight < accessWeight spec.receiver name
    · rw [if_pos hlarge]
      exact .inr ⟨name, List.mem_cons_self, hlarge, rfl⟩
    · rw [if_neg hlarge]
      rcases ih fun n hn => hnames n (List.mem_cons_of_mem _ hn) with hok | ⟨n, hn, hlarge, herr⟩
      · rw [hok]
        exact .inl rfl
      · rw [herr]
        exact .inr ⟨n, List.mem_cons_of_mem _ hn, hlarge, rfl⟩

theorem exists_receiverPattern {spec : FieldSpec}
    (hreceiver : ∀ r, spec.receiver = some r → isIdentifier r.toList = true) :
    ∃ source, spec.receiverPattern = .ok source := by
  unfold receiverPattern checkIdentifier
  cases hr : spec.receiver with
  | none => exact ⟨_, rfl⟩
  | some r =>
    refine ⟨Pattern.escape r, ?_⟩
    dsimp only
    rw [if_pos (hreceiver r hr)]
    rfl

/-- What holds of the rule for each field holds of the rules of a specification, in the order of
the names. Where there are no rules, the program for one of the fields would be too large. -/
theorem expand_forall₂ {spec : FieldSpec} {P : String → Rule → Prop}
    (haccessor : occursIn receiverMark.toList spec.accessor.toList = true)
    (hreceiver : ∀ r, spec.receiver = some r → isIdentifier r.toList = true)
    (hnames : ∀ n ∈ spec.names, isIdentifier n.toList = true)
    (h : ∀ source, ∀ name ∈ spec.names,
      P name (accessRule spec.accessor spec.receiver source name)) :
    match spec.expand with
    | .ok rules => List.Forall₂ P spec.sortedNames rules
    | .error e => ∃ name ∈ spec.names,
      Pattern.Reading.maxWeight < accessWeight spec.receiver name ∧
        e = .rule ("field-access:" ++ name) (.malformedPattern .tooLarge) := by
  obtain ⟨source, hsource⟩ := exists_receiverPattern hreceiver
  have hexpand : spec.expand = spec.sortedNames.mapM (ruleFor spec.accessor source) := by
    unfold expand
    rw [haccessor, hsource]
    rfl
  rw [hexpand]
  have hsorted : ∀ n ∈ spec.sortedNames, isIdentifier n.toList = true :=
    fun n hn => hnames n (mem_sortedNames.mp hn)
  rcases mapM_ruleFor hsource hsorted spec.accessor with hok | ⟨name, hname, hlarge, herr⟩
  · rw [hok]
    refine List.forall₂_map_right_iff.mpr (List.forall₂_same.mpr fun name hname => ?_)
    exact h source name (mem_sortedNames.mp hname)
  · rw [herr]
    exact ⟨name, mem_sortedNames.mp hname, hlarge, rfl⟩

/-! ## Its matches -/

section
variable {accessor source name : String} {receiver : Option String}
  {text before w cs rest : List Char} {m : Match}

theorem textNamed_receiver (htext : text = before ++ (w ++ cs))
    (hsaved : m.saved = [(3, (before ++ w).length), (2, before.length)]) :
    (accessRule accessor receiver source name).pattern.textNamed m text "receiver" = w := by
  have hgroup : m.group? 1 = some (before.length, (before ++ w).length) := by
    unfold Match.group?
    rw [hsaved]
    rfl
  have htextOf : (accessRule accessor receiver source name).pattern.textNamed m text "receiver" =
      m.textOf text 1 := rfl
  rw [htextOf, Match.textOf, hgroup]
  simp [slice, htext]

theorem dollar_notMem_of_isIdentifier (hname : isIdentifier name.toList = true) :
    '$' ∉ name.toList := by
  intro hmem
  have hchar := isIdentifierChar_of_isIdentifier hname _ hmem
  revert hchar
  decide

/-- What a rule puts in the place of an access is the accessor with its places filled in. -/
theorem replacing_accessRule (accessor : String) (receiver : Option String) (source : String)
    (hname : isIdentifier name.toList = true) (text : List Char) (m : Match) :
    let rule := accessRule accessor receiver source name
    rule.replacing text m =
      fill (rule.pattern.textNamed m text "receiver") name.toList accessor.toList :=
  expand_replacement (dollar_notMem_of_isIdentifier hname) accessor m text

theorem apply_accessRule (accessor : String) (receiver : Option String) (source name : String)
    (text : List Char) :
    let rule := accessRule accessor receiver source name
    let ms := rule.pattern.matchesIn text
    rule.apply text = (weave (remainder text 0 ms) (gaps text 0 ms) (ms.map (rule.replacing text)),
      ms.length) := by
  intro rule ms
  have hlimit : rule.limitIn text = ms.length := rfl
  refine Prod.ext ?_ ?_
  · rw [rule.text_apply_eq, hlimit, List.take_length]
  · rw [rule.count_apply_eq, hlimit]

/-- A match of a rule, whose text begins where an access does. -/
theorem matched_of_takes (accessor source : String)
    (hreceiver : ∀ r, receiver = some r → isIdentifier r.toList = true)
    (hname : isIdentifier name.toList = true) (htext : text = before ++ cs)
    (hstart : m.start = before.length)
    (htakes : Regex.Takes text.toArray (accessRegex receiver name) ⟨m.start, []⟩
      ⟨m.stop, m.saved⟩) :
    ∃ w rest, Access receiver name.toList before.getLast? cs w rest ∧
      m.stop = (before ++ w ++ '.' :: name.toList).length ∧
      (accessRule accessor receiver source name).pattern.textNamed m text "receiver" = w := by
  rw [hstart] at htakes
  obtain ⟨w, rest, hacc, hpoint⟩ := (takes_accessRegex hreceiver hname htext).mp htakes
  obtain ⟨hstop, hsaved⟩ := Point.mk.inj hpoint
  exact ⟨w, rest, hacc, hstop, textNamed_receiver (by rw [htext, hacc.eq]) hsaved⟩

theorem matched_of_mem (hreceiver : ∀ r, receiver = some r → isIdentifier r.toList = true)
    (hname : isIdentifier name.toList = true)
    (hm : m ∈ (accessRule accessor receiver source name).pattern.matchesIn text) :
    let w := (accessRule accessor receiver source name).pattern.textNamed m text "receiver"
    IsReceiver receiver w ∧ m.matched text = w ++ '.' :: name.toList := by
  have hscan := (accessRule accessor receiver source name).pattern.scan_matchesIn text
    neverEmpty_accessRegex
  obtain ⟨hsize, htakes⟩ := hscan.takes_of_mem hm
  have htext : text = text.take m.start ++ text.drop m.start := (List.take_append_drop ..).symm
  have hstart : m.start = (text.take m.start).length := by
    rw [List.size_toArray] at hsize
    rw [List.length_take, Nat.min_eq_left hsize]
  obtain ⟨w, rest, hacc, hstop, hw⟩ :=
    matched_of_takes accessor source hreceiver hname htext hstart htakes
  intro v
  obtain rfl : v = w := hw
  refine ⟨hacc.isReceiver, ?_⟩
  have hdrop : text.drop m.start = (v ++ '.' :: name.toList) ++ rest := by rw [hacc.eq]; simp
  have hlength : m.stop - m.start = (v ++ '.' :: name.toList).length := by
    rw [hstop, List.append_assoc, List.length_append, ← hstart]
    omega
  rw [Match.matched, slice, hdrop, hlength, List.take_left]

end

/-- In the rules for fields the accessor is literal. What takes the place of an access is the
accessor with the receiver and the name of the field in their places, filled in at once, and every
other character as it is written. Where there are no rules, the program for one of the fields would
be too large. -/
theorem expand_fills_accessor (spec : FieldSpec)
    (haccessor : occursIn receiverMark.toList spec.accessor.toList = true)
    (hreceiver : ∀ r, spec.receiver = some r → isIdentifier r.toList = true)
    (hnames : ∀ n ∈ spec.names, isIdentifier n.toList = true) :
    fill receiverMark.toList fieldMark.toList spec.accessor.toList = spec.accessor.toList ∧
    match spec.expand with
    | .ok rules => List.Forall₂ (fun name rule => rule.id = "field-access:" ++ name ∧
      ∀ text : List Char,
        let ms := rule.pattern.matchesIn text
        let receiverOf := fun m => rule.pattern.textNamed m text "receiver"
        let filled := fun m => fill (receiverOf m) name.toList spec.accessor.toList
        (∀ m ∈ ms, IsReceiver spec.receiver (receiverOf m) ∧
          m.matched text = receiverOf m ++ '.' :: name.toList ∧
          rule.strategy.rewrite rule.pattern text m = filled m) ∧
        rule.apply text =
          (weave (remainder text 0 ms) (gaps text 0 ms) (ms.map filled), ms.length))
      spec.sortedNames rules
    | .error e => ∃ name ∈ spec.names,
      Pattern.Reading.maxWeight < accessWeight spec.receiver name ∧
        e = .rule ("field-access:" ++ name) (.malformedPattern .tooLarge) := by
  refine ⟨fill_marks _, expand_forall₂ haccessor hreceiver hnames fun source name hmem => ⟨rfl, ?_⟩⟩
  intro text ms receiverOf filled
  have hname := hnames name hmem
  have hfilled : ∀ m, (accessRule spec.accessor spec.receiver source name).replacing text m =
      filled m := replacing_accessRule spec.accessor spec.receiver source hname text
  constructor
  · intro m hm
    obtain ⟨hw, hmatched⟩ := matched_of_mem hreceiver hname hm
    exact ⟨hw, hmatched, hfilled m⟩
  · rw [apply_accessRule, funext hfilled]

/-- A dollar sign before a place is kept, and the name is not taken for the receiver. -/
theorem dollar_accessor_filled :
    ∃ rule, (⟨none, "$\x7breceiver\x7d.$\x7bfield\x7d", ["receiver"]⟩ : FieldSpec).expand =
        .ok [rule] ∧
      ∀ text : List Char, ∀ m ∈ rule.pattern.matchesIn text,
        rule.strategy.rewrite rule.pattern text m =
          '$' :: (rule.pattern.textNamed m text "receiver" ++ ".$receiver".toList) := by
  have h := (expand_fills_accessor
    ⟨none, "$\x7breceiver\x7d.$\x7bfield\x7d", ["receiver"]⟩ (by decide) nofun (by decide)).2
  have hsorted : (⟨none, "$\x7breceiver\x7d.$\x7bfield\x7d", ["receiver"]⟩ :
      FieldSpec).sortedNames = ["receiver"] := by decide
  have hfill : ∀ w, fill w "receiver".toList "$\x7breceiver\x7d.$\x7bfield\x7d".toList =
      '$' :: (w ++ ".$receiver".toList) := by
    intro w
    have hparts : "$\x7breceiver\x7d.$\x7bfield\x7d".toList =
        ['$'] ++ (receiverMark.toList ++ (['.', '$'] ++ (fieldMark.toList ++ []))) := by decide
    rw [hparts, fill_append (by decide), fill_receiver, fill_append (by decide), fill_field, fill]
    rfl
  rw [hsorted] at h
  split at h
  · next rules hexpand =>
    cases h with
    | cons hrule hnil =>
      cases hnil
      exact ⟨_, hexpand, fun text m hm => ((hrule.2 text).1 m hm).2.2.trans (hfill _)⟩
  · obtain ⟨name, hname, hlarge, -⟩ := h
    obtain rfl := List.mem_singleton.mp hname
    exact absurd hlarge (by decide)

end Amend.FieldSpec
