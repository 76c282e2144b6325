import Amend.Proofs.FirstFault
import Amend.Proofs.Rule.AccessRule
import Amend.Proofs.Rule.Building

/-!
# How rule sets are arranged

A field specification expands exactly if it is well formed and none of the programs for its fields
is too large (`FieldSpec.expands_iff`). Its rules are those of the single names, in order
(`FieldSpec.expand_forall₂_single`). A set puts them where the first scoped deletion stands
(`RuleSet.build_arranges`).
-/

set_option autoImplicit false

namespace Amend

namespace FieldSpec

/-- What a field specification is to meet: its accessor has a place for the receiver, and what it
names are identifiers. -/
structure WellFormed (spec : FieldSpec) : Prop where
  accessor : receiverMark.toList <:+: spec.accessor.toList
  receiver : ∀ r, spec.receiver = some r → isIdentifier r.toList = true
  names : ∀ n ∈ spec.names, isIdentifier n.toList = true

variable {spec : FieldSpec} {source accessor name : String} {rule : Rule} {rules : List Rule}

/-! ## Which specifications expand -/

/-- There is a rule for a field exactly if its name is an identifier and its program is not too
large. -/
theorem ruleFor_eq_ok_iff (hsource : spec.receiverPattern = .ok source) :
    ruleFor accessor source name = .ok rule ↔ isIdentifier name.toList = true ∧
      accessWeight spec.receiver name ≤ Pattern.Reading.maxWeight ∧
      rule = accessRule accessor spec.receiver source name := by
  by_cases hname : isIdentifier name.toList = true
  · rw [ruleFor_eq hsource hname]
    split
    · next hlarge => simp [Nat.not_le.mpr hlarge]
    · next hsmall => simp [hname, Nat.not_lt.mp hsmall, eq_comm]
  · have herror : ruleFor accessor source name = .error (.notIdentifier .field name) := by
      unfold ruleFor checkIdentifier
      rw [if_neg hname]
      rfl
    simp [herror, hname]

theorem expand_eq_ok_iff : spec.expand = .ok rules ↔
    receiverMark.toList <:+: spec.accessor.toList ∧ ∃ source, spec.receiverPattern = .ok source ∧
      spec.sortedNames.mapM (ruleFor spec.accessor source) = .ok rules := by
  rw [← occursIn_iff]
  unfold expand
  cases occursIn receiverMark.toList spec.accessor.toList with
  | false => simp [throw, throwThe, MonadExceptOf.throw, bind, Except.bind]
  | true =>
    cases spec.receiverPattern with
    | error fault => simp [bind, Except.bind]
    | ok source => simp [bind, Except.bind]

/-- A specification expands exactly if it is well formed and none of its programs is too large. -/
theorem expands_iff : (∃ rules, spec.expand = .ok rules) ↔ spec.WellFormed ∧
    ∀ n ∈ spec.names, accessWeight spec.receiver n ≤ Pattern.Reading.maxWeight := by
  constructor
  · intro ⟨rules, hexpand⟩
    obtain ⟨haccessor, source, hsource, hrules⟩ := expand_eq_ok_iff.mp hexpand
    have hname : ∀ n ∈ spec.names, isIdentifier n.toList = true ∧
        accessWeight spec.receiver n ≤ Pattern.Reading.maxWeight := by
      intro n hn
      obtain ⟨rule, hrule⟩ := forall_ok_of_mapM_eq_ok hrules n (mem_sortedNames.mpr hn)
      obtain ⟨hid, hsmall, -⟩ := (ruleFor_eq_ok_iff hsource).mp hrule
      exact ⟨hid, hsmall⟩
    exact ⟨⟨haccessor, isIdentifier_of_receiverPattern hsource, fun n hn => (hname n hn).1⟩,
      fun n hn => (hname n hn).2⟩
  · intro ⟨⟨haccessor, hreceiver, hnames⟩, hsmall⟩
    obtain ⟨source, hsource⟩ := exists_receiverPattern hreceiver
    have hrule : ∀ n ∈ spec.sortedNames, ∃ rule, ruleFor spec.accessor source n = .ok rule := by
      intro n hn
      have hmem := mem_sortedNames.mp hn
      exact ⟨_, (ruleFor_eq_ok_iff hsource).mpr ⟨hnames n hmem, hsmall n hmem, rfl⟩⟩
    obtain ⟨rules, hrules⟩ := exists_forall₂_of_ok hrule
    exact ⟨rules, expand_eq_ok_iff.mpr ⟨haccessor, source, hsource, mapM_eq_ok hrules⟩⟩

/-! ## The rules of a specification -/

theorem exists_expand_eq (h : ∃ rules, spec.expand = .ok rules) : ∃ source,
    spec.expand = .ok (spec.sortedNames.map (accessRule spec.accessor spec.receiver source)) := by
  obtain ⟨rules, hexpand⟩ := h
  obtain ⟨haccessor, source, hsource, hrules⟩ := expand_eq_ok_iff.mp hexpand
  refine ⟨source, expand_eq_ok_iff.mpr ⟨haccessor, source, hsource, mapM_eq_ok ?_⟩⟩
  refine List.forall₂_map_right_iff.mpr (List.forall₂_same.mpr fun n hn => ?_)
  obtain ⟨rule, hrule⟩ := forall_ok_of_mapM_eq_ok hrules n hn
  obtain ⟨-, -, rfl⟩ := (ruleFor_eq_ok_iff hsource).mp hrule
  exact hrule

/-- There is one rule for each name, which does not depend on the other names. -/
theorem expand_forall₂_single (h : spec.expand = .ok rules) :
    List.Forall₂ (fun n rule => rule.id = "field-access:" ++ n ∧
      { spec with names := [n] }.expand = .ok [rule]) spec.sortedNames rules := by
  obtain ⟨haccessor, source, hsource, hrules⟩ := expand_eq_ok_iff.mp h
  refine (mapM_eq_ok_iff.mp hrules).imp fun n rule hrule => ?_
  obtain ⟨-, -, hrule'⟩ := (ruleFor_eq_ok_iff hsource).mp hrule
  have hsingle : { spec with names := [n] }.sortedNames.mapM (ruleFor spec.accessor source) =
      .ok [rule] := mapM_eq_ok (.cons hrule .nil)
  exact ⟨hrule' ▸ rfl, expand_eq_ok_iff.mpr ⟨haccessor, source, hsource, hsingle⟩⟩

theorem expand_congr {names : List String} (h : ∀ n, n ∈ names ↔ n ∈ spec.names) :
    { spec with names }.expand = spec.expand := by
  have hsorted : { spec with names }.sortedNames = spec.sortedNames := sortedNames_congr h
  unfold expand
  rw [hsorted]
  rfl

end FieldSpec

namespace RuleSet

open FieldSpec (accessWeight)

/-! ## The place of the rules for fields -/

theorem precedesFields_iff {r : Rule} : precedesFields r = true ↔ r.kind ≠ .scopedDeletion := by
  simp [precedesFields]

/-- The rules before those for fields are the longest beginning without a scoped deletion. -/
theorem prefix_takeWhile_precedesFields {rules before : List Rule} (h : before <+: rules)
    (hfree : ∀ r ∈ before, r.kind ≠ .scopedDeletion) :
    before <+: rules.takeWhile precedesFields := by
  obtain ⟨after, rfl⟩ := h
  rw [List.takeWhile_append_of_pos fun r hr => precedesFields_iff.mpr (hfree r hr)]
  exact List.prefix_append ..

/-- A set is built exactly if its field specification expands and no two of its rules have one id.
The rules for fields, one for each distinct name and in the order of the names, then stand after the
longest beginning of the declared rules that has no scoped deletion. How the names are listed makes
no difference. A specification expands exactly if it is well formed and none of the programs for its
fields is too large. -/
theorem build_arranges (name : String) (file : Path) (declared : List Rule)
    (fields : Option FieldSpec) :
    ((∃ set, build name file declared fields = .ok set) ↔ ∃ rules,
      expanded fields = .ok rules ∧ ((declared ++ rules).map Rule.id).Nodup) ∧
    (∀ set, build name file declared fields = .ok set → set.name = name ∧ set.file = file ∧
      ∃ before rules after, set.rules = before ++ rules ++ after ∧ declared = before ++ after ∧
        (∀ r ∈ before, r.kind ≠ .scopedDeletion) ∧
        (∀ before', before' <+: declared → (∀ r ∈ before', r.kind ≠ .scopedDeletion) →
          before' <+: before) ∧
        match fields with
        | none => rules = []
        | some spec => ∃ names, names.Pairwise (· < ·) ∧ (∀ n, n ∈ names ↔ n ∈ spec.names) ∧
          List.Forall₂ (fun n rule => rule.id = "field-access:" ++ n ∧
            { spec with names := [n] }.expand = .ok [rule]) names rules) ∧
    (∀ (spec : FieldSpec) (names : List String), (∀ n, n ∈ names ↔ n ∈ spec.names) →
      build name file declared (some { spec with names }) = build name file declared (some spec)) ∧
    ∀ spec : FieldSpec, (∃ rules, spec.expand = .ok rules) ↔ spec.WellFormed ∧
      ∀ n ∈ spec.names, accessWeight spec.receiver n ≤ Pattern.Reading.maxWeight := by
  refine ⟨?_, fun set hset => ?_, fun spec names hnames => ?_, fun spec => FieldSpec.expands_iff⟩
  · constructor
    · intro ⟨set, hset⟩
      obtain ⟨rules, hrules, hids, -⟩ := build_eq_ok_iff.mp hset
      exact ⟨rules, hrules, hids⟩
    · intro ⟨rules, hrules, hids⟩
      exact ⟨_, build_eq_ok_iff.mpr ⟨rules, hrules, hids, rfl⟩⟩
  · obtain ⟨rules, hrules, -, rfl⟩ := build_eq_ok_iff.mp hset
    refine ⟨rfl, rfl, declared.takeWhile precedesFields, rules, declared.dropWhile precedesFields,
      (List.append_assoc ..).symm, List.takeWhile_append_dropWhile.symm, fun r hr => ?_,
      fun before' => prefix_takeWhile_precedesFields, ?_⟩
    · exact precedesFields_iff.mp (List.all_eq_true.mp List.all_takeWhile r hr)
    · cases fields with
      | none =>
        cases hrules
        rfl
      | some spec =>
        exact ⟨spec.sortedNames, spec.pairwise_sortedNames, fun n => FieldSpec.mem_sortedNames,
          FieldSpec.expand_forall₂_single hrules⟩
  · unfold build
    simp only [FieldSpec.expand_congr hnames]

/-- Repeated names, and a deletion that comes first: the rules for fields come before it. -/
example :
    let deletion : Rule := ⟨"once", none, { source := "x", regex := .set (· == 'x'), names := [] },
      .scopedDeletion ⟨1, Nat.one_pos⟩⟩
    (build "fields" ⟨"a.rs"⟩ [deletion] (some ⟨none, FieldSpec.defaultAccessor,
      ["status", "id", "status"]⟩)).toOption.map (·.rules.map Rule.id) =
        some ["field-access:id", "field-access:status", "once"] := by
  decide +kernel

end RuleSet

namespace FieldSpec

/-! ## Programs that are too large -/

/-- A specification for the accesses to `id` whose receiver has `n` letters. -/
def letterReceiver (n : Nat) : FieldSpec :=
  ⟨some (.ofList (List.replicate n 'a')), defaultAccessor, ["id"]⟩

theorem wellFormed_letterReceiver {n : Nat} (h : n ≠ 0) : (letterReceiver n).WellFormed := by
  have haccessor : occursIn receiverMark.toList defaultAccessor.toList = true := by decide
  have hname : ∀ n ∈ ["id"], isIdentifier n.toList = true := by decide
  refine ⟨occursIn_iff.mp haccessor, fun r hr => ?_, hname⟩
  obtain rfl := Option.some.inj hr
  obtain ⟨k, rfl⟩ := Nat.exists_eq_succ_of_ne_zero h
  have hchar : isIdentifierChar 'a' = true := by decide
  have hstart : isIdentifierStart 'a' = true := by decide
  simp [List.replicate_succ, isIdentifier, hchar, hstart]

theorem accessWeight_letterReceiver (n : Nat) :
    accessWeight (letterReceiver n).receiver "id" = n + 7 := by
  have hlength : (String.ofList (List.replicate n 'a')).length = n := by
    rw [String.length_ofList, List.length_replicate]
  show (String.ofList (List.replicate n 'a')).length + 2 + 5 = n + 7
  rw [hlength]

/-- A specification that is well formed need not expand: the program for this one is too large. -/
theorem letterReceiver_notExpanded :
    (letterReceiver 450000).WellFormed ∧ ¬ ∃ rules, (letterReceiver 450000).expand = .ok rules := by
  refine ⟨wellFormed_letterReceiver (by decide), fun hexpand => ?_⟩
  have hsmall := (expands_iff.mp hexpand).2 "id" List.mem_cons_self
  rw [accessWeight_letterReceiver, Pattern.Reading.maxWeight] at hsmall
  omega

end FieldSpec

end Amend
