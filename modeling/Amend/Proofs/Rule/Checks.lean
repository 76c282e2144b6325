import Amend.Proofs.Rule.Draft
import Amend.Proofs.Rule.PlainText
import Amend.Proofs.Rule.Template

/-!
# The checks of a rule definition

A definition becomes a rule exactly if it is well formed (`RuleDefinition.toRule_isOk_iff`). Else
the fault is that of the first check that it does not pass (`RuleDefinition.toRule_eq_error_iff`),
in one order for all three ways of rewriting. Both come from one lemma that goes through these
(`RuleDefinition.settled`).
-/

set_option autoImplicit false

namespace Amend.RuleDefinition

open Template (PlaceholderAt FirstUnknown)

/-- What the definition of a rule is to meet. -/
structure WellFormed (d : RuleDefinition) : Prop where
  strategy : d.declared = 1
  bounded : d.delete = true → d.maxApplications ≠ none
  nonempty : d.pattern ≠ ""
  compiles : ∃ p, Pattern.ofString? d.patternSource = .ok p
  template : ∀ source p, d.wrap = some source → Pattern.ofString? d.patternSource = .ok p →
    (∃ i name, PlaceholderAt source.toList name i) ∧
      ∀ i name, PlaceholderAt source.toList name i → p.hasName name = true
  id : Unicode.isBlank d.id = false
  positive : d.maxApplications ≠ some 0

/-- What is checked of a definition. -/
inductive Check
  | strategyCount | missingBound | emptyPattern | malformedPattern | template | blankId | zeroBound

/-- The checks in their order. -/
def checks : List Check :=
  [.strategyCount, .missingBound, .emptyPattern, .malformedPattern, .template, .blankId, .zeroBound]

/-- The definition does not pass a check, with this fault. -/
inductive Fails (d : RuleDefinition) : Check → ConfigFault → Prop
  | strategyCount : d.declared ≠ 1 → Fails d .strategyCount (.rule d.id .strategyCount)
  | missingBound : d.delete = true → d.maxApplications = none →
      Fails d .missingBound (.rule d.id .missingBound)
  | emptyPattern : d.pattern = "" → Fails d .emptyPattern (.rule d.id .emptyPattern)
  | malformedPattern {e : PatternError} : Pattern.ofString? d.patternSource = .error e →
      Fails d .malformedPattern (.rule d.id (.malformedPattern e))
  | unknownGroup {p : Pattern} {source name : String} :
      Pattern.ofString? d.patternSource = .ok p → d.wrap = some source →
      FirstUnknown p source.toList name →
      Fails d .template (.rule d.id (.template (.unknownGroup name)))
  | noCapture {p : Pattern} {source : String} :
      Pattern.ofString? d.patternSource = .ok p → d.wrap = some source →
      (∀ i name, ¬ PlaceholderAt source.toList name i) →
      Fails d .template (.rule d.id (.template .noCapture))
  | blankId : Unicode.isBlank d.id = true → Fails d .blankId .blankRuleId
  | zeroBound : d.maxApplications = some 0 → Fails d .zeroBound (.rule d.id .zeroBound)

def Passes (d : RuleDefinition) (c : Check) : Prop :=
  ∀ fault, ¬ d.Fails c fault

/-- The fault of the first check that the definition does not pass. -/
def FirstFault (d : RuleDefinition) (fault : ConfigFault) : Prop :=
  ∃ before c after, checks = before ++ c :: after ∧ (∀ c' ∈ before, d.Passes c') ∧ d.Fails c fault

variable {d : RuleDefinition} {fault fault' : ConfigFault} {c : Check}

/-! ## One first fault -/

theorem Fails.unique (h : d.Fails c fault) (h' : d.Fails c fault') : fault = fault' := by
  cases h with
  | strategyCount | missingBound | emptyPattern | blankId | zeroBound =>
    cases h'
    rfl
  | malformedPattern he =>
    cases h' with
    | malformedPattern he' =>
      cases he.symm.trans he'
      rfl
  | unknownGroup hp hwrap hfirst =>
    cases h' with
    | unknownGroup hp' hwrap' hfirst' =>
      cases hp.symm.trans hp'
      cases hwrap.symm.trans hwrap'
      rw [hfirst.unique hfirst']
    | noCapture _ hwrap' hnone =>
      cases hwrap.symm.trans hwrap'
      obtain ⟨i, hplaceholder, -⟩ := hfirst
      exact absurd hplaceholder (hnone i _)
  | noCapture hp hwrap hnone =>
    cases h' with
    | unknownGroup _ hwrap' hfirst' =>
      cases hwrap.symm.trans hwrap'
      obtain ⟨i, hplaceholder, -⟩ := hfirst'
      exact absurd hplaceholder (hnone i _)
    | noCapture => rfl

theorem FirstFault.unique (h : d.FirstFault fault) (h' : d.FirstFault fault') :
    fault = fault' := by
  obtain ⟨before, c, after, hchecks, hpass, hfails⟩ := h
  obtain ⟨before', c', after', hchecks', hpass', hfails'⟩ := h'
  rcases List.append_eq_append_iff.mp (hchecks.symm.trans hchecks') with
    ⟨between, rfl, hrest⟩ | ⟨between, rfl, hrest⟩
  · cases between with
    | nil =>
      obtain ⟨rfl, -⟩ := List.cons.inj hrest
      exact hfails.unique hfails'
    | cons x between =>
      obtain ⟨rfl, -⟩ := List.cons.inj hrest
      exact absurd hfails (hpass' c (by simp) _)
  · cases between with
    | nil =>
      obtain ⟨rfl, -⟩ := List.cons.inj hrest
      exact hfails.unique hfails'
    | cons x between =>
      obtain ⟨rfl, -⟩ := List.cons.inj hrest
      exact absurd hfails' (hpass c' (by simp) _)

/-! ## The checks one by one -/

theorem passes_strategyCount : d.Passes .strategyCount ↔ d.declared = 1 := by
  constructor
  · intro h
    by_contra hcount
    exact h _ (.strategyCount hcount)
  · rintro h _ ⟨hcount⟩
    exact hcount h

theorem passes_missingBound :
    d.Passes .missingBound ↔ (d.delete = true → d.maxApplications ≠ none) := by
  constructor
  · intro h hdelete hnone
    exact h _ (.missingBound hdelete hnone)
  · rintro h _ ⟨⟩
    exact h ‹_› ‹_›

theorem passes_emptyPattern : d.Passes .emptyPattern ↔ d.pattern ≠ "" := by
  constructor
  · intro h hempty
    exact h _ (.emptyPattern hempty)
  · rintro h _ ⟨⟩
    exact h ‹_›

theorem passes_malformedPattern :
    d.Passes .malformedPattern ↔ ∃ p, Pattern.ofString? d.patternSource = .ok p := by
  constructor
  · intro h
    cases hread : Pattern.ofString? d.patternSource with
    | error e => exact absurd (.malformedPattern hread) (h _)
    | ok p => exact ⟨p, rfl⟩
  · rintro ⟨p, hp⟩ _ ⟨⟩
    next he => cases hp.symm.trans he

theorem fails_template {p : Pattern} {source : String} {e : TemplateFault}
    (hp : Pattern.ofString? d.patternSource = .ok p) (hwrap : d.wrap = some source)
    (he : Template.ofString? p source = .error e) :
    d.Fails .template (.rule d.id (.template e)) := by
  rcases Template.ofString?_eq_error_iff.mp he with ⟨name, hfirst, rfl⟩ | ⟨hnone, rfl⟩
  · exact .unknownGroup hp hwrap hfirst
  · exact .noCapture hp hwrap hnone

/-- A template that can be read has placeholders, all of them for groups of the pattern. -/
theorem passes_template : d.Passes .template ↔
    ∀ source p, d.wrap = some source → Pattern.ofString? d.patternSource = .ok p →
      (∃ i name, PlaceholderAt source.toList name i) ∧
        ∀ i name, PlaceholderAt source.toList name i → p.hasName name = true := by
  constructor
  · intro h source p hwrap hp
    cases htemplate : Template.ofString? p source with
    | error e => exact absurd (fails_template hp hwrap htemplate) (h _)
    | ok t =>
      obtain ⟨hknown, hplaceholder, -⟩ := Template.ofString?_eq_ok_iff.mp htemplate
      exact ⟨hplaceholder, hknown⟩
  · rintro h _ (_ | _ | _ | _ | ⟨hp, hwrap, i, hplaceholder, hunknown, -⟩ | ⟨hp, hwrap, hnone⟩)
    · rw [(h _ _ hwrap hp).2 i _ hplaceholder] at hunknown
      cases hunknown
    · obtain ⟨i, name, hplaceholder⟩ := (h _ _ hwrap hp).1
      exact hnone i name hplaceholder

theorem passes_blankId : d.Passes .blankId ↔ Unicode.isBlank d.id = false := by
  rw [← Bool.not_eq_true]
  constructor
  · intro h hblank
    exact h _ (.blankId hblank)
  · rintro h _ ⟨⟩
    exact h ‹_›

theorem passes_zeroBound : d.Passes .zeroBound ↔ d.maxApplications ≠ some 0 := by
  constructor
  · intro h hzero
    exact h _ (.zeroBound hzero)
  · rintro h _ ⟨⟩
    exact h ‹_›

theorem wellFormed_iff : d.WellFormed ↔ ∀ c ∈ checks, d.Passes c := by
  simp only [checks, List.forall_mem_cons, List.not_mem_nil, false_imp_iff, implies_true, and_true,
    passes_strategyCount, passes_missingBound, passes_emptyPattern, passes_malformedPattern,
    passes_template, passes_blankId, passes_zeroBound]
  constructor
  · intro ⟨h₁, h₂, h₃, h₄, h₅, h₆, h₇⟩
    exact ⟨h₁, h₂, h₃, h₄, h₅, h₆, h₇⟩
  · intro ⟨h₁, h₂, h₃, h₄, h₅, h₆, h₇⟩
    exact ⟨h₁, h₂, h₃, h₄, h₅, h₆, h₇⟩

theorem WellFormed.not_firstFault (h : d.WellFormed) : ¬ d.FirstFault fault := by
  rintro ⟨before, c, after, hchecks, -, hfails⟩
  have hc : c ∈ checks := by simp [hchecks]
  exact wellFormed_iff.mp h c hc fault hfails

/-! ## Going through the checks -/

theorem isEmpty_patternSource (d : RuleDefinition) :
    d.patternSource.isEmpty = true ↔ d.pattern = "" := by
  rw [String.isEmpty_iff, patternSource]
  split
  · rw [← String.toList_eq_nil_iff, ← String.toList_eq_nil_iff, Pattern.toList_escape]
    have hlength := Pattern.length_le_flatMap_escapeChar d.pattern.toList
    constructor
    · intro h
      rw [h] at hlength
      exact List.eq_nil_of_length_eq_zero (Nat.le_zero.mp hlength)
    · intro h
      rw [h]
      rfl
  · exact Iff.rfl

theorem compile_patternSource (d : RuleDefinition) : compile d.patternSource =
    if d.pattern = "" then .error .emptyPattern
    else (Pattern.ofString? d.patternSource).mapError .malformedPattern := by
  unfold compile
  simp only [isEmpty_patternSource]

theorem actionFor_eq_error {p : Pattern} {e : RuleFault} (h : d.actionFor p = .error e) :
    ∃ source e', d.wrap = some source ∧ Template.ofString? p source = .error e' ∧
      e = .template e' := by
  unfold actionFor at h
  split at h
  · next source hwrap =>
    cases htemplate : Template.ofString? p source with
    | error e' =>
      rw [htemplate] at h
      cases h
      exact ⟨source, e', hwrap, htemplate, rfl⟩
    | ok t =>
      rw [htemplate] at h
      cases h
  · cases h

theorem actionFor_eq_ok {p : Pattern} {action : Action} (h : d.actionFor p = .ok action)
    (hp : Pattern.ofString? d.patternSource = .ok p) : d.Passes .template := by
  rintro fault hfails
  cases hfails with
  | unknownGroup hp' hwrap hfirst =>
    cases hp.symm.trans hp'
    have htemplate : Template.ofString? p _ = .error (.unknownGroup _) :=
      Template.ofString?_eq_error_iff.mpr (.inl ⟨_, hfirst, rfl⟩)
    simp only [actionFor, hwrap, htemplate] at h
    cases h
  | noCapture hp' hwrap hnone =>
    cases hp.symm.trans hp'
    have htemplate : Template.ofString? p _ = .error .noCapture :=
      Template.ofString?_eq_error_iff.mpr (.inr ⟨hnone, rfl⟩)
    simp only [actionFor, hwrap, htemplate] at h
    cases h

/-- A definition is well formed, and then it comes to a draft, or the first check that it does not
pass has the fault that comes of it. -/
theorem settled (d : RuleDefinition) : (d.WellFormed ∧ ∃ r, d.toDraft = .ok r) ∨
    ∃ fault, d.FirstFault fault ∧ d.toDraft = .error fault := by
  by_cases hcount : d.declared = 1
  swap
  · exact .inr ⟨_, ⟨[], .strategyCount, _, rfl, nofun, .strategyCount hcount⟩, if_pos hcount⟩
  have h₁ := passes_strategyCount.mpr hcount
  rw [toDraft_of_declared hcount, steps]
  by_cases hbound : d.delete = true ∧ d.maxApplications = none
  · rw [if_pos hbound]
    exact .inr ⟨_, ⟨[.strategyCount], .missingBound, _, rfl, by simp [h₁],
      .missingBound hbound.1 hbound.2⟩, rfl⟩
  have h₂ := passes_missingBound.mpr (not_and.mp hbound)
  rw [if_neg hbound, Draft.compile, compile_patternSource]
  by_cases hempty : d.pattern = ""
  · rw [if_pos hempty]
    exact .inr ⟨_, ⟨[.strategyCount, .missingBound], .emptyPattern, _, rfl, by simp [h₁, h₂],
      .emptyPattern hempty⟩, rfl⟩
  have h₃ := passes_emptyPattern.mpr hempty
  rw [if_neg hempty]
  cases hread : Pattern.ofString? d.patternSource with
  | error e =>
    exact .inr ⟨_, ⟨[.strategyCount, .missingBound, .emptyPattern], .malformedPattern, _, rfl,
      by simp [h₁, h₂, h₃], .malformedPattern hread⟩, rfl⟩
  | ok p =>
    have h₄ := passes_malformedPattern.mpr ⟨p, hread⟩
    dsimp only [Except.mapError, bind, Except.bind, pure, Except.pure]
    cases haction : d.actionFor p with
    | error e =>
      obtain ⟨source, e, hwrap, htemplate, rfl⟩ := actionFor_eq_error haction
      exact .inr ⟨_, ⟨[.strategyCount, .missingBound, .emptyPattern, .malformedPattern], .template,
        _, rfl, by simp [h₁, h₂, h₃, h₄], fails_template hread hwrap htemplate⟩, rfl⟩
    | ok action =>
      have h₅ := actionFor_eq_ok haction hread
      dsimp only [settle, checkId]
      by_cases hblank : Unicode.isBlank d.id = true
      · rw [if_pos hblank]
        exact .inr ⟨_, ⟨[.strategyCount, .missingBound, .emptyPattern, .malformedPattern,
          .template], .blankId, _, rfl, by simp [h₁, h₂, h₃, h₄, h₅], .blankId hblank⟩, rfl⟩
      have h₆ := passes_blankId.mpr (Bool.not_eq_true _ ▸ hblank)
      rw [if_neg hblank]
      by_cases hzero : d.maxApplications = some 0
      · rw [hzero]
        exact .inr ⟨_, ⟨[.strategyCount, .missingBound, .emptyPattern, .malformedPattern,
          .template, .blankId], .zeroBound, _, rfl, by simp [h₁, h₂, h₃, h₄, h₅, h₆],
          .zeroBound hzero⟩, rfl⟩
      have h₇ := passes_zeroBound.mpr hzero
      obtain ⟨most, hmost, -⟩ := bound?_eq_ok hzero
      rw [hmost]
      exact .inl ⟨wellFormed_iff.mpr (by simp [checks, h₁, h₂, h₃, h₄, h₅, h₆, h₇]), _, rfl⟩

/-! ## What a definition comes to -/

theorem toDraft_eq_error_iff : d.toDraft = .error fault ↔ d.toRule = .error fault := by
  rw [toDraft_eq]
  cases d.toRule <;> simp [Except.map]

theorem exists_toDraft_iff : (∃ r, d.toDraft = .ok r) ↔ ∃ rule, d.toRule = .ok rule := by
  rw [toDraft_eq]
  cases d.toRule <;> simp [Except.map]

theorem toRule_isOk_iff : (∃ rule, d.toRule = .ok rule) ↔ d.WellFormed := by
  rw [← exists_toDraft_iff]
  rcases d.settled with ⟨hwell, hdraft⟩ | ⟨fault, hfirst, hdraft⟩
  · exact iff_of_true hdraft hwell
  · refine iff_of_false (fun ⟨r, hr⟩ => ?_) fun hwell => hwell.not_firstFault hfirst
    cases hr.symm.trans hdraft

/-- Else the fault is that of the first check that it does not pass. -/
theorem toRule_eq_error_iff : d.toRule = .error fault ↔ d.FirstFault fault := by
  rw [← toDraft_eq_error_iff]
  rcases d.settled with ⟨hwell, r, hdraft⟩ | ⟨fault', hfirst, hdraft⟩
  · refine iff_of_false (fun herror => ?_) hwell.not_firstFault
    cases herror.symm.trans hdraft
  · constructor
    · intro herror
      cases herror.symm.trans hdraft
      exact hfirst
    · intro hfirst'
      rw [hdraft, hfirst.unique hfirst']

end Amend.RuleDefinition
