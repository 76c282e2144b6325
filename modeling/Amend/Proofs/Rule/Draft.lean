import Amend.Proofs.FirstFault
import Amend.Rule.FieldAccess

/-!
# Rules in the making

A rule is made in steps, in each of which something is checked: the pattern, the template, the id
and the bound. In between it is a draft, whose bound is apart from what it does, so that a deletion
may lack one. A definition that goes through these steps comes to the draft of its rule
(`RuleDefinition.toDraft_eq`), in one order for all ways of rewriting
(`RuleDefinition.toDraft_of_declared`). Drafts that come out of the steps are sound
(`Draft.Constructed.sound`): no id is blank, and no deletion lacks its bound.
-/

set_option autoImplicit false

namespace Amend

/-- What is done with a match, whether this is bounded or not. -/
inductive Action
  | substitution (replacement : String)
  | structural (template : Template)
  | scopedDeletion

/-- A rule in the making. -/
structure Draft where
  id : String
  description : Option String
  pattern : Pattern
  action : Action
  most : Option Bound

/-- What comes of two steps that can fail comes of the second after the first. -/
theorem exists_of_bind_eq_ok {ε α β : Type} {x : Except ε α} {f : α → Except ε β} {b : β}
    (h : x >>= f = .ok b) : ∃ a, x = .ok a ∧ f a = .ok b := by
  cases x with
  | error e => cases h
  | ok a => exact ⟨a, rfl, h⟩

theorem exists_of_map_eq_ok {ε α β : Type} {x : Except ε α} {f : α → β} {b : β}
    (h : x.map f = .ok b) : ∃ a, x = .ok a ∧ f a = b := by
  cases x with
  | error e => cases h
  | ok a =>
    cases h
    exact ⟨a, rfl, rfl⟩

namespace Draft

/-! ## Making a rule -/

/-- The pattern of a rule as it is written. -/
def compile (id source : String) : Except ConfigFault Pattern :=
  (Amend.compile source).mapError (.rule id)

/-- A draft without a bound. Its id must not be blank. -/
def ofParts (id : String) (pattern : Pattern) (action : Action) : Except ConfigFault Draft :=
  if Unicode.isBlank id then .error .blankRuleId else .ok ⟨id, none, pattern, action, none⟩

def ofSource (id source : String) (action : Action) : Except ConfigFault Draft := do
  ofParts id (← compile id source) action

/-- The draft with a bound, which must not be zero. -/
def withMost (r : Draft) (n : Nat) : Except ConfigFault Draft :=
  match Bound.ofNat? n with
  | some most => .ok { r with most := some most }
  | none => .error (.rule r.id .zeroBound)

/-- The draft with a description. -/
def describe (r : Draft) (text : String) : Draft :=
  { r with description := some text }

/-- A rule that puts a replacement text in the place of a match. -/
def substitution (id source replacement : String) : Except ConfigFault Draft :=
  ofSource id source (.substitution replacement)

/-- A rule that builds a new text around groups of its pattern. -/
def structural (id source template : String) : Except ConfigFault Draft := do
  let pattern ← compile id source
  let template ← (Template.ofString? pattern template).mapError (.rule id ∘ .template)
  ofParts id pattern (.structural template)

/-- A rule that removes matches, at most `n` of them. -/
def scopedDeletion (id source : String) (n : Nat) : Except ConfigFault Draft := do
  (← ofSource id source .scopedDeletion).withMost n

/-- How many of `n` matches are rewritten. A deletion without a bound would rewrite none. -/
def limit (r : Draft) (n : Nat) : Nat :=
  match r.action with
  | .scopedDeletion => min (r.most.elim 0 Bound.count) (n - 1)
  | .substitution _ | .structural _ => r.most.elim n (min ·.count n)

/-- What can be made in these steps. -/
inductive Constructed : Draft → Prop
  | substitution {id source replacement : String} {r : Draft} :
      Draft.substitution id source replacement = .ok r → Constructed r
  | structural {id source template : String} {r : Draft} :
      Draft.structural id source template = .ok r → Constructed r
  | scopedDeletion {id source : String} {n : Nat} {r : Draft} :
      Draft.scopedDeletion id source n = .ok r → Constructed r
  | withMost {r r' : Draft} {n : Nat} : Constructed r → r.withMost n = .ok r' → Constructed r'
  | describe {r : Draft} (text : String) : Constructed r → Constructed (r.describe text)

end Draft

/-! ## Rules as drafts -/

/-- The draft that a rule was. -/
def Rule.draft (r : Rule) : Draft :=
  match r.strategy with
  | .substitution replacement most =>
    ⟨r.id, r.description, r.pattern, .substitution replacement, most⟩
  | .structural template most => ⟨r.id, r.description, r.pattern, .structural template, most⟩
  | .scopedDeletion most => ⟨r.id, r.description, r.pattern, .scopedDeletion, some most⟩

theorem Rule.limit_draft (r : Rule) (n : Nat) : r.draft.limit n = r.strategy.limit n := by
  obtain ⟨id, description, pattern, strategy⟩ := r
  cases strategy <;> rfl

theorem Rule.id_draft (r : Rule) : r.draft.id = r.id := by
  obtain ⟨id, description, pattern, strategy⟩ := r
  cases strategy <;> rfl

theorem Rule.most_draft (r : Rule) : r.draft.most.map Bound.count = r.maxApplications := by
  obtain ⟨id, description, pattern, strategy⟩ := r
  cases strategy <;> rfl

theorem Rule.action_draft (r : Rule) :
    r.draft.action = .scopedDeletion ↔ r.kind = .scopedDeletion := by
  obtain ⟨id, description, pattern, strategy⟩ := r
  cases strategy <;> simp [draft, kind, Strategy.kind]

/-! ## Sound drafts -/

namespace Draft

variable {r r' : Draft} {id source : String} {action : Action} {n : Nat}

/-- The id is not blank, and a deletion has a bound. -/
structure Sound (r : Draft) : Prop where
  id : Unicode.isBlank r.id = false
  bounded : r.action = .scopedDeletion → ∃ most, r.most = some most

/-- A draft is that of a rule unless it is a deletion without a bound. -/
theorem Sound.exists_rule (h : r.Sound) : ∃ rule : Rule, rule.draft = r := by
  obtain ⟨id, description, pattern, action, most⟩ := r
  cases action with
  | substitution replacement =>
    exact ⟨⟨id, description, pattern, .substitution replacement most⟩, rfl⟩
  | structural template => exact ⟨⟨id, description, pattern, .structural template most⟩, rfl⟩
  | scopedDeletion =>
    obtain ⟨most, rfl⟩ := h.bounded rfl
    exact ⟨⟨id, description, pattern, .scopedDeletion most⟩, rfl⟩

/-- A sound deletion does not fall back to rewriting nothing. -/
theorem Sound.limit_eq (h : r.Sound) (haction : r.action = .scopedDeletion) :
    ∃ most, r.most = some most ∧ 1 ≤ most.count ∧ ∀ n, r.limit n = min most.count (n - 1) := by
  obtain ⟨most, hmost⟩ := h.bounded haction
  refine ⟨most, hmost, most.count_pos, fun n => ?_⟩
  rw [limit, haction, hmost]
  rfl

theorem ofParts_eq_ok {pattern : Pattern} (h : ofParts id pattern action = .ok r) :
    Unicode.isBlank id = false ∧ r = ⟨id, none, pattern, action, none⟩ := by
  unfold ofParts at h
  split at h
  · cases h
  · next hid =>
    cases h
    exact ⟨Bool.not_eq_true _ ▸ hid, rfl⟩

theorem ofSource_eq_ok (h : ofSource id source action = .ok r) :
    Unicode.isBlank r.id = false ∧ r.action = action := by
  obtain ⟨pattern, -, hparts⟩ := exists_of_bind_eq_ok h
  obtain ⟨hid, rfl⟩ := ofParts_eq_ok hparts
  exact ⟨hid, rfl⟩

theorem withMost_eq_ok (h : r.withMost n = .ok r') :
    ∃ most : Bound, most.count = n ∧ r' = { r with most := some most } := by
  unfold withMost Bound.ofNat? at h
  split at h
  · next most hmost =>
    split at hmost
    · cases hmost
      cases h
      exact ⟨_, rfl, rfl⟩
    · cases hmost
  · cases h

theorem Sound.withMost (h : r.Sound) (hr : r.withMost n = .ok r') : r'.Sound := by
  obtain ⟨most, -, rfl⟩ := withMost_eq_ok hr
  exact ⟨h.id, fun _ => ⟨most, rfl⟩⟩

theorem Constructed.sound (h : r.Constructed) : r.Sound := by
  induction h with
  | substitution h =>
    obtain ⟨hid, haction⟩ := ofSource_eq_ok h
    exact ⟨hid, fun hdeletion => by rw [haction] at hdeletion; cases hdeletion⟩
  | structural h =>
    obtain ⟨pattern, -, h⟩ := exists_of_bind_eq_ok h
    obtain ⟨t, -, hparts⟩ := exists_of_bind_eq_ok h
    obtain ⟨hid, rfl⟩ := ofParts_eq_ok hparts
    exact ⟨hid, nofun⟩
  | scopedDeletion h =>
    obtain ⟨r₀, hsource, hr⟩ := exists_of_bind_eq_ok h
    obtain ⟨most, -, rfl⟩ := withMost_eq_ok hr
    exact ⟨(ofSource_eq_ok hsource).1, fun _ => ⟨most, rfl⟩⟩
  | withMost _ hr ih => exact ih.withMost hr
  | describe text _ ih => exact ⟨ih.id, ih.bounded⟩

end Draft

/-! ## From a definition to a draft -/

namespace RuleDefinition

/-- How many ways of rewriting are declared. -/
def declared (d : RuleDefinition) : Nat :=
  [d.replace.isSome, d.wrap.isSome, d.delete].count true

/-- A draft with the description that is declared, if there is one. -/
def describeDraft (d : RuleDefinition) (rule : Draft) : Draft :=
  match d.description with
  | some text => rule.describe text
  | none => rule

/-- A draft with the bound and the description that are declared. -/
def finishDraft (d : RuleDefinition) (rule : Draft) : Except ConfigFault Draft :=
  match d.maxApplications with
  | some n => (rule.withMost n).map d.describeDraft
  | none => .ok (d.describeDraft rule)

/-- The draft of the rule that is defined. -/
def toDraft (d : RuleDefinition) : Except ConfigFault Draft :=
  if d.declared ≠ 1 then .error (.rule d.id .strategyCount)
  else if d.delete then
    match d.maxApplications with
    | some n => (Draft.scopedDeletion d.id d.patternSource n).map d.describeDraft
    | none => .error (.rule d.id .missingBound)
  else
    let rule := match d.wrap with
      | some template => Draft.structural d.id d.patternSource template
      | none => Draft.substitution d.id d.patternSource (d.replace.getD "")
    rule >>= d.finishDraft

/-- What is to be done with matches of a pattern. -/
def actionFor (d : RuleDefinition) (pattern : Pattern) : Except RuleFault Action :=
  match d.wrap with
  | some source => (Template.ofString? pattern source).map .structural |>.mapError .template
  | none => .ok (if d.delete then .scopedDeletion else .substitution (d.replace.getD ""))

/-- The checks that come last: those of the id and of the bound. -/
def settle (d : RuleDefinition) (pattern : Pattern) (action : Action) :
    Except ConfigFault Draft := do
  d.checkId
  let most ← (bound? d.maxApplications).mapError (.rule d.id)
  return ⟨d.id, d.description, pattern, action, most⟩

/-- The steps from a definition that declares one way of rewriting to a draft. -/
def steps (d : RuleDefinition) : Except ConfigFault Draft := do
  if d.delete ∧ d.maxApplications = none then
    throw (.rule d.id .missingBound)
  let pattern ← Draft.compile d.id d.patternSource
  let action ← (d.actionFor pattern).mapError (.rule d.id)
  d.settle pattern action

section
variable {d : RuleDefinition}

theorem declared_eq_one_iff : d.declared = 1 ↔
    (∃ r, d.replace = some r ∧ d.wrap = none ∧ d.delete = false) ∨
    (∃ source, d.replace = none ∧ d.wrap = some source ∧ d.delete = false) ∨
    (d.replace = none ∧ d.wrap = none ∧ d.delete = true) := by
  unfold declared
  cases d.replace <;> cases d.wrap <;> cases d.delete <;> simp

theorem toRule_of_undeclared (h : d.declared ≠ 1) :
    d.toRule = .error (.rule d.id .strategyCount) := by
  rw [Ne, declared_eq_one_iff] at h
  unfold toRule
  split
  · next r hreplace hwrap hdelete => exact absurd (.inl ⟨r, hreplace, hwrap, hdelete⟩) h
  · next source hreplace hwrap hdelete =>
    exact absurd (.inr (.inl ⟨source, hreplace, hwrap, hdelete⟩)) h
  · next hreplace hwrap hdelete => exact absurd (.inr (.inr ⟨hreplace, hwrap, hdelete⟩)) h
  · rfl

theorem ofParts_finishDraft (d : RuleDefinition) (pattern : Pattern) (action : Action) :
    Draft.ofParts d.id pattern action >>= d.finishDraft = d.settle pattern action := by
  unfold Draft.ofParts finishDraft settle checkId describeDraft
  cases Unicode.isBlank d.id with
  | true => rfl
  | false =>
    cases d.maxApplications with
    | none => cases d.description <;> rfl
    | some n =>
      dsimp only [bind, Except.bind, Draft.withMost, bound?, bound]
      cases Bound.ofNat? n <;> cases d.description <;> rfl

/-- A definition that declares one way of rewriting goes through the same steps whichever it is. -/
theorem toDraft_of_declared (h : d.declared = 1) : d.toDraft = d.steps := by
  unfold toDraft steps
  rw [if_neg (not_not_intro h)]
  rcases declared_eq_one_iff.mp h with ⟨r, hreplace, hwrap, hdelete⟩ |
    ⟨source, hreplace, hwrap, hdelete⟩ | ⟨hreplace, hwrap, hdelete⟩
  · have haction : ∀ p, d.actionFor p = .ok (.substitution r) := by
      intro p
      rw [actionFor, hwrap, hdelete, hreplace]
      rfl
    simp only [hdelete, hwrap, hreplace, haction, Draft.substitution, Draft.ofSource, bind_assoc,
      ofParts_finishDraft]
    rfl
  · have haction : ∀ p, d.actionFor p =
        ((Template.ofString? p source).map .structural).mapError .template := by
      intro p
      rw [actionFor, hwrap]
    simp only [hdelete, hwrap, haction, Draft.structural, bind_assoc, ofParts_finishDraft,
      Bool.false_eq_true, false_and, if_false]
    refine bind_congr fun p => ?_
    cases Template.ofString? p source <;> rfl
  · have haction : ∀ p, d.actionFor p = .ok .scopedDeletion := by
      intro p
      rw [actionFor, hwrap, hdelete]
      rfl
    cases hmax : d.maxApplications with
    | none =>
      rw [if_pos hdelete, if_pos ⟨hdelete, rfl⟩]
      rfl
    | some n =>
      have hfinish : d.finishDraft = fun rule => (rule.withMost n).map d.describeDraft := by
        funext rule
        rw [finishDraft, hmax]
      have hbind : ∀ x : Except ConfigFault Draft,
          (x >>= (·.withMost n)).map d.describeDraft = x >>= d.finishDraft := by
        intro x
        rw [hfinish]
        cases x <;> rfl
      rw [if_pos hdelete, if_neg (by simp)]
      dsimp only
      rw [Draft.scopedDeletion, hbind, Draft.ofSource, bind_assoc]
      simp only [haction, ofParts_finishDraft]
      rfl

/-- Going through the steps comes to the same as reading the definition at once. -/
theorem toDraft_eq (d : RuleDefinition) : d.toDraft = d.toRule.map Rule.draft := by
  by_cases h : d.declared = 1
  · rw [toDraft_of_declared h]
    unfold steps Draft.compile
    rcases declared_eq_one_iff.mp h with ⟨r, hreplace, hwrap, hdelete⟩ |
      ⟨source, hreplace, hwrap, hdelete⟩ | ⟨hreplace, hwrap, hdelete⟩
    · simp only [toRule, actionFor, settle, hreplace, hwrap, hdelete]
      cases compile d.patternSource with
      | error e => rfl
      | ok p =>
        cases d.checkId with
        | error e => rfl
        | ok => cases bound? d.maxApplications <;> rfl
    · simp only [toRule, actionFor, settle, hreplace, hwrap, hdelete]
      cases compile d.patternSource with
      | error e => rfl
      | ok p =>
        dsimp only [Except.mapError, bind, Except.bind]
        cases Template.ofString? p source with
        | error e => rfl
        | ok t =>
          cases d.checkId with
          | error e => rfl
          | ok => cases bound? d.maxApplications <;> rfl
    · simp only [toRule, actionFor, settle, hreplace, hwrap, hdelete]
      cases d.maxApplications with
      | none => rfl
      | some n =>
        cases compile d.patternSource with
        | error e => rfl
        | ok p =>
          cases d.checkId with
          | error e => rfl
          | ok =>
            dsimp only [bound?, Except.mapError, bind, Except.bind]
            cases bound n <;> rfl
  · rw [toRule_of_undeclared h, toDraft, if_pos h]
    rfl

theorem constructed_describeDraft {r : Draft} (h : r.Constructed) :
    (d.describeDraft r).Constructed := by
  unfold describeDraft
  split
  · exact h.describe _
  · exact h

/-- What a definition comes to is made in these steps. -/
theorem constructed_of_toDraft {r : Draft} (h : d.toDraft = .ok r) : r.Constructed := by
  unfold toDraft at h
  split at h
  · cases h
  split at h
  · split at h
    · obtain ⟨rule, hrule, rfl⟩ := exists_of_map_eq_ok h
      exact constructed_describeDraft (.scopedDeletion hrule)
    · cases h
  · obtain ⟨rule, hrule, hfinish⟩ := exists_of_bind_eq_ok h
    have hconstructed : rule.Constructed := by
      split at hrule
      · exact .structural hrule
      · exact .substitution hrule
    unfold finishDraft at hfinish
    split at hfinish
    · obtain ⟨rule', hmost, rfl⟩ := exists_of_map_eq_ok hfinish
      exact constructed_describeDraft (hconstructed.withMost hmost)
    · cases hfinish
      exact constructed_describeDraft hconstructed

theorem constructed_of_toRule {rule : Rule} (h : d.toRule = .ok rule) :
    rule.draft.Constructed := by
  refine constructed_of_toDraft (d := d) ?_
  rw [toDraft_eq, h]
  rfl

end

end RuleDefinition

theorem FieldSpec.constructed_of_ruleFor {accessor receiver name : String} {rule : Rule}
    (h : ruleFor accessor receiver name = .ok rule) : rule.draft.Constructed := by
  obtain ⟨-, -, h⟩ := exists_of_bind_eq_ok h
  obtain ⟨pattern, hpattern, h⟩ := exists_of_bind_eq_ok h
  cases h
  have hid : Unicode.isBlank ("field-access:" ++ name) = false := by
    unfold Unicode.isBlank
    rw [String.toList_append]
    rfl
  have hdraft : Draft.substitution ("field-access:" ++ name) (accessPattern receiver name)
      (replacement accessor name) = .ok ⟨"field-access:" ++ name, none, pattern,
        .substitution (replacement accessor name), none⟩ := by
    unfold Draft.substitution Draft.ofSource Draft.compile
    rw [hpattern]
    exact if_neg (by rw [hid]; exact Bool.false_ne_true)
  exact (Draft.Constructed.substitution hdraft).describe ("defensive read of ." ++ name)

theorem FieldSpec.constructed_of_expand {spec : FieldSpec} {rules : List Rule}
    (h : spec.expand = .ok rules) : ∀ rule ∈ rules, rule.draft.Constructed := by
  unfold expand at h
  split at h
  · cases h
  obtain ⟨source, -, h⟩ := exists_of_bind_eq_ok h
  intro rule hrule
  obtain ⟨name, -, hname⟩ := exists_of_mapM_eq_ok h rule hrule
  exact constructed_of_ruleFor hname

end Amend
