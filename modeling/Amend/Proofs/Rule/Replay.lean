import Amend.Proofs.Rule.Application
import Amend.Proofs.Rule.Building

/-!
# The rules that fired

What rules do to a text is done by those of them that fired: the others can be left out, although
each rule is applied to the text that the ones before it left (`applyAll_filter_applied`). Lists of
rules that come one after the other can be applied one after the other (`applyAll_append`). Both
follow from what a single rule contributes, and are put together for the sets that are built in
`applied_rules_reproduce`.
-/

set_option autoImplicit false

namespace Amend.Rule

/-! ## One list after the other -/

theorem applyAll_append (rs ss : List Rule) (text : List Char) :
    applyAll (rs ++ ss) text =
      let first := applyAll rs text
      let second := applyAll ss first.text
      ⟨second.text, first.applied ++ second.applied, first.replacements + second.replacements⟩ := by
  induction rs generalizing text with
  | nil => simp [applyAll, trace, Rewrite.ofSteps]
  | cons r rs ih =>
    rw [List.cons_append]
    by_cases hidle : (r.apply text).2 = 0
    · rw [applyAll_cons_of_idle hidle, applyAll_cons_of_idle hidle]
      exact ih text
    · rw [applyAll_cons_of_fires hidle, applyAll_cons_of_fires hidle, ih]
      simp only [List.cons_append, Nat.add_assoc]

/-! ## Which rules fired -/

theorem applied_sublist (rs : List Rule) (text : List Char) :
    (applyAll rs text).applied.Sublist (rs.map Rule.id) := by
  induction rs generalizing text with
  | nil => exact List.Sublist.refl []
  | cons r rs ih =>
    rw [List.map_cons]
    by_cases hidle : (r.apply text).2 = 0
    · rw [applyAll_cons_of_idle hidle]
      exact (ih text).cons r.id
    · rw [applyAll_cons_of_fires hidle]
      exact (ih _).cons_cons r.id

theorem replacements_eq_zero_iff (rs : List Rule) (text : List Char) :
    (applyAll rs text).replacements = 0 ↔ (applyAll rs text).applied = [] := by
  induction rs generalizing text with
  | nil => simp [applyAll, trace, Rewrite.ofSteps]
  | cons r rs ih =>
    by_cases hidle : (r.apply text).2 = 0
    · rw [applyAll_cons_of_idle hidle]
      exact ih text
    · rw [applyAll_cons_of_fires hidle]
      simp only [List.cons_ne_nil, iff_false]
      omega

theorem text_applyAll_of_applied_eq_nil {rs : List Rule} {text : List Char}
    (h : (applyAll rs text).applied = []) : (applyAll rs text).text = text := by
  induction rs with
  | nil => rfl
  | cons r rs ih =>
    by_cases hidle : (r.apply text).2 = 0
    · rw [applyAll_cons_of_idle hidle] at h ⊢
      exact ih h
    · rw [applyAll_cons_of_fires hidle] at h
      cases h

/-! ## The others left out -/

/-- A rule that no other rule shares its id with is chosen by this id alone. -/
theorem filter_cons_of_notMem {id : String} {rs : List Rule} (h : id ∉ rs.map Rule.id)
    (ids : List String) :
    rs.filter (fun r => r.id ∈ id :: ids) = rs.filter fun r => r.id ∈ ids := by
  refine List.filter_congr fun r hr => ?_
  have hne : r.id ≠ id := fun heq => h (heq ▸ List.mem_map_of_mem hr)
  simp [hne]

/-- The rules that fired do the same without the others, and each of them fires. -/
theorem applyAll_filter_applied {rs : List Rule} (h : (rs.map Rule.id).Nodup)
    (text : List Char) :
    let result := applyAll rs text
    let fired := rs.filter fun r => r.id ∈ result.applied
    applyAll fired text = result ∧ fired.map Rule.id = result.applied := by
  -- on the list, for any text: a rule that fires changes the text for the rules after it
  induction rs generalizing text with
  | nil => exact ⟨rfl, rfl⟩
  | cons r rs ih =>
    obtain ⟨hid, hids⟩ := List.nodup_cons.mp h
    by_cases hidle : (r.apply text).2 = 0
    · have hnot : r.id ∉ (applyAll rs text).applied :=
        fun hmem => hid ((applied_sublist rs text).subset hmem)
      rw [applyAll_cons_of_idle hidle]
      simp only [List.filter_cons, hnot, decide_false, Bool.false_eq_true, if_false]
      exact ih hids text
    · obtain ⟨hresult, happlied⟩ := ih hids (r.apply text).1
      rw [applyAll_cons_of_fires hidle]
      simp only [List.filter_cons, List.mem_cons_self, decide_true, if_true]
      rw [filter_cons_of_notMem hid, applyAll_cons_of_fires hidle, hresult, List.map_cons, happlied]
      exact ⟨rfl, rfl⟩

/-- In a set that was built, the rules that fired do by themselves, in the declared order, what all
rules do to a text. Any lists of rules can be applied one after the other, and where nothing was
replaced no rule fired and the text is as it was. -/
theorem applied_rules_reproduce {name : String} {file : Path} {declared : List Rule}
    {fields : Option FieldSpec} {set : RuleSet}
    (h : RuleSet.build name file declared fields = .ok set) (text : List Char) :
    (let result := applyAll set.rules text
      let fired := set.rules.filter fun r => r.id ∈ result.applied
      applyAll fired text = result ∧ fired.map Rule.id = result.applied) ∧
    (∀ (rs ss : List Rule) (text : List Char),
      let first := applyAll rs text
      let second := applyAll ss first.text
      let both := applyAll (rs ++ ss) text
      both.text = second.text ∧ both.applied = first.applied ++ second.applied ∧
        both.replacements = first.replacements + second.replacements) ∧
    ∀ (rs : List Rule) (text : List Char), let result := applyAll rs text
      (result.replacements = 0 ↔ result.applied = []) ∧
        (result.applied = [] → result.text = text) := by
  refine ⟨applyAll_filter_applied (RuleSet.nodup_of_build h) text, ?_, ?_⟩
  · intro rs ss text first second both
    have hboth : both = _ := applyAll_append rs ss text
    rw [hboth]
    exact ⟨rfl, rfl, rfl⟩
  · intro rs text result
    exact ⟨replacements_eq_zero_iff rs text, text_applyAll_of_applied_eq_nil⟩

/-- A rule that replaces a letter. -/
def letterRule (id : String) (letter : Char) (replacement : String) : Rule where
  id := id
  description := none
  pattern := { source := .ofList [letter], regex := .concat [.set (· == letter)], names := [] }
  strategy := .substitution replacement none

/-- Rules of which the second finds nothing in texts without `x`. -/
def letterRules : List Rule :=
  [letterRule "first" 'a' "b", letterRule "idle" 'x' "y", letterRule "last" 'b' "c"]

/-- The rule that finds nothing can be left out, but not the one before a rule that finds what it
has put there. -/
theorem letterRules_reproduce :
    ∃ set, RuleSet.build "letters" ⟨"src/lib.rs"⟩ letterRules none = .ok set ∧
      let result := applyAll set.rules "aba".toList
      let fired := set.rules.filter fun r => r.id ∈ result.applied
      result = ⟨"ccc".toList, ["first", "last"], 5⟩ ∧ applyAll fired "aba".toList = result ∧
        fired.map Rule.id = ["first", "last"] := by
  have hbuild : RuleSet.build "letters" ⟨"src/lib.rs"⟩ letterRules none =
      .ok ⟨"letters", ⟨"src/lib.rs"⟩, letterRules⟩ := rfl
  obtain ⟨hresult, hids⟩ := (applied_rules_reproduce hbuild "aba".toList).1
  have hall : applyAll letterRules "aba".toList = ⟨"ccc".toList, ["first", "last"], 5⟩ := by
    decide +kernel
  refine ⟨_, hbuild, hall, hresult, hids.trans ?_⟩
  rw [hall]

end Amend.Rule
