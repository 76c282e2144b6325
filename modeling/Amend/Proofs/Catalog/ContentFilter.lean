import Amend.Proofs.Catalog.BuiltIn
import Amend.Proofs.Rule.Enclosing

/-!
# The content filter

The rules for the content filter rename the calls of two methods. A second application finds a call
exactly where two calls of one method end together (`BuiltIn.filterRules_again_iff`).
-/

set_option autoImplicit false

namespace Amend.BuiltIn

/-! ## The rules -/

/-- The beginning of a call of the content filter. -/
def filterCall (method : String) : List Char :=
  "self.content_filter.".toList ++ (method.toList ++ ['('])

/-- The rule that renames the calls of a method. -/
def filterRule (id method : String) : Rule where
  id
  description := none
  pattern := {
    source := "self\\.content_filter\\." ++ (method ++ "\\((?P<arg>[^)]+)\\)")
    regex := enclosedRegex ')' (filterCall method) []
    names := [("arg", 1)] }
  strategy := .structural
    ⟨[.text (filterCall "validate_content"), .capture "arg", .text [')']]⟩ none

def filterRules : List Rule :=
  [filterRule "validate-room-name" "validate_room_name",
    filterRule "sanitize-content" "sanitize_content"]

set_option maxRecDepth 2000 in
theorem expands_contentFilterApi : contentFilterApi.Expands filterRules [] := by
  refine ⟨.cons (toRule_wrapping ?_ ?_ ?_) (.cons (toRule_wrapping ?_ ?_ ?_) .nil),
    .inl ⟨rfl, rfl⟩⟩
  · rfl
  · decide +kernel
  · decide +kernel
  · rfl
  · decide +kernel
  · decide +kernel

theorem encloses_filterRule (id method : String) :
    (filterRule id method).Encloses ')' (filterCall method) (filterCall "validate_content") []
      [] where
  regex := rfl
  limit _ := rfl
  rewrite text m := by
    simp [filterRule, Strategy.rewrite, Template.render, Pattern.textNamed]

/-! ## A second application -/

/-- The names of the methods that are renamed, and of the one that is left. -/
def filterMethods : List String :=
  ["validate_room_name", "sanitize_content", "validate_content"]

/-- The call of one method is no part of the call of another. -/
theorem neutral_filterCall : ∀ m ∈ filterMethods, ∀ m' ∈ filterMethods, m ≠ m' →
    Neutral ')' (filterCall m) [] (filterCall m') := by
  decide +kernel

theorem notMem_filterCall : ∀ m ∈ filterMethods, ')' ∉ filterCall m := by
  decide +kernel

theorem filterCall_ne_nil (method : String) : filterCall method ≠ [] := by
  exact List.append_ne_nil_of_right_ne_nil _ (List.append_ne_nil_of_right_ne_nil _
    (List.cons_ne_nil _ _))

section
variable {id m m' : String} {text : List Char}

/-- The rule for one method makes or breaks neither calls of another nor a nesting of them. -/
theorem apply_filterRule_iff {P : List Char → Prop} (hm' : m' ∈ filterMethods)
    (hswap : ∀ n ∈ filterMethods, n ≠ m → ∀ n' ∈ filterMethods, n' ≠ m → ∀ x y,
      P (x ++ (filterCall n ++ y)) → P (x ++ (filterCall n' ++ y)))
    (hne : m' ≠ m) (hleft : m ≠ "validate_content") :
    P ((filterRule id m').apply text).1 ↔ P text := by
  have hkept : "validate_content" ∈ filterMethods := by decide
  constructor
  · intro h
    by_contra hno
    refine (encloses_filterRule id m').preserves (P := fun text => ¬ P text) hno
      (fun out w rest _ hold hnew => hold ?_) h
    exact hswap _ hkept hleft.symm m' hm' hne _ _ hnew
  · exact fun h => (encloses_filterRule id m').preserves h fun out w rest _ =>
      hswap m' hm' hne _ hkept hleft.symm _ _

theorem nested_apply_filterRule_iff (hm : m ∈ filterMethods) (hm' : m' ∈ filterMethods)
    (hne : m' ≠ m) (hleft : m ≠ "validate_content") :
    Nested ')' (filterCall m) [] ((filterRule id m').apply text).1 ↔
      Nested ')' (filterCall m) [] text :=
  apply_filterRule_iff hm' (fun n hn hnm n' hn' _ _ _ =>
    (neutral_filterCall m hm n hn hnm.symm).nested fun _ =>
      ⟨notMem_filterCall n' hn', filterCall_ne_nil n'⟩) hne hleft

theorem unenclosed_apply_filterRule_iff (hm : m ∈ filterMethods) (hm' : m' ∈ filterMethods)
    (hne : m' ≠ m) (hleft : m ≠ "validate_content") :
    Unenclosed ')' (filterCall m) [] ((filterRule id m').apply text).1 ↔
      Unenclosed ')' (filterCall m) [] text :=
  apply_filterRule_iff hm' (fun n hn _ n' hn' hnm' _ _ =>
    (neutral_filterCall m hm n' hn' hnm'.symm).unenclosed fun _ =>
      ⟨notMem_filterCall n hn, filterCall_ne_nil n⟩) hne hleft

end

/-- A second application of the rules does nothing exactly where no two calls of one of the methods
end together. -/
theorem filterRules_again_iff (text : List Char) :
    let out := (Rule.applyAll filterRules text).text
    Rule.applyAll filterRules out = ⟨out, [], 0⟩ ↔
      ¬ Nested ')' (filterCall "validate_room_name") [] text ∧
        ¬ Nested ')' (filterCall "sanitize_content") [] text := by
  have hroom : "validate_room_name" ∈ filterMethods := by decide
  have hcontent : "sanitize_content" ∈ filterMethods := by decide
  have hleft : "validate_content" ∈ filterMethods := by decide
  have hlimit : ∀ r ∈ filterRules, ∀ n, r.strategy.limit n = n := by
    rintro r hr n
    rcases List.mem_pair.mp hr with rfl | rfl <;> rfl
  have hown : ∀ id, ∀ m ∈ filterMethods, m ≠ "validate_content" → ∀ text,
      Unenclosed ')' (filterCall m) [] ((filterRule id m).apply text).1 ↔
        ¬ Nested ')' (filterCall m) [] text := fun id m hm hne text =>
    (encloses_filterRule id m).unenclosed_apply_iff (filterCall_ne_nil m) (notMem_filterCall m hm)
      (neutral_filterCall m hm _ hleft hne)
  dsimp only
  rw [Rule.applyAll_eq_self_iff hlimit]
  simp only [filterRules, List.forall_mem_cons, List.not_mem_nil, false_imp_iff, implies_true,
    and_true, (encloses_filterRule _ _).matchesIn_eq_nil_iff, Rule.text_applyAll_cons]
  have hnil : ∀ text, (Rule.applyAll [] text).text = text := fun _ => rfl
  rw [hnil, unenclosed_apply_filterRule_iff hroom hcontent (by decide) (by decide),
    hown _ _ hroom (by decide), hown _ _ hcontent (by decide),
    nested_apply_filterRule_iff hcontent hroom (by decide) (by decide)]

end Amend.BuiltIn
