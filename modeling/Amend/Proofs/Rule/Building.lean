import Amend.Rule.Set
import Mathlib.Data.List.Nodup

/-!
# Building rule sets

A rule set is built exactly if its field specification expands and no two of its rules have one id
(`RuleSet.build_eq_ok_iff`). Where the rules for fields are put in makes no difference to that
(`RuleSet.arrange_perm`).
-/

set_option autoImplicit false

namespace Amend.RuleSet

/-! ## Repeated ids -/

/-- No id is found to be repeated exactly if none is, and none was seen before. -/
theorem firstRepeated_eq_none_iff {seen ids : List String} :
    firstRepeated seen ids = none ↔ ids.Nodup ∧ ∀ id ∈ ids, id ∉ seen := by
  induction ids generalizing seen with
  | nil => simp [firstRepeated]
  | cons id ids ih =>
    by_cases hseen : id ∈ seen
    · simp [firstRepeated, hseen]
    · have hrest : (∀ id' ∈ ids, id' ∉ id :: seen) ↔ id ∉ ids ∧ ∀ id' ∈ ids, id' ∉ seen := by
        simp only [List.mem_cons, not_or]
        constructor
        · intro h
          exact ⟨fun hid => (h id hid).1 rfl, fun id' hid' => (h id' hid').2⟩
        · intro ⟨hid, h⟩ id' hid'
          exact ⟨fun heq => hid (heq ▸ hid'), h id' hid'⟩
      simp only [firstRepeated, List.contains_eq_mem, hseen, decide_false, Bool.false_eq_true,
        if_false, ih, hrest, List.nodup_cons, List.forall_mem_cons, not_false_eq_true, true_and]
      tauto

theorem firstRepeated_eq_some {seen before after : List String} {id : String}
    (h : before.Nodup) (hseen : ∀ id ∈ before, id ∉ seen) (hid : id ∈ seen ∨ id ∈ before) :
    firstRepeated seen (before ++ id :: after) = some id := by
  induction before generalizing seen with
  | nil =>
    have hmem : id ∈ seen := by simpa using hid
    rw [List.nil_append, firstRepeated, if_pos (by simpa using hmem)]
  | cons id' before ih =>
    obtain ⟨hid', hbefore⟩ := List.nodup_cons.mp h
    rw [List.cons_append, firstRepeated, if_neg (by simpa using hseen id' List.mem_cons_self)]
    refine ih hbefore (fun id'' hid'' hmem => ?_) ?_
    · rcases List.mem_cons.mp hmem with rfl | hmem
      · exact hid' hid''
      · exact hseen id'' (List.mem_cons_of_mem _ hid'') hmem
    · rcases hid with hid | hid
      · exact .inl (List.mem_cons_of_mem _ hid)
      · rcases List.mem_cons.mp hid with rfl | hid
        · exact .inl List.mem_cons_self
        · exact .inr hid

/-! ## The rules of a set -/

theorem arrange_perm (rules fields : List Rule) :
    (arrange rules fields).Perm (rules ++ fields) := by
  have hrules := List.takeWhile_append_dropWhile (p := precedesFields) (l := rules)
  unfold arrange
  conv => rhs; rw [← hrules, List.append_assoc]
  exact List.perm_append_comm.append_left _

/-- The rules that a field specification stands for, and none if there is no specification. -/
def expanded : Option FieldSpec → Except ConfigFault (List Rule)
  | some spec => spec.expand
  | none => .ok []

variable {name : String} {file : Path} {rules fields : List Rule} {spec? : Option FieldSpec}
  {set : RuleSet}

/-- A set whose field specification expands is built unless an id is repeated in it. -/
theorem build_of_expanded (h : expanded spec? = .ok fields) (name : String) (file : Path)
    (rules : List Rule) : build name file rules spec? =
      match firstRepeated [] ((arrange rules fields).map Rule.id) with
      | some id => .error (.repeatedRuleId name file id)
      | none => .ok ⟨name, file, arrange rules fields⟩ := by
  cases spec? with
  | none =>
    cases h
    rfl
  | some spec =>
    replace h : spec.expand = .ok fields := h
    simp only [build, h]
    rfl

theorem build_of_expanded_error {fault : ConfigFault} (h : expanded spec? = .error fault) :
    build name file rules spec? = .error fault := by
  cases spec? with
  | none => cases h
  | some spec =>
    replace h : spec.expand = .error fault := h
    simp only [build, h]
    rfl

/-- A set is built exactly if its field specification expands and no id is repeated. -/
theorem build_eq_ok_iff : build name file rules spec? = .ok set ↔ ∃ fields,
    expanded spec? = .ok fields ∧ ((rules ++ fields).map Rule.id).Nodup ∧
      set = ⟨name, file, arrange rules fields⟩ := by
  cases hexpanded : expanded spec? with
  | error fault => simp [build_of_expanded_error hexpanded]
  | ok fields =>
    have hnodup : firstRepeated [] ((arrange rules fields).map Rule.id) = none ↔
        ((rules ++ fields).map Rule.id).Nodup := by
      simp [firstRepeated_eq_none_iff, ((arrange_perm rules fields).map Rule.id).nodup_iff]
    rw [build_of_expanded hexpanded]
    cases hrepeated : firstRepeated [] ((arrange rules fields).map Rule.id) with
    | none =>
      simp only [Except.ok.injEq, exists_eq_left', hnodup.mp hrepeated, true_and]
      exact eq_comm
    | some id =>
      rw [hrepeated] at hnodup
      constructor
      · nofun
      · intro ⟨fields', hfields, hids, _⟩
        cases hfields
        cases hnodup.mpr hids

theorem nodup_of_build (h : build name file rules spec? = .ok set) :
    (set.rules.map Rule.id).Nodup := by
  obtain ⟨fields, -, hnodup, rfl⟩ := build_eq_ok_iff.mp h
  exact ((arrange_perm rules fields).map Rule.id).nodup_iff.mpr hnodup

end Amend.RuleSet
