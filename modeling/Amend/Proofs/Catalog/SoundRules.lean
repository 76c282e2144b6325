import Amend.Proofs.Catalog.Insertion
import Amend.Proofs.Rule.Checks

/-!
# Sound rules

However a catalog comes about, its rules are made in the steps that check them
(`Catalog.Assembled.constructed`), so each has an id and each deletion its bound. This and the
acceptance of single definitions are put together in
`RuleDefinition.accepts_iff_wellFormed`.
-/

set_option autoImplicit false

namespace Amend

/-- A rule whose draft is made in the steps has an id that is not blank, and if it is a deletion a
bound, of which a match is always kept. -/
theorem Rule.sound_of_constructed {r : Rule} (h : r.draft.Constructed) :
    Unicode.isBlank r.id = false ∧ (r.kind = .scopedDeletion →
      ∃ most, r.maxApplications = some most ∧ 1 ≤ most ∧
        ∀ n, r.strategy.limit n = min most (n - 1)) := by
  refine ⟨r.id_draft ▸ h.sound.id, fun hkind => ?_⟩
  obtain ⟨most, hmost, hpos, hlimit⟩ := h.sound.limit_eq (r.action_draft.mpr hkind)
  refine ⟨most.count, ?_, hpos, fun n => ?_⟩
  · rw [← r.most_draft, hmost]
    rfl
  · rw [← r.limit_draft, hlimit]

theorem RuleSet.constructed_of_build {name : String} {file : Path} {rules : List Rule}
    {spec? : Option FieldSpec} {set : RuleSet} (h : build name file rules spec? = .ok set)
    (hrules : ∀ r ∈ rules, r.draft.Constructed) : ∀ r ∈ set.rules, r.draft.Constructed := by
  obtain ⟨fields, hfields, -, rfl⟩ := build_eq_ok_iff.mp h
  intro r hr
  rcases List.mem_append.mp ((arrange_perm rules fields).mem_iff.mp hr) with hr | hr
  · exact hrules r hr
  · cases spec? with
    | none =>
      cases hfields
      cases hr
    | some spec => exact FieldSpec.constructed_of_expand hfields r hr

namespace Catalog

/-- The ways to a catalog: from its definition, or from sets that are built of constructed rules. -/
inductive Assembled : Catalog → Prop
  | ofDefinition {d : CatalogDefinition} {c : Catalog} : ofDefinition d = .ok c → Assembled c
  | ofRuleSets {sets : List RuleSet} {c : Catalog} :
      (∀ s ∈ sets, ∃ rules fields, (∀ r ∈ rules, r.draft.Constructed) ∧
        RuleSet.build s.name s.file rules fields = .ok s) →
      ofRuleSets sets = .ok c → Assembled c

variable {c : Catalog} {s : RuleSet} {r : Rule}

theorem constructed_of_sets {d : RuleSetDefinition} {sets : List RuleSet} (h : d.sets = .ok sets)
    (hs : s ∈ sets) (hr : r ∈ s.rules) : r.draft.Constructed := by
  obtain ⟨rules, hrules, hsets⟩ := exists_of_bind_eq_ok h
  obtain ⟨file, -, hbuild⟩ := exists_of_mapM_eq_ok hsets s hs
  refine RuleSet.constructed_of_build hbuild (fun r hr => ?_) r hr
  obtain ⟨d, -, hd⟩ := exists_of_mapM_eq_ok hrules r hr
  exact RuleDefinition.constructed_of_toRule hd

/-- All rules of a catalog are made in the steps. -/
theorem Assembled.constructed (h : c.Assembled) (hs : s ∈ c.sets) (hr : r ∈ s.rules) :
    r.draft.Constructed := by
  cases h with
  | ofDefinition h =>
    obtain ⟨blocks, hblocks, hflatten⟩ := exists_of_map_eq_ok (sets_of_ofDefinition h)
    rw [← hflatten] at hs
    obtain ⟨sets, hsets, hs⟩ := List.mem_flatten.mp hs
    obtain ⟨d, -, hd⟩ := exists_of_mapM_eq_ok hblocks sets hsets
    exact constructed_of_sets hd hs hr
  | ofRuleSets hsets h =>
    rw [sets_of_ofRuleSets h] at hs
    obtain ⟨rules, fields, hrules, hbuild⟩ := hsets s hs
    exact RuleSet.constructed_of_build hbuild hrules r hr

end Catalog

/-- A definition is accepted exactly if it is well formed, and else refused with the fault of the
first check that it does not pass; it may be read at once or step by step. What comes out of the
steps has an id and, if it is a deletion, a bound of at least 1, so that the limit of a deletion
without a bound is not met. This holds for the rules of all catalogs. -/
theorem RuleDefinition.accepts_iff_wellFormed :
    (∀ d : RuleDefinition, d.toDraft = d.toRule.map Rule.draft ∧
      ((∃ rule, d.toRule = .ok rule) ↔ d.WellFormed) ∧
      (∀ fault, d.toRule = .error fault ↔ d.FirstFault fault) ∧
      ∀ rule, d.toRule = .ok rule → rule.draft.Constructed) ∧
    (∀ r : Draft, r.Constructed → Unicode.isBlank r.id = false ∧
      (r.action = .scopedDeletion → ∃ most, r.most = some most ∧ 1 ≤ most.count ∧
        ∀ n, r.limit n = min most.count (n - 1)) ∧
      ∃ rule : Rule, rule.draft = r ∧ ∀ n, rule.strategy.limit n = r.limit n) ∧
    ∀ c : Catalog, c.Assembled → ∀ s ∈ c.sets, ∀ r ∈ s.rules, r.draft.Constructed ∧
      Unicode.isBlank r.id = false ∧ (r.kind = .scopedDeletion →
        ∃ most, r.maxApplications = some most ∧ 1 ≤ most ∧
          ∀ n, r.strategy.limit n = min most (n - 1)) := by
  refine ⟨fun d => ⟨d.toDraft_eq, toRule_isOk_iff, fun _ => toRule_eq_error_iff,
    fun _ => constructed_of_toRule⟩, fun r hr => ⟨hr.sound.id, hr.sound.limit_eq, ?_⟩,
    fun c hc s hs r hr => ?_⟩
  · obtain ⟨rule, hrule⟩ := hr.sound.exists_rule
    exact ⟨rule, hrule, fun n => hrule ▸ (rule.limit_draft n).symm⟩
  · have hconstructed := hc.constructed hs hr
    exact ⟨hconstructed, Rule.sound_of_constructed hconstructed⟩

end Amend
