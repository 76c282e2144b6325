import Amend.Proofs.Catalog.Lookup

/-!
# The order of a catalog

The sets of a catalog stand in the order in which they were inserted, and there are no others: the
sets that were given (`Catalog.sets_of_ofRuleSets`), or those that the definition stands for
(`Catalog.sets_of_ofDefinition`).
-/

set_option autoImplicit false

namespace Amend

/-- The sets that the definition of a set stands for, one for each of its files. -/
def RuleSetDefinition.sets (s : RuleSetDefinition) : Except ConfigFault (List RuleSet) := do
  let rules ← s.rules.mapM RuleDefinition.toRule
  s.files.mapM fun file =>
    RuleSet.build s.name file.normalize rules (s.fields.map FieldSpecDefinition.toSpec)

/-- The sets that a definition stands for, in the order of declaration. -/
def CatalogDefinition.sets (d : CatalogDefinition) : Except ConfigFault (List RuleSet) :=
  (d.ruleSets.mapM RuleSetDefinition.sets).map List.flatten

/-- The sets of some rules for files. -/
def RuleSetDefinition.setsWith (s : RuleSetDefinition) (rules : List Rule) : List RuleSet :=
  s.files.map fun file => ⟨s.name, file.normalize, rules⟩

namespace RuleSetDefinition

theorem sets_eq_ok {s : RuleSetDefinition} {declared fields : List Rule} (h : s.Valid)
    (he : s.Expands declared fields) :
    s.sets = .ok (s.setsWith (RuleSet.arrange declared fields)) := by
  have hfiles : List.Forall₂ (fun file set => RuleSet.build s.name file declared
      (s.fields.map FieldSpecDefinition.toSpec) = .ok set) (s.files.map Path.normalize)
      (s.setsWith (RuleSet.arrange declared fields)) := by
    refine List.forall₂_map_left_iff.mpr (List.forall₂_map_right_iff.mpr ?_)
    refine List.forall₂_same.mpr fun file _ => ?_
    rw [RuleSet.build_of_expands he, h.firstRepeated_eq_none he]
  have hbuild := mapM_eq_ok hfiles
  rw [List.mapM_map] at hbuild
  unfold sets
  rw [mapM_eq_ok he.declared]
  exact hbuild

theorem mapM_sets_eq_ok {sets : List RuleSetDefinition} {blocks : List (List Rule)}
    (h : List.Forall₂ (fun s rules => ∃ declared fields, s.Expands declared fields ∧
      rules = RuleSet.arrange declared fields) sets blocks) (hvalid : ∀ s ∈ sets, s.Valid) :
    sets.mapM RuleSetDefinition.sets = .ok ((sets.zip blocks).map fun b => b.1.setsWith b.2) := by
  induction h with
  | nil => rfl
  | @cons s rules sets blocks hs _ ih =>
    obtain ⟨declared, fields, he, rfl⟩ := hs
    rw [List.mapM_cons, sets_eq_ok (hvalid s List.mem_cons_self) he,
      ih fun s hs => hvalid s (List.mem_cons_of_mem _ hs)]
    rfl

end RuleSetDefinition

namespace Catalog

variable {c c' : Catalog} {s : RuleSet} {sets : List RuleSet} {d : CatalogDefinition}

theorem sets_insert (h : c.insert s = .ok c') : c'.sets = c.sets ++ [s] := by
  unfold insert at h
  cases hget : c.get? s.file with
  | some other =>
    rw [hget] at h
    cases h
  | none =>
    rw [hget] at h
    cases h
    rfl

theorem sets_foldlM_insert (h : sets.foldlM insert c = .ok c') : c'.sets = c.sets ++ sets := by
  induction sets generalizing c with
  | nil =>
    cases h
    exact (List.append_nil _).symm
  | cons s sets ih =>
    rw [List.foldlM_cons] at h
    cases hinsert : c.insert s with
    | error fault =>
      rw [hinsert] at h
      cases h
    | ok after =>
      rw [hinsert] at h
      rw [ih h, sets_insert hinsert, List.append_assoc]
      rfl

theorem sets_of_ofRuleSets (h : ofRuleSets sets = .ok c) : c.sets = sets :=
  sets_foldlM_insert h

/-- Sets are accepted if no two of them are for one file. -/
theorem foldlM_insert_eq_ok
    (h : (c.sets ++ sets).Pairwise fun s s' => s.file.normalize ≠ s'.file.normalize) :
    sets.foldlM insert c = .ok { c with sets := c.sets ++ sets } := by
  induction sets generalizing c with
  | nil => simp [pure, Except.pure]
  | cons s sets ih =>
    have hfree : c.get? s.file = none := by
      refine List.find?_eq_none.mpr fun s' hs' hsame => ?_
      exact (List.pairwise_append.mp h).2.2 s' hs' s List.mem_cons_self (of_decide_eq_true hsame)
    rw [List.append_cons] at h
    have hrest := ih (c := { c with sets := c.sets ++ [s] }) h
    rw [List.foldlM_cons, insert, hfree, List.append_cons c.sets s sets]
    exact hrest

theorem ofRuleSets_eq_ok
    (h : sets.Pairwise fun s s' => s.file.normalize ≠ s'.file.normalize) :
    ofRuleSets sets = .ok ⟨sets, []⟩ :=
  foldlM_insert_eq_ok h

theorem sets_of_ofDefinition (h : ofDefinition d = .ok c) : d.sets = .ok c.sets := by
  obtain ⟨hvalid, hdescribes, -⟩ := ofDefinition_eq_ok h
  obtain ⟨blocks, hblocks, hsets⟩ := hdescribes.sets
  rw [CatalogDefinition.sets, RuleSetDefinition.mapM_sets_eq_ok hblocks hvalid.sets, hsets]
  rfl

end Catalog

end Amend
