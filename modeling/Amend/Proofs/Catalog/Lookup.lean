import Amend.Proofs.Catalog.Validity

/-!
# Looking up files in a catalog

Catalogs are built from definitions or from rule sets, one set after the other. Either way no file
is bound twice (`Built.nodup`), so every set of a catalog is found under its file
(`Built.get?_file`). In a catalog from a definition, sets of one name have one list of rules as long
as no two sets of the definition share a name (`ofDefinition_rules_eq`).
-/

set_option autoImplicit false

namespace Amend

namespace Catalog

/-- How a catalog comes to be. -/
inductive Built (c : Catalog) : Prop
  | ofDefinition {d : CatalogDefinition} : Catalog.ofDefinition d = .ok c → Built c
  | ofRuleSets {sets : List RuleSet} : Catalog.ofRuleSets sets = .ok c → Built c

variable {c c' : Catalog} {s s' : RuleSet} {sets : List RuleSet} {d : CatalogDefinition}

/-! ## Files are bound once -/

theorem normalize_notMem_of_get?_eq_none {file : Path} (h : c.get? file = none) :
    file.normalize ∉ c.bindings.map Prod.fst := by
  intro hmem
  obtain ⟨⟨_, name⟩, hbinding, rfl⟩ := List.mem_map.mp hmem
  obtain ⟨set, hset, heq⟩ := List.mem_map.mp hbinding
  have hno := List.find?_eq_none.mp h set hset
  exact hno (decide_eq_true (Prod.mk.inj heq).1)

theorem insert_eq_ok (h : c.insert s = .ok c') :
    s.file.normalize ∉ c.bindings.map Prod.fst ∧
      c'.bindings = c.bindings ++ [(s.file.normalize, s.name)] := by
  unfold insert at h
  cases hget : c.get? s.file with
  | some other =>
    rw [hget] at h
    cases h
  | none =>
    rw [hget] at h
    cases h
    exact ⟨normalize_notMem_of_get?_eq_none hget, by simp [bindings]⟩

theorem nodup_of_ofRuleSets (h : ofRuleSets sets = .ok c) :
    (c.bindings.map Prod.fst).Nodup := by
  unfold ofRuleSets at h
  induction sets using List.reverseRecOn generalizing c with
  | nil =>
    cases h
    exact .nil
  | append_singleton sets s ih =>
    rw [List.foldlM_append] at h
    cases hsets : sets.foldlM insert empty with
    | error fault =>
      rw [hsets] at h
      cases h
    | ok before =>
      simp only [hsets, bind, Except.bind, List.foldlM_cons, List.foldlM_nil] at h
      cases hinsert : before.insert s with
      | error fault =>
        rw [hinsert] at h
        cases h
      | ok after =>
        rw [hinsert] at h
        cases h
        obtain ⟨hfree, hbindings⟩ := insert_eq_ok hinsert
        rw [hbindings, List.map_append, List.map_singleton, ← List.concat_eq_append]
        exact (ih hsets).concat hfree

theorem ofDefinition_eq_ok (h : ofDefinition d = .ok c) :
    d.Valid ∧ d.Describes c ∧ c.bindings = d.ruleSets.flatMap RuleSetDefinition.bindings := by
  rcases d.valid_or_firstFault with hvalid | ⟨fault, hfault⟩
  · obtain ⟨c', hc', hrest⟩ := hvalid.ofDefinition_eq
    cases h.symm.trans hc'
    exact ⟨hvalid, hrest⟩
  · cases h.symm.trans hfault.ofDefinition_eq

theorem Built.nodup (h : c.Built) : (c.bindings.map Prod.fst).Nodup := by
  cases h with
  | ofDefinition h =>
    obtain ⟨hvalid, -, hbindings⟩ := ofDefinition_eq_ok h
    rw [hbindings, CatalogDefinition.map_fst_bindings]
    exact hvalid.files
  | ofRuleSets h => exact nodup_of_ofRuleSets h

/-- No two sets are for one file, however it is spelled. -/
theorem Built.eq_of_normalize_eq (h : c.Built) (hs : s ∈ c.sets) (hs' : s' ∈ c.sets)
    (heq : s.file.normalize = s'.file.normalize) : s = s' := by
  have hnodup := h.nodup
  rw [bindings, List.map_map] at hnodup
  exact List.inj_on_of_nodup_map hnodup hs hs' heq

theorem Built.get?_file (h : c.Built) (hs : s ∈ c.sets) : c.get? s.file = some s := by
  cases hget : c.get? s.file with
  | none =>
    have hno := List.find?_eq_none.mp hget s hs
    simp at hno
  | some s' =>
    have hkey : s'.file.normalize = s.file.normalize := by simpa using List.find?_some hget
    rw [h.eq_of_normalize_eq (List.mem_of_find?_eq_some hget) hs hkey]

/-! ## Sets of one name -/

/-- Every set comes from a definition of its name, with the rules that this one stands for. -/
theorem exists_definition (h : d.Describes c) (hs : s ∈ c.sets) :
    ∃ r ∈ d.ruleSets, r.name = s.name ∧ ∃ declared fields, r.Expands declared fields ∧
      s.rules = RuleSet.arrange declared fields := by
  obtain ⟨blocks, hblocks, hsets⟩ := h.sets
  rw [hsets] at hs
  obtain ⟨⟨r, rules⟩, hblock, hs⟩ := List.mem_flatMap.mp hs
  obtain ⟨file, -, rfl⟩ := List.mem_map.mp hs
  obtain ⟨declared, fields, he, hrules⟩ := (List.forall₂_iff_zip.mp hblocks).2 hblock
  exact ⟨r, (List.of_mem_zip hblock).1, rfl, declared, fields, he, hrules⟩

/-- Every file of a definition is bound to the rules that this one stands for. -/
theorem get?_of_expands (h : ofDefinition d = .ok c) {r : RuleSetDefinition} (hr : r ∈ d.ruleSets)
    {declared fields : List Rule} (he : r.Expands declared fields) {file : Path}
    (hfile : file ∈ r.files) :
    c.get? file = some ⟨r.name, file.normalize, RuleSet.arrange declared fields⟩ := by
  obtain ⟨blocks, hblocks, hsets⟩ := (ofDefinition_eq_ok h).2.1.sets
  obtain ⟨rules, hblock⟩ : ∃ rules, (r, rules) ∈ d.ruleSets.zip blocks := by
    obtain ⟨i, hi, rfl⟩ := List.mem_iff_getElem.mp hr
    have hi' : i < blocks.length := hblocks.length_eq ▸ hi
    refine ⟨blocks[i], ?_⟩
    rw [← List.getElem_zip (h := by rw [List.length_zip]; omega)]
    exact List.getElem_mem _
  obtain ⟨declared', fields', he', rfl⟩ := (List.forall₂_iff_zip.mp hblocks).2 hblock
  obtain ⟨rfl, rfl⟩ := he.unique he'
  have hmem : ⟨r.name, file.normalize, RuleSet.arrange declared fields⟩ ∈ c.sets := by
    rw [hsets]
    exact List.mem_flatMap.mpr ⟨_, hblock, List.mem_map.mpr ⟨file, hfile, rfl⟩⟩
  have hget := (Built.ofDefinition h).get?_file hmem
  unfold get? at hget ⊢
  rwa [Path.normalize_normalize] at hget

/-- If no two sets of the definition share a name, sets of one name come from one definition and
have its rules. -/
theorem ofDefinition_rules_eq (h : ofDefinition d = .ok c)
    (hnames : (d.ruleSets.map RuleSetDefinition.name).Nodup) (hs : s ∈ c.sets) (hs' : s' ∈ c.sets)
    (heq : s.name = s'.name) : s.rules = s'.rules := by
  have hdescribes := (ofDefinition_eq_ok h).2.1
  obtain ⟨r, hr, hname, declared, fields, he, hrules⟩ := exists_definition hdescribes hs
  obtain ⟨r', hr', hname', declared', fields', he', hrules'⟩ := exists_definition hdescribes hs'
  obtain rfl : r = r' :=
    List.inj_on_of_nodup_map hnames hr hr' (hname.trans (heq.trans hname'.symm))
  obtain ⟨rfl, rfl⟩ := he.unique he'
  rw [hrules, hrules']

end Catalog

end Amend
