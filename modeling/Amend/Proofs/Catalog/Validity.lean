import Amend.Catalog.Basic
import Amend.Proofs.FirstFault
import Amend.Proofs.Rule.Building
import Amend.Proofs.Spelling

/-!
# Valid catalog definitions

A definition is accepted exactly if it is valid, and then each of its files is bound to the rules of
its set (`ofDefinition_accepts_iff_valid`). Otherwise the error is the first thing that is wrong
with it in the order of declaration (`FirstFault`).
-/

set_option autoImplicit false

namespace Amend

/-! ## What is to be met -/

namespace RuleSetDefinition

/-- What the definition of a set stands for: the declared rules, each of them well formed, and the
rules of the field specification, if there is one. -/
structure Expands (s : RuleSetDefinition) (declared fields : List Rule) : Prop where
  declared : List.Forall₂ (fun d rule => d.toRule = .ok rule) s.rules declared
  fields : (s.fields = none ∧ fields = []) ∨
    ∃ d, s.fields = some d ∧ d.toSpec.expand = .ok fields

/-- What the definition of a set is to meet by itself. -/
structure Valid (s : RuleSetDefinition) : Prop where
  files : s.files ≠ []
  rules : ∀ d ∈ s.rules, ∃ rule, d.toRule = .ok rule
  fields : ∀ d, s.fields = some d → ∃ rules, d.toSpec.expand = .ok rules
  ids : ∀ declared fields, s.Expands declared fields → ((declared ++ fields).map Rule.id).Nodup

/-- The files of a set by their normal forms, each with the name of the set. -/
def bindings (s : RuleSetDefinition) : List (Path × String) :=
  s.files.map fun file => (file.normalize, s.name)

/-- The first thing that is wrong with the definition of a set, where others have bound files
before. -/
inductive FirstFault (s : RuleSetDefinition) (bound : List (Path × String)) : ConfigFault → Prop
  | noFiles : s.files = [] → FirstFault s bound (.noFiles s.name)
  | rule {before after : List RuleDefinition} {d : RuleDefinition} {fault : ConfigFault} :
      s.files ≠ [] → s.rules = before ++ d :: after → (∀ d ∈ before, ∃ rule, d.toRule = .ok rule) →
      d.toRule = .error fault → FirstFault s bound fault
  | fields {d : FieldSpecDefinition} {fault : ConfigFault} : s.files ≠ [] →
      (∀ d ∈ s.rules, ∃ rule, d.toRule = .ok rule) → s.fields = some d →
      d.toSpec.expand = .error fault → FirstFault s bound fault
  | repeatedId {file : Path} {files : List Path} {declared fields : List Rule}
      {before after : List String} {id : String} : s.files = file :: files →
      s.Expands declared fields →
      (RuleSet.arrange declared fields).map Rule.id = before ++ id :: after → before.Nodup →
      id ∈ before → FirstFault s bound (.repeatedRuleId s.name file.normalize id)
  | boundTwice {before after : List Path} {file : Path} {other : String} : s.Valid →
      s.files = before ++ file :: after →
      (bound.map Prod.fst ++ before.map Path.normalize).Nodup →
      (file.normalize, other) ∈ bound ++ before.map (·.normalize, s.name) →
      FirstFault s bound (.boundTwice file.normalize other s.name)

end RuleSetDefinition

namespace CatalogDefinition

/-- What the definition of a catalog is to meet: its sets are valid, and no two of its files have
one normal form. -/
structure Valid (d : CatalogDefinition) : Prop where
  sets : ∀ s ∈ d.ruleSets, s.Valid
  files : ((d.ruleSets.flatMap RuleSetDefinition.files).map Path.normalize).Nodup

/-- The first thing that is wrong with the definition of a catalog: up to there it is valid. -/
inductive FirstFault (d : CatalogDefinition) (fault : ConfigFault) : Prop
  | intro {before after : List RuleSetDefinition} {s : RuleSetDefinition} :
      d.ruleSets = before ++ s :: after → Valid ⟨before⟩ →
      s.FirstFault (before.flatMap RuleSetDefinition.bindings) fault → FirstFault d fault

/-- What a definition stands for: in the order of declaration, each file of a set is bound to the
rules of the set, and the latest description of a name is the one that holds. -/
structure Describes (d : CatalogDefinition) (c : Catalog) : Prop where
  sets : ∃ blocks : List (List Rule),
    List.Forall₂ (fun s rules => ∃ declared fields, s.Expands declared fields ∧
      rules = RuleSet.arrange declared fields) d.ruleSets blocks ∧
    c.sets = (d.ruleSets.zip blocks).flatMap fun block =>
      block.1.files.map fun file => ⟨block.1.name, file.normalize, block.2⟩
  descriptions : c.descriptions =
    (d.ruleSets.filterMap fun s => s.description.map (s.name, ·)).reverse

end CatalogDefinition

/-! ## The rules of a set -/

theorem RuleSetDefinition.Expands.expanded {s : RuleSetDefinition} {declared fields : List Rule}
    (h : s.Expands declared fields) :
    RuleSet.expanded (s.fields.map FieldSpecDefinition.toSpec) = .ok fields := by
  rcases h.fields with ⟨hnone, rfl⟩ | ⟨d, hd, hexpand⟩
  · rw [hnone]
    rfl
  · rw [hd]
    exact hexpand

/-- The set of the rules that a definition stands for, unless an id is repeated in it. -/
theorem RuleSet.build_of_expands {s : RuleSetDefinition} {declared fields : List Rule}
    (h : s.Expands declared fields) (file : Path) :
    build s.name file declared (s.fields.map FieldSpecDefinition.toSpec) =
      match firstRepeated [] ((arrange declared fields).map Rule.id) with
      | some id => .error (.repeatedRuleId s.name file id)
      | none => .ok ⟨s.name, file, arrange declared fields⟩ :=
  build_of_expanded h.expanded s.name file declared

/-! ## Files bound one after the other -/

namespace Catalog

variable {c : Catalog} {s : RuleSetDefinition} {declared fields : List Rule}
  {bound : List (Path × String)} {file : Path} {fault : ConfigFault}

/-- The files of the catalog by their normal forms, each with the name of its set. -/
def bindings (c : Catalog) : List (Path × String) :=
  c.sets.map fun set => (set.file.normalize, set.name)

theorem get?_eq_none (h : file.normalize ∉ c.bindings.map Prod.fst) : c.get? file = none := by
  refine List.find?_eq_none.mpr fun set hset => ?_
  simp only [decide_eq_true_eq]
  intro heq
  refine h (List.mem_map.mpr ⟨_, List.mem_map.mpr ⟨set, hset, rfl⟩, heq⟩)

theorem exists_get?_eq_some {other : String} (hnodup : (c.bindings.map Prod.fst).Nodup)
    (h : (file.normalize, other) ∈ c.bindings) :
    ∃ set, c.get? file = some set ∧ set.name = other := by
  cases hget : c.get? file with
  | none =>
    obtain ⟨set, hset, heq⟩ := List.mem_map.mp h
    have hno := List.find?_eq_none.mp hget set hset
    simp only [decide_eq_true_eq] at hno
    exact absurd (Prod.mk.inj heq).1 hno
  | some set =>
    have hkey : set.file.normalize = file.normalize := by simpa using List.find?_some hget
    have hmem : (file.normalize, set.name) ∈ c.bindings :=
      List.mem_map.mpr ⟨set, List.mem_of_find?_eq_some hget, by rw [hkey]⟩
    exact ⟨set, rfl, (Prod.mk.inj (List.inj_on_of_nodup_map hnodup hmem h rfl)).2⟩

/-- The catalog with one more file of a set. -/
def bindFile (s : RuleSetDefinition) (declared : List Rule) (c : Catalog) (file : Path) :
    Except ConfigFault Catalog := do
  c.insert (← RuleSet.build s.name file.normalize declared
    (s.fields.map FieldSpecDefinition.toSpec))

/-- The catalog with files bound to some rules. -/
def bindAll (c : Catalog) (name : String) (rules : List Rule) (files : List Path) : Catalog :=
  { c with sets := c.sets ++ files.map fun file => ⟨name, file.normalize, rules⟩ }

theorem bindings_bindAll (c : Catalog) (name : String) (rules : List Rule) (files : List Path) :
    (c.bindAll name rules files).bindings =
      c.bindings ++ files.map fun file => (file.normalize, name) := by
  simp [bindings, bindAll, Function.comp_def]

theorem bindAll_cons (c : Catalog) (name : String) (rules : List Rule) (file : Path)
    (files : List Path) :
    c.bindAll name rules (file :: files) =
      (c.bindAll name rules [file]).bindAll name rules files := by
  simp [bindAll]

theorem bindFile_eq_error_of_fields {d : FieldSpecDefinition} (hd : s.fields = some d)
    (h : d.toSpec.expand = .error fault) : bindFile s declared c file = .error fault := by
  unfold bindFile RuleSet.build
  simp only [hd, Option.map_some, h]
  rfl

theorem bindFile_eq_error_of_ids {id : String} (h : s.Expands declared fields)
    (hid : RuleSet.firstRepeated [] ((RuleSet.arrange declared fields).map Rule.id) = some id) :
    bindFile s declared c file = .error (.repeatedRuleId s.name file.normalize id) := by
  unfold bindFile
  rw [RuleSet.build_of_expands h, hid]
  rfl

section
variable (h : s.Expands declared fields)
  (hids : RuleSet.firstRepeated [] ((RuleSet.arrange declared fields).map Rule.id) = none)

include h hids

theorem bindFile_eq_insert : bindFile s declared c file =
    c.insert ⟨s.name, file.normalize, RuleSet.arrange declared fields⟩ := by
  unfold bindFile
  rw [RuleSet.build_of_expands h, hids]
  rfl

theorem bindFile_eq_ok (hfree : file.normalize ∉ c.bindings.map Prod.fst) :
    bindFile s declared c file =
      .ok (c.bindAll s.name (RuleSet.arrange declared fields) [file]) := by
  rw [← Path.normalize_normalize] at hfree
  rw [bindFile_eq_insert h hids, insert, get?_eq_none hfree]
  rfl

theorem bindFile_eq_error {other : String} (hnodup : (c.bindings.map Prod.fst).Nodup)
    (hbound : (file.normalize, other) ∈ c.bindings) :
    bindFile s declared c file = .error (.boundTwice file.normalize other s.name) := by
  rw [← Path.normalize_normalize] at hbound
  obtain ⟨set, hset, hname⟩ := exists_get?_eq_some hnodup hbound
  rw [bindFile_eq_insert h hids, insert, hset]
  simp only [hname, Path.normalize_normalize]

theorem bindFiles_eq_ok {files : List Path}
    (hnodup : (c.bindings.map Prod.fst ++ files.map Path.normalize).Nodup) :
    files.foldlM (bindFile s declared) c =
      .ok (c.bindAll s.name (RuleSet.arrange declared fields) files) := by
  induction files generalizing c with
  | nil => simp [bindAll, pure, Except.pure]
  | cons file files ih =>
    have hfree : file.normalize ∉ c.bindings.map Prod.fst := fun hmem =>
      (List.nodup_append.mp hnodup).2.2 _ hmem _ List.mem_cons_self rfl
    rw [List.foldlM_cons, bindFile_eq_ok h hids hfree, bindAll_cons c s.name _ file files]
    refine ih ?_
    rw [bindings_bindAll]
    simpa using hnodup

theorem bindFiles_eq_error {before after : List Path} {other : String}
    (hnodup : (c.bindings.map Prod.fst ++ before.map Path.normalize).Nodup)
    (hbound : (file.normalize, other) ∈ c.bindings ++ before.map (·.normalize, s.name)) :
    (before ++ file :: after).foldlM (bindFile s declared) c =
      .error (.boundTwice file.normalize other s.name) := by
  have hafter := bindings_bindAll c s.name (RuleSet.arrange declared fields) before
  have hnodup' : ((c.bindAll s.name (RuleSet.arrange declared fields) before).bindings.map
      Prod.fst).Nodup := by
    rw [hafter]
    simpa [Function.comp_def] using hnodup
  rw [List.foldlM_append, bindFiles_eq_ok h hids hnodup]
  simp only [bind, Except.bind, List.foldlM_cons,
    bindFile_eq_error h hids hnodup' (hafter ▸ hbound)]

end

/-! ## Definitions of sets -/

theorem insertDefinition_eq (hfiles : s.files ≠ [])
    (h : s.rules.mapM RuleDefinition.toRule = .ok declared) :
    c.insertDefinition s =
      (s.files.foldlM (bindFile s declared) c).map (·.describe s.name s.description) := by
  unfold insertDefinition
  rw [if_neg (by simpa using hfiles), h]
  rfl

theorem insertDefinition_eq_error (hfiles : s.files ≠ [])
    (h : s.rules.mapM RuleDefinition.toRule = .error fault) :
    c.insertDefinition s = .error fault := by
  unfold insertDefinition
  rw [if_neg (by simpa using hfiles), h]
  rfl

end Catalog

namespace RuleSetDefinition

variable {s : RuleSetDefinition} {bound : List (Path × String)} {declared fields : List Rule}
  {fault : ConfigFault}

theorem exists_expands (hrules : ∀ d ∈ s.rules, ∃ rule, d.toRule = .ok rule)
    (hfields : ∀ d, s.fields = some d → ∃ rules, d.toSpec.expand = .ok rules) :
    ∃ declared fields, s.Expands declared fields := by
  obtain ⟨declared, hdeclared⟩ := exists_forall₂_of_ok hrules
  cases hd : s.fields with
  | none => exact ⟨declared, [], hdeclared, .inl ⟨hd, rfl⟩⟩
  | some d =>
    obtain ⟨fields, hexpand⟩ := hfields d hd
    exact ⟨declared, fields, hdeclared, .inr ⟨d, hd, hexpand⟩⟩

theorem Valid.firstRepeated_eq_none (h : s.Valid) (he : s.Expands declared fields) :
    RuleSet.firstRepeated [] ((RuleSet.arrange declared fields).map Rule.id) = none := by
  refine RuleSet.firstRepeated_eq_none_iff.mpr ⟨?_, fun _ _ => List.not_mem_nil⟩
  exact (((RuleSet.arrange_perm declared fields).map Rule.id).nodup_iff).mpr (h.ids _ _ he)

theorem Expands.unique {declared' fields' : List Rule} (h : s.Expands declared fields)
    (h' : s.Expands declared' fields') : declared = declared' ∧ fields = fields' := by
  constructor
  · have hd := mapM_eq_ok h.declared
    rw [mapM_eq_ok h'.declared] at hd
    exact (Except.ok.inj hd).symm
  · rcases h.fields with ⟨hnone, rfl⟩ | ⟨d, hd, hexpand⟩ <;>
      rcases h'.fields with ⟨hnone', rfl⟩ | ⟨d', hd', hexpand'⟩
    · rfl
    · rw [hnone] at hd'
      cases hd'
    · rw [hnone'] at hd
      cases hd
    · cases hd.symm.trans hd'
      exact Except.ok.inj (hexpand.symm.trans hexpand')

/-- A set whose rules and fields are in order is valid unless an id is repeated. -/
theorem Expands.valid (h : s.Expands declared fields) (hfiles : s.files ≠ [])
    (hrules : ∀ d ∈ s.rules, ∃ rule, d.toRule = .ok rule)
    (hfields : ∀ d, s.fields = some d → ∃ rules, d.toSpec.expand = .ok rules)
    (hids : ((RuleSet.arrange declared fields).map Rule.id).Nodup) : s.Valid := by
  refine ⟨hfiles, hrules, hfields, fun declared' fields' h' => ?_⟩
  obtain ⟨rfl, rfl⟩ := h.unique h'
  exact (((RuleSet.arrange_perm declared fields).map Rule.id).nodup_iff).mp hids

theorem valid_or_firstFault (s : RuleSetDefinition) (bound : List (Path × String)) :
    s.Valid ∨ ∃ fault, s.FirstFault bound fault := by
  by_cases hfiles : s.files = []
  · exact .inr ⟨_, .noFiles hfiles⟩
  rcases forall_ok_or_exists_error RuleDefinition.toRule s.rules with
    hrules | ⟨before, d, after, fault, hsplit, hbefore, hd⟩
  swap
  · exact .inr ⟨fault, .rule hfiles hsplit hbefore hd⟩
  by_cases hfields : ∀ d, s.fields = some d → ∃ rules, d.toSpec.expand = .ok rules
  swap
  · simp only [not_forall, not_exists] at hfields
    obtain ⟨d, hd, hno⟩ := hfields
    cases hexpand : d.toSpec.expand with
    | ok rules => exact absurd hexpand (hno rules)
    | error fault => exact .inr ⟨fault, .fields hfiles hrules hd hexpand⟩
  obtain ⟨declared, fields, h⟩ := exists_expands hrules hfields
  rcases nodup_or_repeated .nil ((RuleSet.arrange declared fields).map Rule.id) with
    hids | ⟨before, id, after, hsplit, hbefore, hid⟩
  · exact .inl (h.valid hfiles hrules hfields hids)
  · obtain ⟨file, files, hfile⟩ := List.exists_cons_of_ne_nil hfiles
    exact .inr ⟨_, .repeatedId hfile h hsplit hbefore hid⟩

/-- The files of a valid set are free, or the first that is not is at fault. -/
theorem Valid.free_or_firstFault (h : s.Valid) (hbound : (bound.map Prod.fst).Nodup) :
    (bound.map Prod.fst ++ s.files.map Path.normalize).Nodup ∨
      ∃ fault, s.FirstFault bound fault := by
  rcases nodup_or_repeated hbound (s.files.map Path.normalize) with
    hfree | ⟨before, normal, after, hsplit, hbefore, hmem⟩
  · exact .inl hfree
  obtain ⟨before, rest, hfiles, rfl, hrest⟩ := List.map_eq_append_iff.mp hsplit
  obtain ⟨file, after, rfl, rfl, -⟩ := List.map_eq_cons_iff.mp hrest
  have hother : ∃ other, (file.normalize, other) ∈ bound ++ before.map (·.normalize, s.name) := by
    rcases List.mem_append.mp hmem with hmem | hmem
    · obtain ⟨⟨_, other⟩, hmem, rfl⟩ := List.mem_map.mp hmem
      exact ⟨other, List.mem_append_left _ hmem⟩
    · obtain ⟨file', hmem, heq⟩ := List.mem_map.mp hmem
      exact ⟨s.name, List.mem_append_right _ (List.mem_map.mpr ⟨file', hmem, by rw [heq]⟩)⟩
  obtain ⟨other, hother⟩ := hother
  exact .inr ⟨_, .boundTwice h hfiles hbefore hother⟩

theorem Valid.insertDefinition_eq (h : s.Valid) {c : Catalog}
    (hfree : (c.bindings.map Prod.fst ++ s.files.map Path.normalize).Nodup) :
    ∃ declared fields, s.Expands declared fields ∧ c.insertDefinition s =
      .ok ((c.bindAll s.name (RuleSet.arrange declared fields) s.files).describe s.name
        s.description) := by
  obtain ⟨declared, fields, he⟩ := exists_expands h.rules h.fields
  refine ⟨declared, fields, he, ?_⟩
  rw [Catalog.insertDefinition_eq h.files (mapM_eq_ok he.declared),
    Catalog.bindFiles_eq_ok he (h.firstRepeated_eq_none he) hfree]
  rfl

/-- A set is refused for the first thing that is wrong with it. -/
theorem FirstFault.insertDefinition_eq {c : Catalog} (h : s.FirstFault c.bindings fault) :
    c.insertDefinition s = .error fault := by
  cases h with
  | noFiles hfiles =>
    unfold Catalog.insertDefinition
    rw [if_pos (by simpa using hfiles)]
    rfl
  | rule hfiles hsplit hbefore hd =>
    refine Catalog.insertDefinition_eq_error hfiles ?_
    rw [hsplit]
    exact mapM_eq_error hbefore hd
  | fields hfiles hrules hd hexpand =>
    obtain ⟨declared, hdeclared⟩ := exists_forall₂_of_ok hrules
    obtain ⟨file, files, hfile⟩ := List.exists_cons_of_ne_nil hfiles
    rw [Catalog.insertDefinition_eq hfiles (mapM_eq_ok hdeclared), hfile, List.foldlM_cons,
      Catalog.bindFile_eq_error_of_fields hd hexpand]
    rfl
  | @repeatedId file files declared fields before after id hfile he hsplit hbefore hid =>
    have hrepeated : RuleSet.firstRepeated [] ((RuleSet.arrange declared fields).map Rule.id) =
        some id := by
      rw [hsplit]
      exact RuleSet.firstRepeated_eq_some hbefore (fun _ _ => List.not_mem_nil) (.inr hid)
    rw [Catalog.insertDefinition_eq (by simp [hfile]) (mapM_eq_ok he.declared), hfile,
      List.foldlM_cons, Catalog.bindFile_eq_error_of_ids he hrepeated]
    rfl
  | boundTwice hvalid hfiles hbefore hother =>
    obtain ⟨declared, fields, he⟩ := exists_expands hvalid.rules hvalid.fields
    rw [Catalog.insertDefinition_eq hvalid.files (mapM_eq_ok he.declared), hfiles,
      Catalog.bindFiles_eq_error he (hvalid.firstRepeated_eq_none he) hbefore hother]
    rfl

end RuleSetDefinition

/-! ## Definitions of catalogs -/

namespace CatalogDefinition

variable {d : CatalogDefinition} {before after sets : List RuleSetDefinition}
  {s : RuleSetDefinition} {c : Catalog} {fault : ConfigFault}

theorem map_fst_bindings (sets : List RuleSetDefinition) :
    (sets.flatMap RuleSetDefinition.bindings).map Prod.fst =
      (sets.flatMap RuleSetDefinition.files).map Path.normalize := by
  simp [List.map_flatMap, RuleSetDefinition.bindings, Function.comp_def]

theorem valid_concat : Valid ⟨sets ++ [s]⟩ ↔ Valid ⟨sets⟩ ∧ s.Valid ∧
    ((sets.flatMap RuleSetDefinition.bindings).map Prod.fst ++
      s.files.map Path.normalize).Nodup := by
  rw [map_fst_bindings]
  constructor
  · rintro ⟨hsets, hfiles⟩
    simp only [List.flatMap_append, List.map_append, List.flatMap_cons, List.flatMap_nil,
      List.append_nil] at hfiles
    exact ⟨⟨fun s' hs' => hsets s' (List.mem_append_left _ hs'), (List.nodup_append.mp hfiles).1⟩,
      hsets s (by simp), hfiles⟩
  · rintro ⟨⟨hsets, -⟩, hs, hfiles⟩
    refine ⟨fun s' hs' => ?_, by simpa using hfiles⟩
    rcases List.mem_append.mp hs' with hs' | hs'
    · exact hsets s' hs'
    · rwa [List.mem_singleton.mp hs']

theorem bindings_describe (c : Catalog) (name : String) (text : Option String) :
    (c.describe name text).bindings = c.bindings := by
  cases text <;> rfl

/-- One more set is put after the others. -/
theorem Describes.concat (h : Describes ⟨sets⟩ c) {declared fields : List Rule}
    (he : s.Expands declared fields) :
    Describes ⟨sets ++ [s]⟩ ((c.bindAll s.name (RuleSet.arrange declared fields) s.files).describe
      s.name s.description) := by
  obtain ⟨blocks, hblocks, hsets⟩ := h.sets
  refine ⟨⟨blocks ++ [RuleSet.arrange declared fields], ?_, ?_⟩, ?_⟩
  · exact List.rel_append hblocks (.cons ⟨declared, fields, he, rfl⟩ .nil)
  · have hlength : sets.length = blocks.length := hblocks.length_eq
    have hdescribe : ∀ (c : Catalog) text, (c.describe s.name text).sets = c.sets := by
      rintro c (_ | text) <;> rfl
    simp only [hdescribe, Catalog.bindAll, hsets, List.zip_append hlength, List.flatMap_append]
    simp
  · have hsets' := h.descriptions
    simp only [List.filterMap_append, List.reverse_append]
    cases hdescription : s.description with
    | none => simp [Catalog.describe, Catalog.bindAll, hsets', hdescription]
    | some text => simp [Catalog.describe, Catalog.bindAll, hsets', hdescription]

/-- A valid definition is accepted, and the catalog is what it describes. -/
theorem Valid.ofDefinition_eq (h : d.Valid) : ∃ c, Catalog.ofDefinition d = .ok c ∧
    d.Describes c ∧ c.bindings = d.ruleSets.flatMap RuleSetDefinition.bindings := by
  obtain ⟨sets⟩ := d
  unfold Catalog.ofDefinition
  induction sets using List.reverseRecOn with
  | nil => exact ⟨Catalog.empty, rfl, ⟨⟨[], .nil, rfl⟩, rfl⟩, rfl⟩
  | append_singleton sets s ih =>
    obtain ⟨hsets, hs, hfree⟩ := valid_concat.mp h
    obtain ⟨c, hc, hdescribes, hbindings⟩ := ih hsets
    obtain ⟨declared, fields, he, hinsert⟩ := hs.insertDefinition_eq (c := c)
      (by rwa [hbindings])
    refine ⟨_, ?_, hdescribes.concat he, ?_⟩
    · dsimp only at hc ⊢
      rw [List.foldlM_append, hc]
      simp only [bind, Except.bind, List.foldlM_cons, List.foldlM_nil, hinsert]
      rfl
    · rw [bindings_describe, Catalog.bindings_bindAll, hbindings]
      simp [RuleSetDefinition.bindings]

/-- A definition is refused for the first thing that is wrong with it. -/
theorem FirstFault.ofDefinition_eq (h : d.FirstFault fault) :
    Catalog.ofDefinition d = .error fault := by
  obtain ⟨hsplit, hvalid, hfault⟩ := h
  obtain ⟨c, hc, -, hbindings⟩ := hvalid.ofDefinition_eq
  rw [← hbindings] at hfault
  unfold Catalog.ofDefinition at hc ⊢
  dsimp only at hc
  rw [hsplit, List.foldlM_append, hc]
  simp only [bind, Except.bind, List.foldlM_cons, hfault.insertDefinition_eq]

/-- A definition is valid, or there is a first thing that is wrong with it. -/
theorem valid_or_firstFault (d : CatalogDefinition) : d.Valid ∨ ∃ fault, d.FirstFault fault := by
  obtain ⟨sets⟩ := d
  induction sets using List.reverseRecOn with
  | nil => exact .inl ⟨nofun, .nil⟩
  | append_singleton sets s ih =>
    rcases ih with hsets | ⟨fault, @⟨before, after, s', hsplit, hvalid, hfault⟩⟩
    · have hbound : ((sets.flatMap RuleSetDefinition.bindings).map Prod.fst).Nodup := by
        rw [map_fst_bindings]
        exact hsets.files
      rcases s.valid_or_firstFault (sets.flatMap RuleSetDefinition.bindings) with
        hs | ⟨fault, hfault⟩
      · rcases hs.free_or_firstFault hbound with hfree | ⟨fault, hfault⟩
        · exact .inl (valid_concat.mpr ⟨hsets, hs, hfree⟩)
        · exact .inr ⟨fault, rfl, hsets, hfault⟩
      · exact .inr ⟨fault, rfl, hsets, hfault⟩
    · dsimp only at hsplit
      have hsplit' : sets ++ [s] = before ++ s' :: (after ++ [s]) := by simp [hsplit]
      exact .inr ⟨fault, hsplit', hvalid, hfault⟩

/-- A definition is accepted exactly if it is valid, and is then expanded as it stands. Otherwise
it is refused for the first thing that is wrong with it. -/
theorem ofDefinition_accepts_iff_valid (d : CatalogDefinition) :
    ((∃ c, Catalog.ofDefinition d = .ok c) ↔ d.Valid) ∧
    (∀ c, Catalog.ofDefinition d = .ok c → d.Describes c) ∧
    ∀ fault, Catalog.ofDefinition d = .error fault ↔ d.FirstFault fault := by
  rcases d.valid_or_firstFault with hvalid | ⟨fault, hfault⟩
  · obtain ⟨c, hc, hdescribes, -⟩ := hvalid.ofDefinition_eq
    rw [hc]
    refine ⟨⟨fun _ => hvalid, fun _ => ⟨c, rfl⟩⟩, fun c' hc' => ?_, fun fault => ⟨nofun, ?_⟩⟩
    · exact Except.ok.inj hc' ▸ hdescribes
    · intro hfault
      rw [hfault.ofDefinition_eq] at hc
      cases hc
  · have herror := hfault.ofDefinition_eq
    rw [herror]
    refine ⟨⟨nofun, fun hvalid => ?_⟩, nofun, fun fault' => ⟨fun h => ?_, fun h => ?_⟩⟩
    · obtain ⟨c, hc, -⟩ := hvalid.ofDefinition_eq
      rw [herror] at hc
      cases hc
    · exact Except.error.inj h ▸ hfault
    · rw [← herror, h.ofDefinition_eq]

end CatalogDefinition

end Amend
