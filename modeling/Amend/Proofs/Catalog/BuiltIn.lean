import Amend.Catalog.BuiltIn
import Amend.Proofs.Catalog.Lookup
import Amend.Proofs.Rule.Arrangement
import Amend.Proofs.Rule.Draft
import Amend.Proofs.Rule.Replacing

/-!
# The built-in catalog is valid

The rules of the built-in sets are well formed, the programs for the fields of a row are not too
large, no id is repeated in a set, and no file is bound twice (`BuiltIn.valid_definition`). So there
is a built-in catalog, in which each file of a set is bound to its rules
(`BuiltIn.exists_get?_eq_some`).
-/

set_option autoImplicit false

namespace Amend

theorem RuleDefinition.id_of_toRule {d : RuleDefinition} {rule : Rule} (h : d.toRule = .ok rule) :
    rule.id = d.id := by
  unfold toRule at h
  dsimp only at h
  split at h
  · obtain ⟨pattern, -, h⟩ := exists_of_bind_eq_ok h
    obtain ⟨-, -, h⟩ := exists_of_bind_eq_ok h
    obtain ⟨most, -, h⟩ := exists_of_bind_eq_ok h
    cases h
    rfl
  · obtain ⟨pattern, -, h⟩ := exists_of_bind_eq_ok h
    obtain ⟨template, -, h⟩ := exists_of_bind_eq_ok h
    obtain ⟨-, -, h⟩ := exists_of_bind_eq_ok h
    obtain ⟨most, -, h⟩ := exists_of_bind_eq_ok h
    cases h
    rfl
  · obtain ⟨n, -, h⟩ := exists_of_bind_eq_ok h
    obtain ⟨pattern, -, h⟩ := exists_of_bind_eq_ok h
    obtain ⟨-, -, h⟩ := exists_of_bind_eq_ok h
    obtain ⟨most, -, h⟩ := exists_of_bind_eq_ok h
    cases h
    rfl
  · cases h

namespace RuleSetDefinition

variable {s : RuleSetDefinition} {declared fields : List Rule}

/-- The ids of the rules that are declared and of those for fields. -/
def ids (s : RuleSetDefinition) : List String :=
  s.rules.map RuleDefinition.id ++
    s.fields.elim [] fun d => d.toSpec.sortedNames.map ("field-access:" ++ ·)

theorem Expands.map_id (h : s.Expands declared fields) :
    (declared ++ fields).map Rule.id = s.ids := by
  have hdeclared : declared.map Rule.id = s.rules.map RuleDefinition.id := by
    refine List.forall₂_eq_eq_eq ▸ List.forall₂_map_left_iff.mpr (List.forall₂_map_right_iff.mpr ?_)
    exact h.declared.flip.imp fun rule d hd => RuleDefinition.id_of_toRule hd
  rw [List.map_append, ids, hdeclared]
  congr 1
  rcases h.fields with ⟨hnone, rfl⟩ | ⟨d, hd, hexpand⟩
  · rw [hnone]
    rfl
  · rw [hd]
    refine List.forall₂_eq_eq_eq ▸ List.forall₂_map_left_iff.mpr (List.forall₂_map_right_iff.mpr ?_)
    exact (FieldSpec.expand_forall₂_single hexpand).flip.imp fun rule n hn => hn.1

/-- A set with distinct ids is valid as soon as it has files, and its rules and fields are in
order. -/
theorem valid_of_nodup_ids (hfiles : s.files ≠ [])
    (hrules : (s.rules.all fun d => d.toRule.toOption.isSome) = true)
    (hfields : ∀ d, s.fields = some d → ∃ rules, d.toSpec.expand = .ok rules)
    (hids : s.ids.Nodup) : s.Valid := by
  refine ⟨hfiles, fun d hd => ?_, hfields, fun declared fields he => he.map_id ▸ hids⟩
  have hsome := List.all_eq_true.mp hrules d hd
  cases hrule : d.toRule with
  | ok rule => exact ⟨rule, rfl⟩
  | error fault =>
    rw [hrule] at hsome
    cases hsome

end RuleSetDefinition

namespace BuiltIn

/-! ## The rules that are defined -/

section
variable {id pattern replacement template text : String} {description : Option String} {p : Pattern}

theorem compile_eq_ok {regex : Regex} {names : List (String × Nat)} (hne : pattern ≠ "")
    (hread : Pattern.read pattern.toList = .ok (regex, names)) :
    compile pattern = .ok { source := pattern, regex, names } := by
  have hempty : pattern.isEmpty = false := by
    rw [← Bool.not_eq_true, String.isEmpty_iff]
    exact hne
  rw [compile, hempty, if_neg Bool.false_ne_true, Pattern.ofString?, hread]
  rfl

/-- A definition with a replacement text and no bound. -/
theorem toRule_replacing (hcompile : compile pattern = .ok p) (hid : Unicode.isBlank id = false) :
    (replacing id pattern replacement description).toRule =
      .ok ⟨id, description, p, .substitution replacement none⟩ := by
  let d := replacing id pattern replacement description
  have hsource : compile d.patternSource = .ok p := hcompile
  have hreplace : d.replace = some replacement := rfl
  have hmax : d.maxApplications ≠ some 0 := by simp [d, replacing]
  obtain ⟨most, hmost, hrule⟩ :=
    RuleDefinition.toRule_of_replace hsource hreplace rfl rfl hid hmax
  obtain rfl := Option.map_eq_none_iff.mp hmost
  exact hrule

/-- A definition with a plain text and no bound. -/
theorem toRule_replacingText (htext : text.toList ≠ [])
    (hsize : text.utf8ByteSize ≤ Pattern.Reading.maxWeight) (hid : Unicode.isBlank id = false) :
    (replacingText id text replacement description).toRule =
      .ok (.ofWord id text replacement description) := by
  let d := replacingText id text replacement description
  have hsource : compile d.patternSource = .ok (RuleDefinition.exactPattern text) :=
    RuleDefinition.compile_exact rfl htext hsize
  exact toRule_replacing hsource hid

/-- A definition with a template and no bound. -/
theorem toRule_wrapping {t : Template} (hcompile : compile pattern = .ok p)
    (htemplate : Template.ofString? p template = .ok t) (hid : Unicode.isBlank id = false) :
    (wrapping id pattern template).toRule = .ok ⟨id, none, p, .structural t none⟩ := by
  have hsource : (wrapping id pattern template).patternSource = pattern := rfl
  unfold RuleDefinition.toRule
  simp only [hsource, hcompile, RuleDefinition.checkId]
  simp only [wrapping, replacing, Except.mapError, bind, Except.bind, htemplate, hid]
  rfl

end

/-! ## The catalog -/

theorem valid_messageStoreErrors : messageStoreErrors.Valid := by
  refine RuleSetDefinition.valid_of_nodup_ids (by decide) (by decide +kernel) (fun d hd => ?_)
    (by decide +kernel)
  obtain rfl := Option.some.inj hd
  have haccessor : occursIn FieldSpec.receiverMark.toList FieldSpec.defaultAccessor.toList = true :=
    by decide
  refine FieldSpec.expands_iff.mpr ⟨⟨occursIn_iff.mp haccessor, ?_, ?_⟩, ?_⟩
  · rintro r ⟨⟩
    decide
  · decide +kernel
  · decide +kernel

theorem valid_contentFilterApi : contentFilterApi.Valid :=
  RuleSetDefinition.valid_of_nodup_ids (by decide) (by decide +kernel) nofun (by decide)

theorem valid_duplicateStatusArm : duplicateStatusArm.Valid :=
  RuleSetDefinition.valid_of_nodup_ids (by decide) (by decide +kernel) nofun (by decide)

theorem valid_unusedImports : unusedImports.Valid :=
  RuleSetDefinition.valid_of_nodup_ids (by decide) (by decide +kernel) nofun (by decide)

theorem valid_definition : definition.Valid := by
  refine ⟨fun s hs => ?_, by decide +kernel⟩
  simp only [definition, List.mem_cons, List.not_mem_nil, or_false] at hs
  rcases hs with rfl | rfl | rfl | rfl
  · exact valid_messageStoreErrors
  · exact valid_contentFilterApi
  · exact valid_duplicateStatusArm
  · exact valid_unusedImports

/-- In the built-in catalog the files of a set are bound to its rules. -/
theorem exists_get?_eq_some {s : RuleSetDefinition} (hs : s ∈ definition.ruleSets)
    {declared fields : List Rule} (he : s.Expands declared fields) {file : Path}
    (hfile : file ∈ s.files) :
    ∃ c, Catalog.builtIn = .ok c ∧
      c.get? file = some ⟨s.name, file.normalize, RuleSet.arrange declared fields⟩ := by
  obtain ⟨c, hc, -⟩ := valid_definition.ofDefinition_eq
  exact ⟨c, hc, Catalog.get?_of_expands hc hs he hfile⟩

end BuiltIn

end Amend
