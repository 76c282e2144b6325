import Mathlib.Data.List.TakeWhile
import Amend.Proofs.Catalog.ContentFilter
import Amend.Proofs.Catalog.MessageStore
import Amend.Proofs.Catalog.UnusedImports

/-!
# Built-in sets applied twice

Where a built-in set has been applied to a text, a second application has nothing to do
(`RuleSet.Settles`), unless a call was nested in another one that the same rule finds, or what was
taken out of a list brings about more to take out (`BuiltIn.settles_of_foundOnce`).
-/

set_option autoImplicit false

namespace Amend

/-- In what the rules make of the text no rule fires, and nothing is replaced. -/
def RuleSet.Settles (s : RuleSet) (text : List Char) : Prop :=
  let out := (Rule.applyAll s.rules text).text
  Rule.applyAll s.rules out = ⟨out, [], 0⟩

namespace BuiltIn

/-- What the rules of the set look for is found in one application: calls are not nested, and lists
are tidy. -/
structure FoundOnce (s : RuleSetDefinition) (text : List Char) : Prop where
  store : s = messageStoreErrors → CalledOnce text
  filter : s = contentFilterApi → ¬ Nested ')' (filterCall "validate_room_name") [] text ∧
    ¬ Nested ')' (filterCall "sanitize_content") [] text
  imports : s = unusedImports → TidyImports text

/-- The set that a file of a set without deletions is bound to has the declared rules and those for
fields, in this order. -/
theorem get?_of_expands {c : Catalog} (hc : Catalog.builtIn = .ok c) {s : RuleSetDefinition}
    (hs : s ∈ definition.ruleSets) {declared fields : List Rule}
    (he : s.Expands declared fields)
    (hdeclared : ∀ r ∈ declared, RuleSet.precedesFields r = true) {file : Path}
    (hfile : file ∈ s.files) :
    c.get? file = some ⟨s.name, file.normalize, declared ++ fields⟩ := by
  have harrange : RuleSet.arrange declared fields = declared ++ fields := by
    rw [RuleSet.arrange, List.takeWhile_eq_self_iff.mpr hdeclared,
      List.dropWhile_eq_nil_iff.mpr hdeclared, List.append_nil]
  rw [← harrange]
  exact Catalog.get?_of_expands hc hs he hfile

/-- A set without deletions has nothing more to do where all it looks for is found in one
application. For the content filter this is exactly where there is no nested call. -/
theorem settles_of_foundOnce : ∃ c, Catalog.builtIn = .ok c ∧
    ∀ s ∈ definition.ruleSets, (∀ d ∈ s.rules, d.delete = false) → ∀ file ∈ s.files,
      ∃ set, c.get? file = some set ∧ set.name = s.name ∧
        (∀ text, FoundOnce s text → set.Settles text) ∧
        (s = contentFilterApi → ∀ text, set.Settles text → FoundOnce s text) := by
  obtain ⟨c, hc, -⟩ := valid_definition.ofDefinition_eq
  refine ⟨c, hc, fun s hs hdelete file hfile => ?_⟩
  have hmem := hs
  simp only [definition, List.mem_cons, List.not_mem_nil, or_false] at hs
  rcases hs with rfl | rfl | rfl | rfl
  · obtain ⟨source, he⟩ := exists_expands_messageStoreErrors
    refine ⟨_, get?_of_expands hc hmem he (by decide) hfile, rfl, fun text h => ?_, fun heq => ?_⟩
    · exact storeRules_again source (h.store rfl)
    · exact absurd (congrArg RuleSetDefinition.name heq) (by decide)
  · refine ⟨_, get?_of_expands hc hmem expands_contentFilterApi (by decide) hfile, rfl,
      fun text h => ?_, fun _ text h => ?_⟩
    · exact (filterRules_again_iff text).mpr (h.filter rfl)
    · exact ⟨fun heq => absurd (congrArg RuleSetDefinition.name heq) (by decide),
        fun _ => (filterRules_again_iff text).mp h,
        fun heq => absurd (congrArg RuleSetDefinition.name heq) (by decide)⟩
  · exact absurd (hdelete _ List.mem_cons_self) (by decide)
  · refine ⟨_, get?_of_expands hc hmem expands_unusedImports (by decide) hfile, rfl,
      fun text h => ?_, fun heq => ?_⟩
    · exact importRules_again (h.imports rfl)
    · exact absurd (congrArg RuleSetDefinition.name heq) (by decide)

/-- A call in the argument of another call. -/
def nestedCall : List Char :=
  "self.content_filter.sanitize_content(self.content_filter.sanitize_content(x))".toList

theorem nested_nestedCall : Nested ')' (filterCall "sanitize_content") [] nestedCall := by
  have htext : nestedCall = filterCall "sanitize_content" ++
      (filterCall "sanitize_content" ++ ['x', ')', ')']) := by
    unfold nestedCall filterCall
    repeat rewrite [String.toList_ofList]
    rfl
  exact (nested_iff (notMem_filterCall _ (by decide))).mpr
    ⟨[], [], ['x'], [')'], by decide, by decide, by decide, htext⟩

/-- The set for the content filter has no deletions, and a second application of it goes on where a
call is in the argument of another one. -/
theorem nestedCall_notSettled : ∃ c set, Catalog.builtIn = .ok c ∧
    c.get? ⟨"src/message_handler.rs"⟩ = some set ∧ set.name = contentFilterApi.name ∧
    (∀ d ∈ contentFilterApi.rules, d.delete = false) ∧ ¬ set.Settles nestedCall := by
  obtain ⟨c, hc, -⟩ := valid_definition.ofDefinition_eq
  refine ⟨c, _, hc, get?_of_expands hc (by simp [definition]) expands_contentFilterApi (by decide)
    (by decide), rfl, by decide, fun hsettles => ?_⟩
  exact ((filterRules_again_iff nestedCall).mp hsettles).2 nested_nestedCall

/-! ## Texts that settle -/

def deniedCall : List Char := "ChatError::PermissionDenied(\"no\")".toList

def sanitizedCall : List Char := "self.content_filter.sanitize_content(x)".toList

def serdeImport : List Char :=
  "use serde::\x7bSerialize, Deserialize\x7d;\nlet mut config = x;\n".toList

theorem foundOnce_deniedCall : FoundOnce messageStoreErrors deniedCall where
  store _ := by
    have hlength : deniedCall.length < (denied ++ ['"']).length + (denied ++ ['"']).length ∧
        deniedCall.length < (configuration ++ ['"']).length + (configuration ++ ['"']).length := by
      unfold deniedCall denied configuration
      repeat rewrite [String.toList_ofList]
      decide
    have hlacks : Lacks (alreadyExists.toList ++ (call ++ call)) deniedCall ∧
        Lacks (notFound.toList ++ (call ++ call)) deniedCall := by
      unfold alreadyExists notFound deniedCall
      repeat rewrite [String.toList_ofList]
      decide +kernel
    exact {
      owned := fun h => Nat.not_le_of_lt hlength.1 h.length_le
      borrowed := fun h => Nat.not_le_of_lt hlength.1 h.length_le
      alreadyExists := hlacks.1
      notFound := hlacks.2
      configuration := fun h => Nat.not_le_of_lt hlength.2 h.length_le }
  filter heq := absurd (congrArg RuleSetDefinition.name heq) (by decide)
  imports heq := absurd (congrArg RuleSetDefinition.name heq) (by decide)

theorem foundOnce_sanitizedCall : FoundOnce contentFilterApi sanitizedCall where
  store heq := absurd (congrArg RuleSetDefinition.name heq) (by decide)
  filter _ := by
    have hlength : sanitizedCall.length <
          (filterCall "validate_room_name").length + (filterCall "validate_room_name").length ∧
        sanitizedCall.length <
          (filterCall "sanitize_content").length + (filterCall "sanitize_content").length := by
      unfold sanitizedCall filterCall
      repeat rewrite [String.toList_ofList]
      decide
    exact ⟨fun h => Nat.not_le_of_lt hlength.1 h.length_le,
      fun h => Nat.not_le_of_lt hlength.2 h.length_le⟩
  imports heq := absurd (congrArg RuleSetDefinition.name heq) (by decide)

theorem foundOnce_serdeImport : FoundOnce unusedImports serdeImport where
  store heq := absurd (congrArg RuleSetDefinition.name heq) (by decide)
  filter heq := absurd (congrArg RuleSetDefinition.name heq) (by decide)
  imports _ := by
    -- the only item that is taken out ends its list
    have hsample : Lacks tracing serdeImport ∧ ∀ w ∈ itemWords, ∀ t ∈ serdeImport.tails,
        w <+: t → (t.drop w.length).head? = some '}' := by
      unfold itemWords unixEpoch deserialize wsResult tracing serdeImport
      repeat rewrite [String.toList_ofList]
      decide +kernel
    refine .of_closing ?_ fun w hw u v heq => ?_
    · rintro ⟨u, s, v, heq, -⟩
      exact hsample.1 u _ heq
    · have htail := hsample.2 w hw (w ++ v)
        ((List.mem_tails _ _).mpr (heq ▸ List.suffix_append u _)) (List.prefix_append w v)
      rwa [List.drop_left] at htail

theorem samples_settle : ∃ c, Catalog.builtIn = .ok c ∧
    (∃ set, c.get? ⟨"src/message_store.rs"⟩ = some set ∧ set.Settles deniedCall) ∧
    (∃ set, c.get? ⟨"src/message_handler.rs"⟩ = some set ∧ set.Settles sanitizedCall) ∧
    ∃ set, c.get? ⟨"src/security.rs"⟩ = some set ∧ set.Settles serdeImport := by
  obtain ⟨c, hc, hall⟩ := settles_of_foundOnce
  obtain ⟨store, hstore, -, hstoreSettles, -⟩ := hall messageStoreErrors (by simp [definition])
    (by decide) ⟨"src/message_store.rs"⟩ (by decide)
  obtain ⟨filter, hfilter, -, hfilterSettles, -⟩ := hall contentFilterApi (by simp [definition])
    (by decide) ⟨"src/message_handler.rs"⟩ (by decide)
  obtain ⟨imports, himports, -, himportsSettles, -⟩ := hall unusedImports (by simp [definition])
    (by decide) ⟨"src/security.rs"⟩ (by decide)
  exact ⟨c, hc, ⟨store, hstore, hstoreSettles _ foundOnce_deniedCall⟩,
    ⟨filter, hfilter, hfilterSettles _ foundOnce_sanitizedCall⟩,
    imports, himports, himportsSettles _ foundOnce_serdeImport⟩

end BuiltIn

end Amend
