import Amend.Proofs.Catalog.BuiltIn
import Amend.Proofs.Rule.Replay
import Amend.Proofs.Rule.WholeWords

/-!
# Unused imports

The rules for unused imports take out lines and items of lists, and reword two bindings. A second
application finds nothing if no word is put together where items are taken out, and no list of
imports has an item twice (`BuiltIn.importRules_again`).
-/

set_option autoImplicit false

namespace Amend

open Regex

namespace BuiltIn

/-! ## The rules -/

/-- The set of the class `[\w:]`. -/
def pathSet : Char → Bool :=
  (Pattern.ClassPart.union [.single ':', ⟨Unicode.isWord, 0, 550⟩]).set

def literalPath (w : List Char) : List Regex :=
  w.map fun c => .set (· == c)

def websocketMessage : List Char := "tungstenite::Message".toList

def hashMap : List Char := "std::collections::HashMap".toList

def resultAlias : List Char := "crate::error::Result".toList

/-- What opens the list of what is imported for logging. -/
def tracing : List Char := "use tracing::\x7b".toList

def tracingError : List Char := ", error".toList

def systemTime : String := ", SystemTime, UNIX_EPOCH"

def unixEpoch : String := ", UNIX_EPOCH"

def serdeDerives : String := ", Serialize, Deserialize"

def deserialize : String := ", Deserialize"

def wsResult : String := ", Result as WsResult"

def blockedBy : List Char := "let blocked_by".toList

def blockedByNew : String := "let _blocked_by"

def mutConfig : List Char := "let mut config".toList

def mutConfigNew : String := "let config"

/-- A rule that takes out the lines that import a path. -/
def importRule (id source : String) (path : List Regex) : Rule where
  id
  description := none
  pattern := { source, regex := importRegex path, names := [] }
  strategy := .substitution "" none

def messageRule : Rule :=
  importRule "unused-tungstenite-message" "(?m)^use [\\w:]*tungstenite::Message;\\r?\\n"
    (.star true (.set pathSet) :: literalPath websocketMessage)

def hashMapRule : Rule :=
  importRule "unused-hashmap" "(?m)^use std::collections::HashMap;\\r?\\n" (literalPath hashMap)

def resultRule : Rule :=
  importRule "unused-result-alias" "(?m)^use crate::error::Result;\\r?\\n"
    (literalPath resultAlias)

def errorRule : Rule where
  id := "unused-tracing-error"
  description := none
  pattern := {
    source := "(use tracing::\\\x7b[^\x7d]*?), error\\b"
    regex := listedRegex tracing tracingError
    names := [] }
  strategy := .substitution "$\x7b1\x7d" none

/-- A rule that puts another word in the place of a binding. -/
def bindingRule (id source : String) (binding : List Char) (replacement : String) : Rule where
  id
  description := none
  pattern := { source, regex := aloneRegex binding, names := [] }
  strategy := .substitution replacement none

def blockedByRule : Rule :=
  bindingRule "unused-blocked-by" "\\blet blocked_by\\b" blockedBy blockedByNew

def configRule : Rule :=
  bindingRule "needless-mut-config" "\\blet mut config\\b" mutConfig mutConfigNew

/-- A rule that takes out a word. -/
def dropRule (id word : String) : Rule :=
  .ofWord id word "" none

/-- The rules that take something out. -/
def trimRules : List Rule :=
  [messageRule, hashMapRule, resultRule, errorRule, dropRule "unused-system-time" systemTime,
    dropRule "unused-unix-epoch" unixEpoch, dropRule "unused-serde-derives" serdeDerives,
    dropRule "unused-deserialize" deserialize, dropRule "unused-ws-result" wsResult]

def importRules : List Rule :=
  trimRules ++ [blockedByRule, configRule]

/-! ## What the definitions are read into -/

/-- The rules whose patterns are not plain texts. -/
def patternRules : List Rule :=
  [messageRule, hashMapRule, resultRule, errorRule, blockedByRule, configRule]

set_option maxRecDepth 4000 in
theorem read_patternRules :
    ∀ r ∈ patternRules, Pattern.read r.pattern.source.toList = .ok (r.pattern.regex, []) := by
  unfold patternRules messageRule hashMapRule resultRule errorRule blockedByRule configRule
    importRule bindingRule websocketMessage hashMap resultAlias tracing tracingError blockedBy
    mutConfig
  simp only [List.forall_mem_cons]
  repeat rewrite [String.toList_ofList]
  exact ⟨rfl, rfl, rfl, rfl, rfl, rfl, List.forall_mem_nil _⟩

theorem expands_unusedImports : unusedImports.Expands importRules [] := by
  have hread := read_patternRules
  simp only [patternRules, List.forall_mem_cons] at hread
  obtain ⟨hmessage, hhashMap, hresult, herror, hblockedBy, hconfig, -⟩ := hread
  refine ⟨.cons (toRule_replacing (compile_eq_ok ?_ hmessage) ?_)
    (.cons (toRule_replacing (compile_eq_ok ?_ hhashMap) ?_)
    (.cons (toRule_replacing (compile_eq_ok ?_ hresult) ?_)
    (.cons (toRule_replacing (compile_eq_ok ?_ herror) ?_)
    (.cons (toRule_replacingText ?_ ?_ ?_) (.cons (toRule_replacingText ?_ ?_ ?_)
    (.cons (toRule_replacingText ?_ ?_ ?_) (.cons (toRule_replacingText ?_ ?_ ?_)
    (.cons (toRule_replacingText ?_ ?_ ?_)
    (.cons (toRule_replacing (compile_eq_ok ?_ hblockedBy) ?_)
    (.cons (toRule_replacing (compile_eq_ok ?_ hconfig) ?_) .nil)))))))))), .inl ⟨rfl, rfl⟩⟩
  all_goals decide

/-! ## What the rules do -/

theorem pathSet_eq (c : Char) : pathSet c = isPathChar c := by
  simp [pathSet, isPathChar, Pattern.ClassPart.union, Pattern.ClassPart.single, Bool.or_comm]

/-- Any number of characters of paths. -/
def pathChars : Language Char :=
  {q | ∀ c ∈ q, pathSet c = true}

/-- The paths that end with the message of a web socket. -/
def messagePath : Language Char :=
  pathChars * {websocketMessage}

theorem removesImports_importRule {path : List Regex} {L : Language Char}
    (hpath : Denotes (.concat path) L) (hchars : ∀ p ∈ L, ∀ c ∈ p, isPathChar c = true)
    (id source : String) : (importRule id source path).RemovesImports (· ∈ L) where
  regex := ⟨path, rfl, hpath⟩
  isPath := hchars
  limit _ := rfl
  rewrite text m := Replacement.expand_plain (by decide) _ m text

theorem all_isPathChar : websocketMessage.all isPathChar = true ∧
    hashMap.all isPathChar = true ∧ resultAlias.all isPathChar = true := by
  unfold websocketMessage hashMap resultAlias
  repeat rewrite [String.toList_ofList]
  decide +kernel

theorem removesImports_messageRule : messageRule.RemovesImports (· ∈ messagePath) := by
  have hpath := (denotes_star_set true pathSet).cons (denotes_literal websocketMessage)
  refine removesImports_importRule hpath ?_ _ _
  intro p hp
  obtain ⟨q, hq, _, rfl, rfl⟩ := Language.mem_mul.mp hp
  exact List.forall_mem_append.mpr
    ⟨fun c hc => pathSet_eq c ▸ hq c hc, List.all_eq_true.mp all_isPathChar.1⟩

theorem removesImports_hashMapRule :
    hashMapRule.RemovesImports (· ∈ ({hashMap} : Language Char)) := by
  refine removesImports_importRule (denotes_literal hashMap) ?_ _ _
  rintro _ rfl
  exact List.all_eq_true.mp all_isPathChar.2.1

theorem removesImports_resultRule :
    resultRule.RemovesImports (· ∈ ({resultAlias} : Language Char)) := by
  refine removesImports_importRule (denotes_literal resultAlias) ?_ _ _
  rintro _ rfl
  exact List.all_eq_true.mp all_isPathChar.2.2

/-- The words that are taken out wherever they stand. -/
def dropWords : List String :=
  [systemTime, unixEpoch, serdeDerives, deserialize, wsResult]

/-- The items that they end with. -/
def itemWords : List (List Char) :=
  [unixEpoch.toList, deserialize.toList, wsResult.toList]

theorem leftover_words : (∀ w ∈ tracing :: tracingError :: itemWords,
      w ≠ [] ∧ '\n' ∉ w ∧ '}' ∉ w) ∧
    (∀ w ∈ tracingError :: itemWords, w.head? = some ',') ∧ EndsWord tracingError := by
  unfold itemWords unixEpoch deserialize wsResult tracing tracingError
  simp only [List.forall_mem_cons]
  repeat rewrite [String.toList_ofList]
  decide +kernel

theorem drop_words : (∀ w ∈ dropWords, w.toList ≠ [] ∧ Item w.toList) ∧
    ∀ w ∈ dropWords, ∃ v ∈ itemWords, v <:+ w.toList := by
  unfold dropWords itemWords systemTime unixEpoch serdeDerives deserialize wsResult
  simp only [List.forall_mem_cons]
  repeat rewrite [String.toList_ofList]
  decide +kernel

/-- What the rules take out. -/
def leftovers : Leftovers where
  items := itemWords
  opener := tracing
  listed := tracingError
  paths := messagePath + ({hashMap} + {resultAlias})
  word := leftover_words.1
  comma := leftover_words.2.1

theorem unlists_errorRule : errorRule.Unlists tracing tracingError where
  regex := rfl
  ends := leftover_words.2.2
  limit _ := rfl
  rewrite text m := by
    have hsource : "$\x7b1\x7d".toList = [] ++ '$' :: '{' :: '1' :: '}' :: [] := rfl
    have hexpand := Replacement.expand_around hsource List.not_mem_nil List.not_mem_nil
      errorRule.pattern m text
    rwa [List.nil_append, List.append_nil] at hexpand

theorem replaces_dropRule {word : String} (h : word ∈ dropWords) (id : String) :
    (dropRule id word).Replaces word.toList [] :=
  Rule.replaces_ofWord (drop_words.1 word h).1 (by decide) id none

/-- The rules for bindings swap these words. -/
def bindingSwaps : List (List Char × List Char) :=
  [(blockedBy, blockedByNew.toList), (mutConfig, mutConfigNew.toList)]

/-- The words of bindings stand between boundaries, and make neither each other nor anything that is
taken out. -/
theorem bindings_apart :
    (∀ s ∈ bindingSwaps, Whole s.1 ∧ Whole s.2 ∧ Apart s.1 s.2) ∧
    (∀ s ∈ bindingSwaps, Apart useWord s.2 ∧ ' ' ∈ s.2 ∧ '\n' ∉ s.2) ∧
    (∀ s ∈ bindingSwaps, (Apart tracing s.2 ∧ Apart tracingError s.2) ∧ Whole s.2 ∧ '}' ∉ s.1) ∧
    (∀ v ∈ itemWords, ∀ s ∈ bindingSwaps, Apart v s.2) ∧
    Apart blockedBy mutConfigNew.toList := by
  unfold bindingSwaps itemWords blockedBy blockedByNew mutConfig mutConfigNew tracing tracingError
    unixEpoch deserialize wsResult
  repeat rewrite [String.toList_ofList]
  decide +kernel

theorem rewords_blockedByRule : blockedByRule.Rewords blockedBy blockedByNew.toList where
  regex := rfl
  whole := (bindings_apart.1 _ List.mem_cons_self).1
  limit _ := rfl
  rewrite text m := Replacement.expand_plain (by decide) _ m text

theorem rewords_configRule : configRule.Rewords mutConfig mutConfigNew.toList where
  regex := rfl
  whole := (bindings_apart.1 _ (List.mem_cons_of_mem _ List.mem_cons_self)).1
  limit _ := rfl
  rewrite text m := Replacement.expand_plain (by decide) _ m text

/-! ## A second application -/

/-- No word that the rules look for is put together where items are taken out, and no list of
imports for logging has the error twice. -/
abbrev TidyImports (text : List Char) : Prop :=
  Tidy leftovers text

/-- Nothing is left to take out of the text. -/
structure Trimmed (text : List Char) : Prop where
  messages : ¬ Imports (· ∈ messagePath) text
  hashMaps : ¬ Imports (· ∈ ({hashMap} : Language Char)) text
  results : ¬ Imports (· ∈ ({resultAlias} : Language Char)) text
  errors : ¬ Listed tracing tracingError text
  items : ∀ v ∈ itemWords, Lacks v text

variable {text text' : List Char} {word : String}

theorem trims_dropRule (hword : word ∈ dropWords) (id : String) (text : List Char) :
    Trims leftovers text ((dropRule id word).apply text).1 :=
  (replaces_dropRule hword id).trims_apply (drop_words.1 word hword).2
    (drop_words.2 word hword) text

theorem trims_trimRules : ∀ r ∈ trimRules, ∀ text, Trims leftovers text (r.apply text).1 := by
  have hdrop : ∀ word ∈ dropWords, ∀ id text,
      Trims leftovers text ((dropRule id word).apply text).1 := fun _ hword => trims_dropRule hword
  simp only [dropWords, List.forall_mem_cons] at hdrop
  simp only [trimRules, List.forall_mem_cons]
  exact ⟨removesImports_messageRule.trims_apply, removesImports_hashMapRule.trims_apply,
    removesImports_resultRule.trims_apply, unlists_errorRule.trims_apply (L := leftovers),
    hdrop.1 _, hdrop.2.1 _, hdrop.2.2.1 _, hdrop.2.2.2.1 _, hdrop.2.2.2.2.1 _, nofun⟩

theorem lacks_trimRules (h : TidyImports text) (hword : word ∈ dropWords)
    (hitem : word.toList ∈ itemWords) {id : String} (hmem : dropRule id word ∈ trimRules) :
    Lacks word.toList (Rule.applyAll trimRules text).text := by
  have hreplaces := replaces_dropRule hword id
  have htidies : (dropRule id word).Tidies leftovers := hreplaces.tidies hitem
  exact hreplaces.matchesIn_eq_nil_iff.mp (htidies.matchesIn_applyAll trims_trimRules h hmem)

theorem trimmed_trimRules (h : TidyImports text) : Trimmed (Rule.applyAll trimRules text).text := by
  have hleft : ∀ r ∈ trimRules, r.Tidies leftovers →
      r.pattern.matchesIn (Rule.applyAll trimRules text).text = [] :=
    fun r hr htidies => htidies.matchesIn_applyAll trims_trimRules h hr
  exact {
    messages := removesImports_messageRule.matchesIn_eq_nil_iff.mp
      (hleft _ (by simp [trimRules]) (removesImports_messageRule.tidies fun p hp => .inl hp))
    hashMaps := removesImports_hashMapRule.matchesIn_eq_nil_iff.mp
      (hleft _ (by simp [trimRules]) (removesImports_hashMapRule.tidies fun p hp => .inr (.inl hp)))
    results := removesImports_resultRule.matchesIn_eq_nil_iff.mp
      (hleft _ (by simp [trimRules]) (removesImports_resultRule.tidies fun p hp => .inr (.inr hp)))
    errors := unlists_errorRule.matchesIn_eq_nil_iff.mp
      (hleft _ (by simp [trimRules]) (unlists_errorRule.tidies (L := leftovers)))
    items := by
      simp only [itemWords, List.forall_mem_cons]
      exact ⟨lacks_trimRules h (by simp [dropWords]) (by simp [itemWords])
          (show dropRule "unused-unix-epoch" unixEpoch ∈ trimRules by simp [trimRules]),
        lacks_trimRules h (by simp [dropWords]) (by simp [itemWords])
          (show dropRule "unused-deserialize" deserialize ∈ trimRules by simp [trimRules]),
        lacks_trimRules h (by simp [dropWords]) (by simp [itemWords])
          (show dropRule "unused-ws-result" wsResult ∈ trimRules by simp [trimRules]), nofun⟩ }

theorem Trimmed.reworded (h : Trimmed text) (hreworded : Reworded bindingSwaps text text') :
    Trimmed text' := by
  obtain ⟨-, himports, hlisted, hitems, -⟩ := bindings_apart
  exact {
    messages := hreworded.not_imports himports h.messages
    hashMaps := hreworded.not_imports himports h.hashMaps
    results := hreworded.not_imports himports h.results
    errors := hreworded.not_listed hlisted h.errors
    items v hv := hreworded.lacks (hitems v hv) (h.items v hv) }

theorem matchesIn_trimRules_eq_nil (h : Trimmed text) :
    ∀ r ∈ trimRules, r.pattern.matchesIn text = [] := by
  have hdrop : ∀ word ∈ dropWords, ∀ id, (dropRule id word).pattern.matchesIn text = [] := by
    intro word hword id
    obtain ⟨v, hv, hsuffix⟩ := drop_words.2 word hword
    exact (replaces_dropRule hword id).matchesIn_eq_nil_iff.mpr ((h.items v hv).of_suffix hsuffix)
  simp only [dropWords, List.forall_mem_cons] at hdrop
  simp only [trimRules, List.forall_mem_cons]
  exact ⟨removesImports_messageRule.matchesIn_eq_nil_iff.mpr h.messages,
    removesImports_hashMapRule.matchesIn_eq_nil_iff.mpr h.hashMaps,
    removesImports_resultRule.matchesIn_eq_nil_iff.mpr h.results,
    unlists_errorRule.matchesIn_eq_nil_iff.mpr h.errors, hdrop.1 _, hdrop.2.1 _, hdrop.2.2.1 _,
    hdrop.2.2.2.1 _, hdrop.2.2.2.2.1 _, nofun⟩

/-- A second application of the rules does nothing if the text was tidy. -/
theorem importRules_again (h : TidyImports text) :
    let out := (Rule.applyAll importRules text).text
    Rule.applyAll importRules out = ⟨out, [], 0⟩ := by
  intro out
  obtain ⟨hwhole, -, -, -, hother⟩ := bindings_apart
  simp only [bindingSwaps, List.forall_mem_cons] at hwhole
  obtain ⟨⟨-, hblockedBy, hblockedByApart⟩, ⟨-, hconfig, hconfigApart⟩, -⟩ := hwhole
  let t₁ := (Rule.applyAll trimRules text).text
  let t₂ := (blockedByRule.apply t₁).1
  let t₃ := (configRule.apply t₂).1
  have h₂ : Reworded [(blockedBy, blockedByNew.toList)] t₁ t₂ := rewords_blockedByRule.reworded t₁
  have h₃ : Reworded [(mutConfig, mutConfigNew.toList)] t₂ t₃ := rewords_configRule.reworded t₂
  have hout : out = t₃ := by
    simp only [out, importRules, Rule.applyAll_append, Rule.text_applyAll_cons]
    rfl
  have htrimmed : Trimmed t₃ := (trimmed_trimRules h).reworded (h₂.append h₃)
  have hblocked : ¬ Alone blockedBy t₃ :=
    h₃.not_alone (List.forall_mem_singleton.mpr ⟨hother, hconfig⟩)
      (rewords_blockedByRule.not_alone_apply hblockedByApart hblockedBy t₁)
  have hmut : ¬ Alone mutConfig t₃ :=
    rewords_configRule.not_alone_apply hconfigApart hconfig t₂
  rw [hout]
  refine Rule.applyAll_of_matchesIn_eq_nil (List.forall_mem_append.mpr
    ⟨matchesIn_trimRules_eq_nil htrimmed, ?_⟩)
  simp only [List.forall_mem_cons]
  exact ⟨rewords_blockedByRule.matchesIn_eq_nil_iff.mpr hblocked,
    rewords_configRule.matchesIn_eq_nil_iff.mpr hmut, nofun⟩

end BuiltIn

end Amend
