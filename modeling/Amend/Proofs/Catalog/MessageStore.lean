import Amend.Proofs.Catalog.BuiltIn
import Amend.Proofs.Rule.Enclosing
import Amend.Proofs.Rule.FieldSwaps
import Amend.Proofs.Rule.Replay

/-!
# The message store

The rules for the message store replace constructors of errors that changed, and reads of the fields
of a row. A second application finds nothing if no constructor is called in an argument of its own
and no variant is called twice (`BuiltIn.storeRules_again`).
-/

set_option autoImplicit false

namespace Amend.BuiltIn

/-! ## The rules -/

def mapErr : String := ".map_err(ChatError::Database)?"

def mapErrNew : String := ".map_err(|e| ChatError::database_error(\"database_operation\", e))?"

def alreadyExists : String := "ChatError::ReactionAlreadyExists"

def notFound : String := "ChatError::ReactionNotFound"

/-- What a variant goes on with where it is called. -/
def call : List Char := ['(', ')']

def rowToMessage : String := "async fn row_to_message(&self, row: sqlx::Row) -> Result<Message>"

def rowToMessageNew : String :=
  "async fn row_to_message<R: sqlx::Row>(&self, row: R) -> Result<Message>"

/-- What a denied permission, a field of it and an error in the configuration begin with, up to the
quotation mark. -/
def denied : List Char := "ChatError::PermissionDenied(".toList

@[inherit_doc denied]
def deniedField : List Char := "ChatError::PermissionDenied \x7b message: ".toList

@[inherit_doc denied]
def configuration : List Char := "ChatError::configuration_error(".toList

/-- What follows a quoted text that is made a string of its own, in a call and in a field. -/
def ownedEnd : List Char := ".to_string())".toList

@[inherit_doc ownedEnd]
def fieldEnd : List Char := ".to_string() \x7d".toList

/-- A rule that replaces the words around a quoted text. -/
def quoteRule (id source : String) (opening closing : List Char) (replacement : String) : Rule where
  id
  description := none
  pattern := { source, regex := enclosedRegex '"' (opening ++ ['"']) closing, names := [] }
  strategy := .substitution replacement none

def mapErrRule : Rule :=
  .ofWord "map-err-database" mapErr mapErrNew
    (some "ChatError::Database is no longer a tuple constructor")

def ownedRule : Rule :=
  quoteRule "permission-denied-owned"
    "ChatError::PermissionDenied\\(\"([^\"]+)\"\\.to_string\\(\\)\\)" denied ownedEnd
    "ChatError::PermissionDenied \x7b message: \"$\x7b1\x7d\".to_string() \x7d"

def borrowedRule : Rule :=
  quoteRule "permission-denied-borrowed"
    "ChatError::PermissionDenied\\(\"([^\"]+)\"\\)" denied [')']
    "ChatError::PermissionDenied \x7b message: \"$\x7b1\x7d\".to_string() \x7d"

def alreadyExistsRule : Rule :=
  .ofWord "reaction-already-exists-unit" "ChatError::ReactionAlreadyExists()" alreadyExists
    (some "unit variant called like a function")

def notFoundRule : Rule :=
  .ofWord "reaction-not-found-unit" "ChatError::ReactionNotFound()" notFound none

def configurationRule : Rule :=
  quoteRule "configuration-error-borrowed"
    "ChatError::configuration_error\\(\"([^\"]+)\"\\.to_string\\(\\)\\)" configuration ownedEnd
    "ChatError::configuration_error(\"$\x7b1\x7d\")"

def rowToMessageRule : Rule :=
  .ofWord "row-to-message-generic" rowToMessage rowToMessageNew
    (some "sqlx::Row is a trait, not a concrete type")

def storeRules : List Rule :=
  [mapErrRule, ownedRule, borrowedRule, alreadyExistsRule, notFoundRule, configurationRule,
    rowToMessageRule]

/-- The fields that are read of a row. -/
def rowFields : FieldSpec :=
  (messageStoreErrors.fields.elim ⟨none, none, []⟩ id).toSpec

def rowRules (source : String) : List Rule :=
  rowFields.sortedNames.map (FieldSpec.fieldRule (some "row") source)

/-! ## What the definitions are read into -/

theorem compile_mapErr : compile "\\.map_err\\(ChatError::Database\\)\\?" =
    .ok (RuleDefinition.exactPattern mapErr) := by
  have hsource : "\\.map_err\\(ChatError::Database\\)\\?" = Pattern.escape mapErr := by
    unfold Pattern.escape mapErr
    rewrite [String.toList_ofList]
    rfl
  rw [hsource]
  exact RuleDefinition.compile_exact (d := replacingText "" mapErr "") rfl (by decide) (by decide)

set_option maxRecDepth 4000 in
theorem compile_owned :
    compile "ChatError::PermissionDenied\\(\"([^\"]+)\"\\.to_string\\(\\)\\)" =
      .ok ownedRule.pattern := by
  refine compile_eq_ok (by decide) ?_
  unfold denied ownedEnd
  rewrite [String.toList_ofList, String.toList_ofList, String.toList_ofList]
  rfl

set_option maxRecDepth 4000 in
theorem compile_borrowed :
    compile "ChatError::PermissionDenied\\(\"([^\"]+)\"\\)" = .ok borrowedRule.pattern := by
  refine compile_eq_ok (by decide) ?_
  unfold denied
  rewrite [String.toList_ofList, String.toList_ofList]
  rfl

set_option maxRecDepth 4000 in
theorem compile_configuration :
    compile "ChatError::configuration_error\\(\"([^\"]+)\"\\.to_string\\(\\)\\)" =
      .ok configurationRule.pattern := by
  refine compile_eq_ok (by decide) ?_
  unfold configuration ownedEnd
  rewrite [String.toList_ofList, String.toList_ofList, String.toList_ofList]
  rfl

theorem declared_storeRules :
    List.Forall₂ (fun (d : RuleDefinition) rule => d.toRule = .ok rule) messageStoreErrors.rules
      storeRules := by
  refine .cons (toRule_replacing compile_mapErr (by decide))
    (.cons (toRule_replacing compile_owned (by decide))
    (.cons (toRule_replacing compile_borrowed (by decide))
    (.cons (toRule_replacingText ?_ ?_ (by decide)) (.cons (toRule_replacingText ?_ ?_ (by decide))
    (.cons (toRule_replacing compile_configuration (by decide))
    (.cons (toRule_replacingText ?_ ?_ (by decide)) .nil))))))
  all_goals decide

theorem exists_expands_messageStoreErrors :
    ∃ source, messageStoreErrors.Expands storeRules (rowRules source) := by
  obtain ⟨source, hexpand⟩ := FieldSpec.exists_expand_eq (valid_messageStoreErrors.fields _ rfl)
  exact ⟨source, declared_storeRules, .inr ⟨_, rfl, hexpand⟩⟩

/-! ## The rules for the fields -/

theorem isIdentifier_row : ∀ r, some "row" = some r → isIdentifier r.toList = true := by
  rintro r ⟨⟩
  decide

theorem isIdentifier_rowFields : ∀ n ∈ rowFields.sortedNames, isIdentifier n.toList = true := by
  have hnames : ∀ n ∈ rowFields.names, isIdentifier n.toList = true := by decide +kernel
  exact fun n hn => hnames n (FieldSpec.mem_sortedNames.mp hn)

theorem reworded_rowRules (source : String) (text : List Char) :
    Reworded (FieldSpec.swaps rowFields.sortedNames) text
      (Rule.applyAll (rowRules source) text).text :=
  FieldSpec.reworded_applyAll isIdentifier_row isIdentifier_rowFields source text

theorem matchesIn_rowRules_eq_nil (source : String) (text : List Char) :
    ∀ r ∈ rowRules source, r.pattern.matchesIn (Rule.applyAll (rowRules source) text).text = [] :=
  FieldSpec.matchesIn_applyAll_eq_nil isIdentifier_row isIdentifier_rowFields
    (fun h => absurd (FieldSpec.mem_sortedNames.mp h) (by decide)) source text

/-! ## What the declared rules swap -/

theorem encloses_quoteRule {opening opening' closing closing' : List Char} {replacement : String}
    (h : replacement.toList = opening' ++ '"' :: '$' :: '{' :: '1' :: '}' :: '"' :: closing')
    (hplain : '$' ∉ opening' ++ closing') (id source : String) :
    (quoteRule id source opening closing replacement).Encloses '"' (opening ++ ['"'])
      (opening' ++ ['"']) closing closing' where
  regex := rfl
  limit _ := rfl
  rewrite text m := by
    rw [List.mem_append, not_or] at hplain
    refine Replacement.expand_around (by rw [h]; simp) ?_ ?_ _ m text
    · simpa using hplain.1
    · simpa using hplain.2

theorem encloses_ownedRule : ownedRule.Encloses '"' (denied ++ ['"']) (deniedField ++ ['"'])
    ownedEnd fieldEnd := by
  refine encloses_quoteRule ?_ ?_ _ _
  all_goals unfold deniedField fieldEnd
  · rewrite [String.toList_ofList, String.toList_ofList, String.toList_ofList]
    rfl
  · rewrite [String.toList_ofList, String.toList_ofList]
    decide

theorem encloses_borrowedRule : borrowedRule.Encloses '"' (denied ++ ['"']) (deniedField ++ ['"'])
    [')'] fieldEnd :=
  ⟨rfl, encloses_ownedRule.limit, encloses_ownedRule.rewrite⟩

theorem encloses_configurationRule : configurationRule.Encloses '"' (configuration ++ ['"'])
    (configuration ++ ['"']) ownedEnd [')'] := by
  refine encloses_quoteRule ?_ ?_ _ _
  all_goals unfold configuration
  · rewrite [String.toList_ofList, String.toList_ofList]
    rfl
  · rewrite [String.toList_ofList]
    decide

theorem replaces_mapErrRule : mapErrRule.Replaces mapErr.toList mapErrNew.toList := by
  refine Rule.replaces_ofWord ?_ ?_ _ _
  · unfold mapErr
    rewrite [String.toList_ofList]
    decide
  · unfold mapErrNew
    rewrite [String.toList_ofList]
    decide

theorem replaces_alreadyExistsRule :
    alreadyExistsRule.Replaces (alreadyExists.toList ++ call) alreadyExists.toList := by
  have hword : "ChatError::ReactionAlreadyExists()".toList = alreadyExists.toList ++ call := by
    unfold alreadyExists
    rewrite [String.toList_ofList, String.toList_ofList]
    rfl
  rw [← hword]
  exact Rule.replaces_ofWord (by decide) (by decide) _ _

theorem replaces_notFoundRule :
    notFoundRule.Replaces (notFound.toList ++ call) notFound.toList := by
  have hword : "ChatError::ReactionNotFound()".toList = notFound.toList ++ call := by
    unfold notFound
    rewrite [String.toList_ofList, String.toList_ofList]
    rfl
  rw [← hword]
  exact Rule.replaces_ofWord (by decide) (by decide) _ _

theorem replaces_rowToMessageRule :
    rowToMessageRule.Replaces rowToMessage.toList rowToMessageNew.toList := by
  refine Rule.replaces_ofWord ?_ ?_ _ _
  · unfold rowToMessage
    rewrite [String.toList_ofList]
    decide
  · unfold rowToMessageNew
    rewrite [String.toList_ofList]
    decide

/-! ## Words that the rules do not bring about -/

def mapErrSwaps : List (List Char × List Char) :=
  [(mapErr.toList, mapErrNew.toList)]

def ownedSwaps : List (List Char × List Char) :=
  [(denied, deniedField), (ownedEnd, fieldEnd)]

def borrowedSwaps : List (List Char × List Char) :=
  [(denied, deniedField), ([')'], fieldEnd)]

def alreadyExistsSwaps : List (List Char × List Char) :=
  [(alreadyExists.toList ++ call, alreadyExists.toList)]

def notFoundSwaps : List (List Char × List Char) :=
  [(notFound.toList ++ call, notFound.toList)]

def configurationSwaps : List (List Char × List Char) :=
  [('"' :: ownedEnd, '"' :: [')'])]

def rowToMessageSwaps : List (List Char × List Char) :=
  [(rowToMessage.toList, rowToMessageNew.toList)]

/-- No rule brings about what another one looks for, or a nesting of it. -/
theorem words_apart :
    (∀ s ∈ ownedSwaps ++ (borrowedSwaps ++ (alreadyExistsSwaps ++ (notFoundSwaps ++
      (configurationSwaps ++ rowToMessageSwaps)))), Apart mapErr.toList s.2) ∧
    (Reworded.Keeps '"' (denied ++ ['"']) ownedEnd mapErrSwaps ∧
      Reworded.Keeps '"' (denied ++ ['"']) ownedEnd
        (borrowedSwaps ++ (alreadyExistsSwaps ++ notFoundSwaps)) ∧
      Reworded.Keeps '"' (denied ++ ['"']) ownedEnd rowToMessageSwaps) ∧
    (Reworded.Keeps '"' (denied ++ ['"']) [')'] (mapErrSwaps ++ ownedSwaps) ∧
      Reworded.Keeps '"' (denied ++ ['"']) [')'] (alreadyExistsSwaps ++ notFoundSwaps) ∧
      Reworded.Keeps '"' (denied ++ ['"']) [')'] rowToMessageSwaps) ∧
    ((∀ s ∈ mapErrSwaps ++ (ownedSwaps ++ borrowedSwaps),
        Apart (alreadyExists.toList ++ (call ++ call)) s.2) ∧
      ∀ s ∈ notFoundSwaps ++ (configurationSwaps ++ rowToMessageSwaps),
        Apart (alreadyExists.toList ++ call) s.2) ∧
    ((∀ s ∈ mapErrSwaps ++ (ownedSwaps ++ (borrowedSwaps ++ alreadyExistsSwaps)),
        Apart (notFound.toList ++ (call ++ call)) s.2) ∧
      ∀ s ∈ configurationSwaps ++ rowToMessageSwaps, Apart (notFound.toList ++ call) s.2) ∧
    (Reworded.Keeps '"' (configuration ++ ['"']) ownedEnd (mapErrSwaps ++
        (ownedSwaps ++ (borrowedSwaps ++ (alreadyExistsSwaps ++ notFoundSwaps)))) ∧
      Reworded.Keeps '"' (configuration ++ ['"']) ownedEnd rowToMessageSwaps) := by
  unfold mapErrSwaps ownedSwaps borrowedSwaps alreadyExistsSwaps notFoundSwaps configurationSwaps
    rowToMessageSwaps mapErr mapErrNew denied deniedField ownedEnd fieldEnd alreadyExists notFound
    configuration rowToMessage rowToMessageNew
  repeat rewrite [String.toList_ofList]
  decide +kernel

/-- What the rules for the fields put in is foreign to the words. -/
theorem foreign_words :
    (FieldSpec.Foreign mapErr.toList ∧ FieldSpec.Foreign rowToMessage.toList) ∧
      (FieldSpec.Foreign (alreadyExists.toList ++ call) ∧
        FieldSpec.Foreign (notFound.toList ++ call)) ∧
      (FieldSpec.Foreign (denied ++ ['"']) ∧ FieldSpec.Foreign (configuration ++ ['"'])) ∧
      FieldSpec.ForeignEnd ownedEnd ∧ FieldSpec.ForeignEnd [')'] := by
  unfold mapErr denied ownedEnd alreadyExists notFound configuration rowToMessage
  repeat rewrite [String.toList_ofList]
  decide +kernel

/-- What a rule for quoted texts writes is separate from what it looks for. -/
theorem quotes_separate :
    Rule.Separate '"' denied deniedField ownedEnd fieldEnd ∧
      Rule.Separate '"' denied deniedField [')'] fieldEnd ∧
      Rule.Separate '"' configuration configuration ownedEnd [')'] := by
  unfold denied deniedField ownedEnd fieldEnd configuration
  repeat rewrite [String.toList_ofList]
  decide +kernel

theorem words_separate :
    Apart mapErr.toList mapErrNew.toList ∧ Apart rowToMessage.toList rowToMessageNew.toList := by
  unfold mapErr mapErrNew rowToMessage rowToMessageNew
  repeat rewrite [String.toList_ofList]
  decide +kernel

/-- The closing word of an error in the configuration closes no other quoted text. -/
theorem configuration_closesApart :
    Rule.ClosesApart '"' denied ownedEnd configuration ownedEnd [')'] ∧
      Rule.ClosesApart '"' denied [')'] configuration ownedEnd [')'] := by
  unfold denied ownedEnd configuration
  repeat rewrite [String.toList_ofList]
  decide +kernel

/-- A call of a variant overlaps with the variant at its beginning only. -/
theorem calls_apart :
    (EndsClash alreadyExists.toList.tail (alreadyExists.toList ++ call) ∧
      EndsClash (alreadyExists.toList ++ call).tail alreadyExists.toList) ∧
    EndsClash notFound.toList.tail (notFound.toList ++ call) ∧
      EndsClash (notFound.toList ++ call).tail notFound.toList := by
  unfold alreadyExists notFound
  repeat rewrite [String.toList_ofList]
  decide +kernel

/-! ## A second application -/

/-- No constructor is called in a quoted argument of its own, and no variant is called twice in a
row. -/
structure CalledOnce (text : List Char) : Prop where
  owned : ¬ Nested '"' (denied ++ ['"']) ownedEnd text
  borrowed : ¬ Nested '"' (denied ++ ['"']) [')'] text
  alreadyExists : Lacks (alreadyExists.toList ++ (call ++ call)) text
  notFound : Lacks (notFound.toList ++ (call ++ call)) text
  configuration : ¬ Nested '"' (configuration ++ ['"']) ownedEnd text

/-- What the declared rules look for is not in the text. -/
structure StoreSettled (text : List Char) : Prop where
  mapErr : Lacks mapErr.toList text
  owned : Unenclosed '"' (denied ++ ['"']) ownedEnd text
  borrowed : Unenclosed '"' (denied ++ ['"']) [')'] text
  alreadyExists : Lacks (alreadyExists.toList ++ call) text
  notFound : Lacks (notFound.toList ++ call) text
  configuration : Unenclosed '"' (configuration ++ ['"']) ownedEnd text
  rowToMessage : Lacks rowToMessage.toList text

/-- The rules for fields do not bring about what the declared rules look for. -/
theorem settled_rowRules {text : List Char} (h : StoreSettled text) (source : String) :
    StoreSettled (Rule.applyAll (rowRules source) text).text := by
  obtain ⟨⟨hmapErr, hrowToMessage⟩, ⟨hexists, hfound⟩, ⟨hdenied, hconfiguration⟩, howned,
    hborrowed⟩ := foreign_words
  have hrow := reworded_rowRules source text
  have hlacks : ∀ {v}, FieldSpec.Foreign v → Lacks v text →
      Lacks v (Rule.applyAll (rowRules source) text).text :=
    fun hv => hrow.lacks (FieldSpec.apart_of_foreign isIdentifier_rowFields hv)
  have hunenclosed : ∀ {a k}, FieldSpec.Foreign a → FieldSpec.ForeignEnd k →
      Unenclosed '"' a k text →
      Unenclosed '"' a k (Rule.applyAll (rowRules source) text).text :=
    fun ha hk => hrow.unenclosed (FieldSpec.keeps_of_foreign isIdentifier_rowFields ha hk)
  exact {
    mapErr := hlacks hmapErr h.mapErr
    owned := hunenclosed hdenied howned h.owned
    borrowed := hunenclosed hdenied hborrowed h.borrowed
    alreadyExists := hlacks hexists h.alreadyExists
    notFound := hlacks hfound h.notFound
    configuration := hunenclosed hconfiguration howned h.configuration
    rowToMessage := hlacks hrowToMessage h.rowToMessage }

/-- The declared rules leave nothing to find to any of them in a text of single calls. -/
theorem settled_storeRules {text : List Char} (h : CalledOnce text) :
    StoreSettled (Rule.applyAll storeRules text).text := by
  obtain ⟨hmapErr, ⟨howned, howned', howned''⟩, ⟨hborrowed, hborrowed', hborrowed''⟩,
    ⟨hexists, hexists'⟩, ⟨hfound, hfound'⟩, hconfiguration, hconfiguration'⟩ := words_apart
  obtain ⟨hsepOwned, hsepBorrowed, hsepConfiguration⟩ := quotes_separate
  -- the texts that the rules leave one after the other
  let t₁ := (mapErrRule.apply text).1
  let t₂ := (ownedRule.apply t₁).1
  let t₃ := (borrowedRule.apply t₂).1
  let t₄ := (alreadyExistsRule.apply t₃).1
  let t₅ := (notFoundRule.apply t₄).1
  let t₆ := (configurationRule.apply t₅).1
  let t₇ := (rowToMessageRule.apply t₆).1
  have h₁ : Reworded mapErrSwaps text t₁ := replaces_mapErrRule.reworded text
  have h₂ : Reworded ownedSwaps t₁ t₂ := encloses_ownedRule.reworded t₁
  have h₃ : Reworded borrowedSwaps t₂ t₃ := encloses_borrowedRule.reworded t₂
  have h₄ : Reworded alreadyExistsSwaps t₃ t₄ := replaces_alreadyExistsRule.reworded t₃
  have h₅ : Reworded notFoundSwaps t₄ t₅ := replaces_notFoundRule.reworded t₄
  have h₆ : Reworded configurationSwaps t₅ t₆ := encloses_configurationRule.reworded_closing t₅
  have h₇ : Reworded rowToMessageSwaps t₆ t₇ := replaces_rowToMessageRule.reworded t₆
  have hout : (Rule.applyAll storeRules text).text = t₇ := by
    simp only [storeRules, Rule.text_applyAll_cons]
    rfl
  have howned₂ : Unenclosed '"' (denied ++ ['"']) ownedEnd t₂ :=
    encloses_ownedRule.unenclosed_apply hsepOwned (h₁.not_nested howned h.owned)
  have hborrowed₃ : Unenclosed '"' (denied ++ ['"']) [')'] t₃ :=
    encloses_borrowedRule.unenclosed_apply hsepBorrowed
      ((h₁.append h₂).not_nested hborrowed h.borrowed)
  have hexists₄ : Lacks (alreadyExists.toList ++ call) t₄ :=
    replaces_alreadyExistsRule.lacks_apply_of_cut calls_apart.1.1 calls_apart.1.2
      ((h₁.append (h₂.append h₃)).lacks hexists h.alreadyExists)
  have hfound₅ : Lacks (notFound.toList ++ call) t₅ :=
    replaces_notFoundRule.lacks_apply_of_cut calls_apart.2.1 calls_apart.2.2
      ((h₁.append (h₂.append (h₃.append h₄))).lacks hfound h.notFound)
  have hconfiguration₆ : Unenclosed '"' (configuration ++ ['"']) ownedEnd t₆ :=
    encloses_configurationRule.unenclosed_apply hsepConfiguration
      ((h₁.append (h₂.append (h₃.append (h₄.append h₅)))).not_nested hconfiguration
        h.configuration)
  have howned₆ := encloses_configurationRule.unenclosed_of_closing configuration_closesApart.1
    ((h₃.append (h₄.append h₅)).unenclosed howned' howned₂)
  have hborrowed₆ := encloses_configurationRule.unenclosed_of_closing configuration_closesApart.2
    ((h₄.append h₅).unenclosed hborrowed' hborrowed₃)
  rw [hout]
  exact {
    mapErr := (h₂.append (h₃.append (h₄.append (h₅.append (h₆.append h₇))))).lacks hmapErr
      (replaces_mapErrRule.lacks_apply words_separate.1 text)
    owned := h₇.unenclosed howned'' howned₆
    borrowed := h₇.unenclosed hborrowed'' hborrowed₆
    alreadyExists := (h₅.append (h₆.append h₇)).lacks hexists' hexists₄
    notFound := (h₆.append h₇).lacks hfound' hfound₅
    configuration := h₇.unenclosed hconfiguration' hconfiguration₆
    rowToMessage := replaces_rowToMessageRule.lacks_apply words_separate.2 t₆ }

theorem matchesIn_storeRules_eq_nil {text : List Char} (h : StoreSettled text) :
    ∀ r ∈ storeRules, r.pattern.matchesIn text = [] := by
  simp only [storeRules, List.forall_mem_cons]
  exact ⟨replaces_mapErrRule.matchesIn_eq_nil_iff.mpr h.mapErr,
    encloses_ownedRule.matchesIn_eq_nil_iff.mpr h.owned,
    encloses_borrowedRule.matchesIn_eq_nil_iff.mpr h.borrowed,
    replaces_alreadyExistsRule.matchesIn_eq_nil_iff.mpr h.alreadyExists,
    replaces_notFoundRule.matchesIn_eq_nil_iff.mpr h.notFound,
    encloses_configurationRule.matchesIn_eq_nil_iff.mpr h.configuration,
    replaces_rowToMessageRule.matchesIn_eq_nil_iff.mpr h.rowToMessage, nofun⟩

/-- A second application of the rules does nothing if each call was a single one. -/
theorem storeRules_again (source : String) {text : List Char} (h : CalledOnce text) :
    let rules := storeRules ++ rowRules source
    let out := (Rule.applyAll rules text).text
    Rule.applyAll rules out = ⟨out, [], 0⟩ := by
  intro rules out
  have hout :
      out = (Rule.applyAll (rowRules source) (Rule.applyAll storeRules text).text).text := by
    simp only [out, rules, Rule.applyAll_append]
  have hsettled : StoreSettled out := hout ▸ settled_rowRules (settled_storeRules h) source
  refine Rule.applyAll_of_matchesIn_eq_nil (List.forall_mem_append.mpr
    ⟨matchesIn_storeRules_eq_nil hsettled, ?_⟩)
  rw [hout]
  exact matchesIn_rowRules_eq_nil source _

end Amend.BuiltIn
