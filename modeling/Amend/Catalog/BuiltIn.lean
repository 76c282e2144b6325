import Amend.Catalog.Basic

/-!
# The built-in catalog

Fixes for the sources of a chat server: constructors of errors that changed, a renamed filter, a
match arm that stands twice, and imports that are no longer used. Rules run top to bottom and each
one sees what the one before it left.
-/

set_option autoImplicit false

namespace Amend.BuiltIn

/-- A rule that replaces what `pattern` matches. -/
def replacing (id pattern replacement : String) (description : Option String := none) :
    RuleDefinition where
  id
  description
  pattern
  exact := false
  replace := some replacement
  wrap := none
  delete := false
  maxApplications := none

/-- A rule that replaces a plain text. -/
def replacingText (id text replacement : String) (description : Option String := none) :
    RuleDefinition :=
  { replacing id text replacement description with exact := true }

/-- A rule that builds a new text around groups of `pattern`. -/
def wrapping (id pattern template : String) : RuleDefinition :=
  { replacing id pattern template with replace := none, wrap := some template }

/-- A rule that deletes matches of `pattern`, at most `most` at a time. -/
def deleting (id pattern : String) (most : Nat) : RuleDefinition :=
  { replacing id pattern "" with
    replace := none, delete := true, maxApplications := some most }

/-- Error constructors that changed, and reads of fields of a row. -/
def messageStoreErrors : RuleSetDefinition where
  name := "message-store-errors"
  description := some "Error constructor drift and raw row field reads"
  files := [⟨"src/message_store.rs"⟩]
  rules := [
    replacing "map-err-database"
      "\\.map_err\\(ChatError::Database\\)\\?"
      ".map_err(|e| ChatError::database_error(\"database_operation\", e))?"
      (some "ChatError::Database is no longer a tuple constructor"),
    replacing "permission-denied-owned"
      "ChatError::PermissionDenied\\(\"([^\"]+)\"\\.to_string\\(\\)\\)"
      "ChatError::PermissionDenied \x7b message: \"$\x7b1\x7d\".to_string() \x7d",
    replacing "permission-denied-borrowed"
      "ChatError::PermissionDenied\\(\"([^\"]+)\"\\)"
      "ChatError::PermissionDenied \x7b message: \"$\x7b1\x7d\".to_string() \x7d",
    replacingText "reaction-already-exists-unit"
      "ChatError::ReactionAlreadyExists()"
      "ChatError::ReactionAlreadyExists"
      (some "unit variant called like a function"),
    replacingText "reaction-not-found-unit"
      "ChatError::ReactionNotFound()"
      "ChatError::ReactionNotFound",
    replacing "configuration-error-borrowed"
      "ChatError::configuration_error\\(\"([^\"]+)\"\\.to_string\\(\\)\\)"
      "ChatError::configuration_error(\"$\x7b1\x7d\")",
    replacingText "row-to-message-generic"
      "async fn row_to_message(&self, row: sqlx::Row) -> Result<Message>"
      "async fn row_to_message<R: sqlx::Row>(&self, row: R) -> Result<Message>"
      (some "sqlx::Row is a trait, not a concrete type")]
  fields := some {
    receiver := some "row"
    accessor := none
    names := ["id", "content", "author_id", "author_username", "room_id", "recipient_id",
      "recipient_username", "created_at", "updated_at", "status", "is_pinned", "is_edited",
      "original_content", "parent_message_id", "thread_count", "is_flagged", "moderation_notes",
      "message_type", "mention_ids"] }

/-- The content filter has one method left. -/
def contentFilterApi : RuleSetDefinition where
  name := "content-filter-api"
  description := some "ContentFilter only exposes validate_content now"
  files := [⟨"src/message_handler.rs"⟩]
  rules := [
    wrapping "validate-room-name"
      "self\\.content_filter\\.validate_room_name\\((?P<arg>[^)]+)\\)"
      "self.content_filter.validate_content(\x7barg\x7d)",
    wrapping "sanitize-content"
      "self\\.content_filter\\.sanitize_content\\((?P<arg>[^)]+)\\)"
      "self.content_filter.validate_content(\x7barg\x7d)"]
  fields := none

/-- A match arm that stands twice. -/
def duplicateStatusArm : RuleSetDefinition where
  name := "duplicate-status-arm"
  description := some "MessageTooLong is mapped twice in the status code match"
  files := [⟨"src/error.rs"⟩]
  rules := [
    deleting "duplicate-message-too-long-arm"
      "(?m)^[ \\t]*Self::MessageTooLong \\\x7b \\.\\. \\\x7d => 413,[ \\t]*\\r?\\n" 1]
  fields := none

/-- Imports and bindings without a use. The longer tails of import lists come first, since their
ends have rules of their own. -/
def unusedImports : RuleSetDefinition where
  name := "unused-imports"
  description := some "Imports and bindings left over after the websocket refactor"
  files := [⟨"src/hub/channel_websocket.rs"⟩, ⟨"src/hub/direct_messages_websocket.rs"⟩,
    ⟨"src/moderation.rs"⟩, ⟨"src/monitoring.rs"⟩, ⟨"src/security.rs"⟩, ⟨"src/websocket.rs"⟩]
  rules := [
    replacing "unused-tungstenite-message"
      "(?m)^use [\\w:]*tungstenite::Message;\\r?\\n" "",
    replacing "unused-hashmap" "(?m)^use std::collections::HashMap;\\r?\\n" "",
    replacing "unused-result-alias" "(?m)^use crate::error::Result;\\r?\\n" "",
    replacing "unused-tracing-error" "(use tracing::\\\x7b[^\x7d]*?), error\\b" "$\x7b1\x7d",
    replacingText "unused-system-time" ", SystemTime, UNIX_EPOCH" "",
    replacingText "unused-unix-epoch" ", UNIX_EPOCH" "",
    replacingText "unused-serde-derives" ", Serialize, Deserialize" "",
    replacingText "unused-deserialize" ", Deserialize" "",
    replacingText "unused-ws-result" ", Result as WsResult" "",
    replacing "unused-blocked-by" "\\blet blocked_by\\b" "let _blocked_by",
    replacing "needless-mut-config" "\\blet mut config\\b" "let config"]
  fields := none

/-- The definition of the built-in catalog. -/
def definition : CatalogDefinition :=
  ⟨[messageStoreErrors, contentFilterApi, duplicateStatusArm, unusedImports]⟩

end Amend.BuiltIn

namespace Amend

/-- The catalog that is used where no other is named. -/
def Catalog.builtIn : Except ConfigFault Catalog :=
  Catalog.ofDefinition BuiltIn.definition

end Amend
