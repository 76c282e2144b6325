/-!
# Why a YAML document is refused
-/

set_option autoImplicit false

namespace Amend

/-- The faults of YAML documents. -/
inductive YamlError
  | forbiddenCharacter
  | unexpectedEnd
  /-- No token starts with the character that stands here. -/
  | noToken
  /-- A key must be followed by a colon on its line. -/
  | colonExpected
  | misplacedEntry
  | misplacedKey
  | misplacedValue
  | badDirective
  | badVersion
  | repeatedDirective
  | badAnchor
  | badTag
  | unknownTagHandle
  | tabInIndentation
  | badBlockHeader
  | badEscape
  /-- A line of a quoted text starts with the mark of a document. -/
  | markInQuotes
  | colonInFlow
  | nodeExpected
  | entryExpected
  | keyExpected
  | documentStartExpected
  | noDocument
  | moreThanOneDocument
  | unknownAnchor (name : String)
  /-- A node has not the shape that its place demands. -/
  | wrongShape (expected : String)
  | unknownMember (name : String)
  | repeatedMember (name : String)
  | missingMember (name : String)
  deriving DecidableEq, Repr

/-- The wording of a fault. -/
def YamlError.message : YamlError → String
  | forbiddenCharacter => "control characters are not allowed"
  | unexpectedEnd => "found unexpected end of stream"
  | noToken => "found character that cannot start any token"
  | colonExpected => "could not find expected ':'"
  | misplacedEntry => "block sequence entries are not allowed in this context"
  | misplacedKey => "mapping keys are not allowed in this context"
  | misplacedValue => "mapping values are not allowed in this context"
  | badDirective => "malformed directive"
  | badVersion => "found incompatible YAML document"
  | repeatedDirective => "found duplicate directive"
  | badAnchor => "malformed anchor or alias"
  | badTag => "malformed tag"
  | unknownTagHandle => "found undefined tag handle"
  | tabInIndentation => "found a tab character where indentation is expected"
  | badBlockHeader => "malformed header of a block scalar"
  | badEscape => "malformed escape sequence"
  | markInQuotes => "found unexpected document indicator"
  | colonInFlow => "found unexpected ':'"
  | nodeExpected => "did not find expected node content"
  | entryExpected => "did not find expected ',' or end of collection"
  | keyExpected => "did not find expected key"
  | documentStartExpected => "did not find expected <document start>"
  | noDocument => "end of stream before any document"
  | moreThanOneDocument => "more than one document"
  | unknownAnchor name => s!"unknown anchor '{name}'"
  | wrongShape expected => s!"invalid type, expected {expected}"
  | unknownMember name => s!"unknown field `{name}`"
  | repeatedMember name => s!"duplicate field `{name}`"
  | missingMember name => s!"missing field `{name}`"

end Amend
