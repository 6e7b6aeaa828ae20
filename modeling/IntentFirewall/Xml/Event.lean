import IntentFirewall.Xml.Attribute

/-!
# Markup events

A document is read as a sequence of events: tags, texts and comments, in the order in which they
stand. Texts and attribute values are kept as written; whoever needs them unescapes them.
-/

namespace IntentFirewall.Xml

/-- What stands between the angle brackets of a start tag, without a closing slash. -/
structure Tag where
  /-- The name and the attributes, as written. -/
  content : List Char
  deriving DecidableEq, Repr

/-- The name of a tag: what precedes the first white space. -/
def Tag.name (t : Tag) : List Char := t.content.takeWhile (!isSpace ·)

/-- The attributes of a tag, up to the first ill-formed one. -/
def Tag.attributes (t : Tag) : Scan AttributeError RawAttribute := scanAttributes t.content

/-- One piece of a document. -/
inductive Event
  /-- A start tag. -/
  | opened (tag : Tag)
  /-- A tag that is its own end tag. -/
  | selfClosed (tag : Tag)
  /-- The end tag of the innermost open element. -/
  | closed
  /-- Text between markup, without white space at its ends, still escaped. -/
  | text (raw : List Char)
  /-- The content of a CDATA section. -/
  | characterData (content : List Char)
  /-- The content of a comment. -/
  | comment (content : List Char)
  /-- A declaration, processing instruction or document type. -/
  | ignored
  deriving DecidableEq, Repr

/-- Why a document is not a sequence of events. -/
inductive SyntaxError
  /-- `<!` begins neither a comment nor a CDATA section nor a document type. -/
  | unknownMarkup
  /-- A processing instruction or declaration has no end. -/
  | unclosedInstruction
  /-- A comment has no end, or begins with a single dash. -/
  | unclosedComment
  /-- A document type has no end, or begins with another word. -/
  | unclosedDoctype
  /-- A CDATA section has no end, or begins with another word. -/
  | unclosedCharacterData
  /-- A tag has no end. -/
  | unclosedTag
  /-- A document type names nothing. -/
  | missingDoctypeName
  /-- An end tag closes nothing. -/
  | unmatchedEndTag (name : String)
  /-- An end tag does not name the innermost open element. -/
  | mismatchedEndTag (expected found : String)
  deriving DecidableEq, Repr

/-- The wording of a syntax error. -/
def SyntaxError.message : SyntaxError → String
  | .unknownMarkup => "syntax error: unknown or missed symbol in markup"
  | .unclosedInstruction =>
    "syntax error: processing instruction or xml declaration not closed: " ++
      "`?>` not found before end of input"
  | .unclosedComment => "syntax error: comment not closed: `-->` not found before end of input"
  | .unclosedDoctype => "syntax error: DOCTYPE not closed: `>` not found before end of input"
  | .unclosedCharacterData =>
    "syntax error: CDATA not closed: `]]>` not found before end of input"
  | .unclosedTag => "syntax error: tag not closed: `>` not found before end of input"
  | .missingDoctypeName =>
    "ill-formed document: `<!DOCTYPE>` declaration does not contain a name of a document type"
  | .unmatchedEndTag name =>
    s!"ill-formed document: close tag `</{name}>` does not match any open tag"
  | .mismatchedEndTag expected found =>
    s!"ill-formed document: expected `</{expected}>`, but `</{found}>` was found"

/-- A syntax error and the number of bytes read when it was met. -/
structure SyntaxFault where
  /-- What is wrong. -/
  error : SyntaxError
  /-- The number of bytes read. -/
  consumed : Nat
  deriving DecidableEq, Repr

end IntentFirewall.Xml
