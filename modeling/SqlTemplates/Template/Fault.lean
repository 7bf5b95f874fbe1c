import SqlTemplates.Text.Search

/-!
# Faults in a template

A template that cannot be read has a first fault.  The message names the fault and
quotes the place: the whole tag, or, where there is no whole tag to quote, at most
thirty-two characters.
-/

namespace SqlTemplates

/-- What is wrong with a template. -/
inductive Fault
  | unclosedTag
  /-- A tag holds nothing but blanks. -/
  | emptyTag
  /-- An else stands outside of every section. -/
  | elseOutside
  | duplicateElse (name : List Char)
  /-- A closing tag stands outside of every section. -/
  | closeOutside
  /-- A closing tag does not name the section that is open. -/
  | wrongClose (name : List Char)
  /-- The text ends inside a section. -/
  | unclosedSection (name : List Char)
  /-- A quoted string goes on without a blank. -/
  | blankExpected
  | unterminatedString
  /-- An equals sign lacks a key or a value. -/
  | pairExpected
  /-- A word is no identifier where one is needed. -/
  | invalidName (word : List Char)
  | emptyExpression
  /-- A tag has more tokens than it can use. -/
  | tooManyArguments
  /-- A partial tag lacks its kind or its path. -/
  | partialExpected
  /-- The path of a partial tag is no quoted dot path. -/
  | invalidPath (word : List Char)
  /-- A parameter of a partial tag is no pair with an identifier as its key. -/
  | parameterExpected (word : List Char)
  | valueMissing
  /-- A condition has no variable. -/
  | variableExpected (name : List Char)
  | argumentsRefused (name : String)
  | elseRefused (name : String)
deriving DecidableEq, Repr

/-- The wording of a fault. -/
def Fault.text : Fault → String
  | .unclosedTag => "unclosed tag"
  | .emptyTag => "empty tag"
  | .elseOutside => "else outside of a section"
  | .duplicateElse name => "duplicate else in section " ++ String.ofList name
  | .closeOutside => "close without a matching open"
  | .wrongClose name => "expected close of section " ++ String.ofList name
  | .unclosedSection name => "unclosed section " ++ String.ofList name
  | .blankExpected => "expected whitespace after string"
  | .unterminatedString => "unterminated string"
  | .pairExpected => "expected key=value"
  | .invalidName word => "invalid name " ++ String.ofList word
  | .emptyExpression => "empty expression"
  | .tooManyArguments => "too many arguments"
  | .partialExpected => "expected partial kind and path"
  | .invalidPath word => "invalid partial path " ++ String.ofList word
  | .parameterExpected word => "expected key=value, found " ++ String.ofList word
  | .valueMissing => "missing parameter value"
  | .variableExpected name => "expected variable after " ++ String.ofList name
  | .argumentsRefused name => name ++ " takes no arguments"
  | .elseRefused name => "unexpected else in " ++ name ++ " block"

/-- A fault and the piece of the template that the message quotes. -/
structure SyntaxError where
  fault : Fault
  /-- The quoted piece. -/
  near : List Char
deriving DecidableEq, Repr

namespace SyntaxError

/-- The message: the fault and the quoted piece. -/
def message (e : SyntaxError) : String :=
  e.fault.text ++ " near \"" ++ String.ofList e.near ++ "\""

/-- A fault that quotes the end of a text. -/
def atEnd (fault : Fault) (s : List Char) : SyntaxError := ⟨fault, Text.lastChars 32 s⟩

end SyntaxError

end SqlTemplates
