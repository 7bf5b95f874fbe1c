import SqlTemplates.Template.Fault
import SqlTemplates.Template.Kind

/-!
# Errors

An error ends the compilation or the evaluation that meets it: there is no partial
text, and nothing is tried again.  Its cause is a constructor here, and its wording
is `Error.message`.
-/

namespace SqlTemplates

/-- Why a file of templates cannot be read. -/
inductive ReadFault
  | missing
  | notUtf8
deriving DecidableEq, Repr

/-- The wording of a read fault. -/
def ReadFault.text : ReadFault → String
  | .missing => "No such file or directory (os error 2)"
  | .notUtf8 => "stream did not contain valid UTF-8"

/-- Why there is no text. -/
inductive Error
  /-- A filter does not take the value of its parameter. -/
  | filterType (parameter : String) (filter : Filter)
  | unknownFilter (name : String)
  | unknownPartialKind (name : String)
  | unknownBlockKind (name : String)
  /-- No template is stored under this path. -/
  | partialNotFound (path : String)
  /-- A partial would be nested deeper than the limit. -/
  | recursionLimit (path : String) (limit : Nat)
  | syntaxError (error : SyntaxError)
  | unreadable (file : String) (fault : ReadFault)
  /-- The path of a template file is no dot path. -/
  | invalidTemplatePath (file : String)
  | missingRoot (root : String)
  /-- The data is JSON but no object; its compact text is kept. -/
  | invalidData (found : String)
deriving DecidableEq, Repr

namespace Error

/-- The wording of an error. -/
def message : Error → String
  | .filterType parameter filter =>
      "expected input for: " ++ parameter ++ " to be " ++ filter.expected
  | .unknownFilter name => "unexpected filter name: " ++ name
  | .unknownPartialKind name => "unexpected partial kind: " ++ name
  | .unknownBlockKind name => "unexpected block kind: " ++ name
  | .partialNotFound path => "partial not found: " ++ path
  | .recursionLimit path limit =>
      "partial " ++ path ++ " exceeds the maximum nesting depth of " ++ toString limit
  | .syntaxError error => "parse error: " ++ error.message
  | .unreadable file fault => "failed to read template " ++ file ++ ": " ++ fault.text
  | .invalidTemplatePath file =>
      "template file " ++ file ++ " cannot be addressed by a dot path"
  | .missingRoot root =>
      "failed to index template directory: IO error for operation on " ++ root ++ ": "
        ++ ReadFault.missing.text
  | .invalidData found =>
      "invalid template data: expected a JSON object at the top level, found " ++ found

end Error

end SqlTemplates
