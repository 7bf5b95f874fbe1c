import SqlTemplates.Name
import SqlTemplates.Error
import SqlTemplates.Template.Node
import SqlTemplates.Template.Token
import SqlTemplates.Template.Tree

/-!
# Compilation

The trees of a template become nodes.  Every word that names a kind is resolved
here, so an unknown filter, partial kind or section fails before any data is bound.

* `{{name}}` prints a value, `{{'text'}}` a text and `{{filter name}}` a value that
  passes a filter.
* `{{> kind 'dot.path' key=value}}` includes a stored template.
* `{{#if name}}` and `{{#unless name}}` print one of two branches.  Every other
  section names a wrapper and takes neither arguments nor an else.

The sections are compiled from the outside in and from left to right, and the first
error is the one that counts.
-/

namespace SqlTemplates

namespace Compile

/-! ## Tags -/

/-- The error of a fault that quotes a tag. -/
def fail {α : Type} (fault : Fault) (raw : List Char) : Except Error α :=
  .error (.syntaxError ⟨fault, raw⟩)

/-- The tokens of a tag's content. -/
def tokens (content : List Char) : Except Error (List Token) :=
  (Token.tokens content).mapError .syntaxError

/-- The identifier that a token is. -/
def identifier (raw : List Char) : Token → Except Error String
  | .name word =>
      if Name.isIdentifier word then .ok (String.ofList word) else fail (.invalidName word) raw
  | token => fail (.invalidName token.value) raw

/-- The filter that a word names. -/
def filterNamed (name : String) : Except Error Filter :=
  match Filter.ofName? name with
  | some kind => .ok kind
  | none => .error (.unknownFilter name)

/-- The wrapper that a word names in a partial. -/
def partialKindNamed (name : String) : Except Error Wrapper :=
  match Wrapper.ofPartialName? name with
  | some kind => .ok kind
  | none => .error (.unknownPartialKind name)

/-- The wrapper that a word names in a block. -/
def blockKindNamed (name : String) : Except Error Wrapper :=
  match Wrapper.ofBlockName? name with
  | some kind => .ok kind
  | none => .error (.unknownBlockKind name)

/-- The branch that a word names in a section. -/
def branchNamed (name : String) : Except Error Branch :=
  match Branch.ofName? name with
  | some kind => .ok kind
  | none => .error (.unknownBlockKind name)

/-- The node of an expression. -/
def ofExpression (content raw : List Char) : Except Error Node := do
  match ← tokens content with
  | [] => fail .emptyExpression raw
  | [.literal text] => return .literal (String.ofList text)
  | [name] => return .value (← identifier raw name)
  | [filter, name] =>
      let kind ← filterNamed (← identifier raw filter)
      return .filter kind (← identifier raw name)
  | _ => fail .tooManyArguments raw

/-- The node of a parameter's value: a literal, or a name to look up. -/
def ofParameterValue (raw value : List Char) : Except Error Node := do
  match ← (Token.first? value).mapError .syntaxError with
  | none => fail .valueMissing raw
  | some (.literal text, _) => return .paramNode (.literal (String.ofList text))
  | some (token, _) => return .paramName (← identifier raw token)

/-- A parameter of a partial: its name and its node. -/
def ofParameter (raw : List Char) : Token → Except Error (String × Node)
  | .pair key value => do
      if Name.isIdentifier key then return (String.ofList key, ← ofParameterValue raw value)
      else fail (.parameterExpected value) raw
  | token => fail (.parameterExpected token.value) raw

/-- The path that a token quotes. -/
def quotedPath (raw : List Char) : Token → Except Error String
  | .literal path =>
      if Name.isDotPath path then .ok (String.ofList path) else fail (.invalidPath path) raw
  | token => fail (.invalidPath token.value) raw

/-- The node of an included template. -/
def ofInclusion (content raw : List Char) : Except Error Node := do
  match ← tokens content with
  | kind :: path :: params =>
      let kind ← partialKindNamed (← identifier raw kind)
      let path ← quotedPath raw path
      return .partialCall kind path (← params.mapM (ofParameter raw))
  | _ => fail .partialExpected raw

/-! ## Sections -/

/-- What the tag that opens a section asks for. -/
inductive Head
  /-- A branch on the truth of a value. -/
  | condition (kind : Branch) (name : String)
  | wrapper (kind : Wrapper)
deriving DecidableEq, Repr

/-- The variable of a condition. -/
def conditionName (opening : Opening) : List Token → Except Error String
  | [name] => identifier opening.raw name
  | [] => fail (.variableExpected opening.name) opening.raw
  | _ => fail .tooManyArguments opening.raw

/-- Reads the tag that opens a section. -/
def headOf (opening : Opening) : Except Error Head := do
  let args ← tokens opening.args
  match Branch.ofName? (String.ofList opening.name) with
  | some kind => return .condition kind (← conditionName opening args)
  | none =>
      let kind ← blockKindNamed (String.ofList opening.name)
      if args.isEmpty then return .wrapper kind
      else fail (.argumentsRefused kind.blockName) opening.raw

mutual

/-- The node of a tree. -/
def ofTree : Tree → Except Error Node
  | .text s => .ok (.content (String.ofList s))
  | .expression content raw => ofExpression content raw
  | .inclusion content raw => ofInclusion content raw
  | .block opening body => do
      match ← headOf opening with
      | .condition kind name => return .ifBlock kind name (← ofTrees body)
      | .wrapper kind => return .block kind (← ofTrees body)
  | .blockElse opening body elseBody => do
      match ← headOf opening with
      | .condition kind name => return .ifElse kind name (← ofTrees body) (← ofTrees elseBody)
      | .wrapper kind => fail (.elseRefused kind.blockName) opening.raw

/-- The nodes of some trees. -/
def ofTrees : List Tree → Except Error (List Node)
  | [] => .ok []
  | tree :: trees => do
      let node ← ofTree tree
      return node :: (← ofTrees trees)

end

end Compile

/-- Compiles a template. -/
def compile (template : String) : Except Error Node := do
  let trees ← (Tree.parse template.toList).mapError .syntaxError
  return .sequence (← Compile.ofTrees trees)

end SqlTemplates
