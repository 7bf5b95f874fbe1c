import SqlTemplates.Context
import SqlTemplates.Literal
import SqlTemplates.Template.Node

/-!
# Evaluation

`Node.write` appends the text of a node to what has been written so far.  Blocks,
partials and parameters write to a text of their own first, since a wrapper goes
around it.  The first error in the order of the template ends the evaluation.

The parameters of a partial are evaluated in the caller's context, one after the
other, before the partial is looked up.  A name keeps its value with its type; any
other parameter becomes a text.
-/

namespace SqlTemplates.Node

variable {σ : Type}

/-- The name that a parameter passes on as it is. -/
def passedName? : Node → Option String
  | .paramName name => some name
  | .value name => some name
  | _ => none

/-! ## Writing -/

mutual

/-- Appends the text of a node to `out`. -/
def write (resolve : Resolver σ) (ctx : Context) : Node → String → Run σ String
  | .content text, out => return out ++ text
  | .literal text, out => return out ++ text
  | .value name, out => return out ++ (ctx.get name).display
  | .paramName name, out => return out ++ (ctx.get name).display
  | .paramNode inner, out => do
      let text ← write resolve ctx inner ""
      return out ++ text
  | .partialCall kind path params, out => do
      let bound ← bindParams resolve ctx params ∅
      let text ← resolve.call ctx path bound
      return out ++ kind.wrap text
  | .ifBlock kind condition body, out =>
      if kind.printsBody (ctx.get condition).truthy then writeAll resolve ctx body out
      else return out
  | .ifElse kind condition body elseBody, out =>
      if kind.printsBody (ctx.get condition).truthy then writeAll resolve ctx body out
      else writeAll resolve ctx elseBody out
  | .filter kind name, out => do
      let text ← (kind.apply name (ctx.get name) : Except Error String)
      return out ++ text
  | .block kind body, out => do
      let text ← writeAll resolve ctx body ""
      return out ++ kind.wrap text
  | .sequence items, out => writeAll resolve ctx items out

/-- Appends the texts of some nodes to `out`, in turn. -/
def writeAll (resolve : Resolver σ) (ctx : Context) : List Node → String → Run σ String
  | [], out => return out
  | node :: nodes, out => do
      let out ← write resolve ctx node out
      writeAll resolve ctx nodes out

/-- Evaluates parameters in turn and binds them on top of `bound`. -/
def bindParams (resolve : Resolver σ) (ctx : Context) :
    List (String × Node) → Bindings → Run σ Bindings
  | [], bound => return bound
  | (key, node) :: params, bound =>
      match node.passedName? with
      | some name => bindParams resolve ctx params (bound.insert key (ctx.get name))
      | none => do
          let text ← write resolve ctx node ""
          bindParams resolve ctx params (bound.insert key (.text text))

end

/-- The text of a node in a context. -/
def evaluate (resolve : Resolver σ) (node : Node) (ctx : Context) : Run σ String :=
  node.write resolve ctx ""

end SqlTemplates.Node
