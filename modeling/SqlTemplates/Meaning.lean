import SqlTemplates.Evaluate

/-!
# The meaning of nodes

The text of a node is said here by recursion on the node alone, without a text that
grows: the text of a row of nodes is the texts of the nodes in a row, the text of a
block is the wrapper around the text of its body, and that of a partial the wrapper
around what the resolver gives.

`Node.write_eq` says that writing a node appends exactly its text, and that its error
does not depend on what was written before.
-/

namespace SqlTemplates.Node

variable {σ : Type}

mutual

/-- The text of a node, by recursion on the node alone. -/
def text (resolve : Resolver σ) (ctx : Context) : Node → Run σ String
  | .content text => return text
  | .literal text => return text
  | .value name => return (ctx.get name).display
  | .paramName name => return (ctx.get name).display
  | .paramNode inner => text resolve ctx inner
  | .partialCall kind path params => do
      let values ← paramValues resolve ctx params
      let text ← resolve.call ctx path (Bindings.bindAll ∅ values)
      return kind.wrap text
  | .ifBlock kind condition body =>
      if kind.printsBody (ctx.get condition).truthy then textAll resolve ctx body else return ""
  | .ifElse kind condition body elseBody =>
      if kind.printsBody (ctx.get condition).truthy then textAll resolve ctx body
      else textAll resolve ctx elseBody
  | .filter kind name => (kind.apply name (ctx.get name) : Except Error String)
  | .block kind body => do
      let text ← textAll resolve ctx body
      return kind.wrap text
  | .sequence items => textAll resolve ctx items

/-- The texts of some nodes in a row. -/
def textAll (resolve : Resolver σ) (ctx : Context) : List Node → Run σ String
  | [] => return ""
  | node :: nodes => do
      let first ← text resolve ctx node
      let rest ← textAll resolve ctx nodes
      return first ++ rest

/-- The values of some parameters, with their names. -/
def paramValues (resolve : Resolver σ) (ctx : Context) :
    List (String × Node) → Run σ (List (String × Value))
  | [] => return []
  | (key, node) :: params => do
      let value ← match node.passedName? with
        | some name => pure (ctx.get name)
        | none => Value.text <$> text resolve ctx node
      let values ← paramValues resolve ctx params
      return (key, value) :: values

end

/-- The texts of two rows of nodes follow each other. -/
theorem textAll_append (resolve : Resolver σ) (ctx : Context) (xs ys : List Node) :
    textAll resolve ctx (xs ++ ys) = do
      let first ← textAll resolve ctx xs
      let rest ← textAll resolve ctx ys
      return first ++ rest := by
  induction xs with
  | nil =>
      rw [List.nil_append, textAll, pure_bind]
      simp only [String.empty_append, bind_pure]
  | cons x xs ih =>
      rw [List.cons_append, textAll, textAll, ih]
      simp only [bind_assoc, pure_bind, String.append_assoc]

@[simp] theorem textAll_singleton (resolve : Resolver σ) (ctx : Context) (node : Node) :
    textAll resolve ctx [node] = node.text resolve ctx := by
  simp [textAll]

/-! ## Writing appends the text -/

mutual

/-- Writing a node appends its text. -/
theorem write_eq (resolve : Resolver σ) (ctx : Context) : ∀ (node : Node) (out : String),
    node.write resolve ctx out = (out ++ ·) <$> node.text resolve ctx
  | .content _, _ | .literal _, _ | .value _, _ | .paramName _, _ => by simp [write, text]
  | .filter _ _, _ => by simp [write, text]
  | .paramNode inner, out => by
      simp [write, text, write_eq resolve ctx inner]
  | .partialCall _ _ params, out => by
      simp [write, text, bindParams_eq resolve ctx params]
  | .ifBlock _ _ body, out => by
      simp only [write, text, writeAll_eq resolve ctx body]
      split <;> simp
  | .ifElse _ _ body elseBody, out => by
      simp only [write, text, writeAll_eq resolve ctx body, writeAll_eq resolve ctx elseBody]
      split <;> rfl
  | .block _ body, out => by
      simp [write, text, writeAll_eq resolve ctx body]
  | .sequence items, out => by
      simp [write, text, writeAll_eq resolve ctx items]

/-- Writing nodes in turn appends their texts in a row. -/
theorem writeAll_eq (resolve : Resolver σ) (ctx : Context) :
    ∀ (nodes : List Node) (out : String),
      writeAll resolve ctx nodes out = (out ++ ·) <$> textAll resolve ctx nodes
  | [], out => by simp [writeAll, textAll]
  | node :: nodes, out => by
      simp [writeAll, textAll, write_eq resolve ctx node, writeAll_eq resolve ctx nodes,
        String.append_assoc]

/-- Parameters are bound one after the other. -/
theorem bindParams_eq (resolve : Resolver σ) (ctx : Context) :
    ∀ (params : List (String × Node)) (bound : Bindings),
      bindParams resolve ctx params bound = bound.bindAll <$> paramValues resolve ctx params
  | [], bound => by simp [bindParams, paramValues]
  | (key, node) :: params, bound => by
      cases h : node.passedName? with
      | some name => simp [bindParams, paramValues, h, bindParams_eq resolve ctx params]
      | none =>
          simp [bindParams, paramValues, h, bindParams_eq resolve ctx params,
            write_eq resolve ctx node]

end

end SqlTemplates.Node
