import SqlTemplates.Bindings
import SqlTemplates.Error

/-!
# Contexts

A template is evaluated in a context: the bindings it sees and how deep it is
nested.  Bindings come in two layers, of which the locals cover the data.

A partial is evaluated in a child context.  Its data are all bindings of the caller,
its locals are the parameters, and it is one deeper.  `Context.get_child` says what
a name is in the child, and that is all that a nested template can see of its
callers.
-/

namespace SqlTemplates

/-- How deep partials may nest unless something else is asked for. -/
def defaultMaxDepth : Nat := 64

/-- What a template is evaluated in. -/
structure Context where
  /-- The bindings from outside. -/
  data : Bindings := ∅
  /-- The bindings that cover them. -/
  locals : Bindings := ∅
  /-- How many partials enclose the template. -/
  depth : Nat := 0
  /-- How many partials may enclose a template. -/
  maxDepth : Nat := defaultMaxDepth

namespace Context

/-- The value of a name, absent if it is not bound. -/
def get (ctx : Context) (name : String) : Value :=
  (ctx.locals[name]?.or ctx.data[name]?).getD .absent

/-- All bindings of a context. -/
def bindings (ctx : Context) : Bindings := ctx.data.overlay ctx.locals

/-- Binds a name in the locals. -/
def bind (ctx : Context) (name : String) (value : Value) : Context :=
  { ctx with locals := ctx.locals.insert name value }

/-- Binds some names in the locals, in turn. -/
def bindAll (ctx : Context) (items : List (String × Value)) : Context :=
  { ctx with locals := ctx.locals.bindAll items }

/-- The context of a partial with these parameters. -/
def child (ctx : Context) (params : Bindings) : Context where
  data := ctx.bindings
  locals := params
  depth := ctx.depth + 1
  maxDepth := ctx.maxDepth

/-- A name is what the bindings say, in both layers together. -/
theorem get_eq_bindings (ctx : Context) (name : String) :
    ctx.get name = ctx.bindings[name]?.getD .absent := by
  rw [bindings, Bindings.getElem?_overlay, get]

/-- A binding is seen under its own name and changes no other. -/
theorem get_bind (ctx : Context) (name other : String) (value : Value) :
    (ctx.bind name value).get other = if name = other then value else ctx.get other := by
  simp only [get, bind, Std.ExtTreeMap.getElem?_insert]
  by_cases h : name = other <;> simp [h]

/-- In a child context a name is its parameter, or else what it was for the caller. -/
theorem get_child (ctx : Context) (params : Bindings) (name : String) :
    (ctx.child params).get name = params[name]?.getD (ctx.get name) := by
  rw [get_eq_bindings ctx]
  show (params[name]?.or ctx.bindings[name]?).getD .absent = _
  cases params[name]? <;> rfl

end Context

/-! ## Runs and resolvers -/

/-- A run reads and changes a state and ends with a result or an error.  What it did
to the state before an error stays done. -/
abbrev Run (σ α : Type) := ExceptT Error (StateM σ) α

/-- Gives the text of the partial under a path in its child context. -/
abbrev Resolver (σ : Type) := String → Context → Run σ String

/-- The text of the partial under a path, called from `ctx` with these parameters.
It is not even looked up when it would be nested too deep. -/
def Resolver.call {σ : Type} (resolve : Resolver σ) (ctx : Context) (path : String)
    (params : Bindings) : Run σ String :=
  if ctx.depth < ctx.maxDepth then resolve path (ctx.child params)
  else throw (.recursionLimit path ctx.maxDepth)

end SqlTemplates
