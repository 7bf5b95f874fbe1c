import SqlTemplates.Evaluate
import SqlTemplates.Template.Compile

/-!
# The engine

Templates are stored as text under paths, and an engine compiles and evaluates them.

Looking a text up and compiling it may be slow, so the engine remembers the compiled
template of every path it has loaded, if its options say so.  It keeps on using what
it remembers, whatever happens to the stored text, until it is told to forget.  A
load that fails is not remembered.

Evaluation is tied together in `Resolver.nest`: the resolver of a template that may
still nest `n + 1` deep loads a partial and evaluates it with the resolver for `n`.
A context counts the depth up while the resolver counts down, so the last resolver
is never asked.
-/

namespace SqlTemplates

/-! ## Sources -/

/-- A kind of store that texts are looked up in by path. -/
class Source (S : Type) where
  /-- The text under a path. -/
  source : S → String → Except Error String

export Source (source)

/-! ## Tying the knot -/

/-- The resolver for templates that may nest so deep, given how a path is loaded. -/
def Resolver.nest {σ : Type} (load : String → Run σ Node) : Nat → Resolver σ
  | 0 => fun path ctx => throw (.recursionLimit path ctx.maxDepth)
  | n + 1 => fun path ctx => do
      let node ← load path
      node.evaluate (nest load n) ctx

/-- The text of a template with these bindings, when nothing encloses it. -/
def Node.call {σ : Type} (load : String → Run σ Node) (maxDepth : Nat) (node : Node)
    (data : Bindings) : Run σ String :=
  node.evaluate (Resolver.nest load maxDepth) { data, maxDepth }

/-! ## Loading -/

/-- The settings of an engine. -/
structure Options where
  /-- How many partials may enclose a template. -/
  maxDepth : Nat := defaultMaxDepth
  /-- Whether compiled templates are remembered. -/
  cache : Bool := true
deriving DecidableEq, Repr

/-- What an engine remembers. -/
structure Memory where
  /-- The compiled template of each path that was loaded. -/
  cache : Std.ExtTreeMap String Node := ∅
  /-- The paths that were looked up in the store, the last one first. -/
  lookups : List String := []

namespace Memory

/-- Takes down that a path is looked up. -/
def record (memory : Memory) (path : String) : Memory :=
  { memory with lookups := path :: memory.lookups }

/-- Remembers the compiled template of a path. -/
def remember (memory : Memory) (path : String) (node : Node) : Memory :=
  { memory with cache := memory.cache.insert path node }

/-- Forgets all compiled templates. -/
def forget (memory : Memory) : Memory := { memory with cache := ∅ }

end Memory

/-- An engine: a store of texts, the settings and the memory. -/
structure Engine (S : Type) where
  /-- Where texts are looked up. -/
  store : S
  options : Options := {}
  /-- What has been loaded. -/
  memory : Memory := {}

namespace Engine

variable {S : Type} [Source S]

/-- Looks a path up in the store. -/
def lookup (store : S) (path : String) : Run Memory String := do
  modify (·.record path)
  (source store path : Except Error String)

/-- The compiled template of a path. -/
def load (store : S) (options : Options) (path : String) : Run Memory Node := do
  match (← get).cache[path]? with
  | some node => return node
  | none =>
      let node ← (compile (← lookup store path) : Except Error Node)
      if options.cache then modify (·.remember path node)
      return node

/-- The text of a compiled template with these bindings. -/
def callNode (store : S) (options : Options) (node : Node) (data : Bindings) :
    Run Memory String :=
  node.call (load store options) options.maxDepth data

/-- The text of the template stored under a path, with these bindings. -/
def renderPath (store : S) (options : Options) (path : String) (data : Bindings) :
    Run Memory String := do
  let node ← load store options path
  callNode store options node data

/-- The result of a run on the engine's memory, and the engine after it. -/
def perform {α : Type} (engine : Engine S) (run : Run Memory α) : Except Error α × Engine S :=
  let (result, memory) := run.run.run engine.memory
  (result, { engine with memory })

/-- Looks up the text under a path. -/
def text (engine : Engine S) (path : String) : Except Error String × Engine S :=
  engine.perform (lookup engine.store path)

/-- Evaluates the template stored under a path. -/
def render (engine : Engine S) (path : String) (data : Bindings) :
    Except Error String × Engine S :=
  engine.perform (renderPath engine.store engine.options path data)

/-- Evaluates a compiled template. -/
def call (engine : Engine S) (node : Node) (data : Bindings) : Except Error String × Engine S :=
  engine.perform (callNode engine.store engine.options node data)

/-- The engine with nothing remembered. -/
def clearCache (engine : Engine S) : Engine S := { engine with memory := engine.memory.forget }

end Engine

end SqlTemplates
