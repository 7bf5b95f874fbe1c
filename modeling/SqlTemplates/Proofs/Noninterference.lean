import Mathlib
import SqlTemplates.Proofs.Known
import SqlTemplates.Store.Texts

/-!
# Bindings that do not matter

A template looks at the values of the names that occur in it, and the partials it calls
look at the values of the names that occur in them.  What any other name is bound to
cannot be seen in the outcome, and neither can it be seen whether a name is unbound or
bound to nothing (`Engine.call_of_agreeing`).

Two evaluations go on in contexts that agree on the names in question.  The children of
such contexts agree on them again, since parameters cover the same names in both, and
they are equally deep, so the depth limit ends both or none.
-/

namespace SqlTemplates

variable {σ : Type}

/-! ## Names -/

namespace Node

/-- The name that a template asks for the value of. -/
def Demand.name? : Demand → Option String
  | .value name | .filter _ name => some name
  | .partialCall _ => none

/-- The names that occur in a template as a variable, as a condition, under a filter or
as what a parameter passes on. -/
def names (node : Node) : List String := node.demands.filterMap Demand.name?

theorem mem_names_of_value {node : Node} {name : String} (h : .value name ∈ node.demands) :
    name ∈ node.names :=
  List.mem_filterMap.2 ⟨_, h, rfl⟩

theorem mem_names_of_filter {node : Node} {kind : Filter} {name : String}
    (h : .filter kind name ∈ node.demands) : name ∈ node.names :=
  List.mem_filterMap.2 ⟨_, h, rfl⟩

end Node

/-! ## Contexts that agree -/

/-- The contexts are equally deep and give the same values to these names. -/
structure Context.Agree (Names : String → Prop) (ctx ctx' : Context) : Prop where
  get : ∀ name, Names name → ctx.get name = ctx'.get name
  depth : ctx.depth = ctx'.depth
  maxDepth : ctx.maxDepth = ctx'.maxDepth

/-- The same parameters cover the same names in both contexts. -/
theorem Context.Agree.child {Names : String → Prop} {ctx ctx' : Context}
    (h : Agree Names ctx ctx') (params : Bindings) :
    Agree Names (ctx.child params) (ctx'.child params) where
  get name hname := by rw [get_child, get_child, h.get name hname]
  depth := congrArg (· + 1) h.depth
  maxDepth := h.maxDepth

/-- The runs are equal. -/
def Run.equal : Run.Relation σ σ where
  rel x y := x = y
  pure _ := rfl
  bind hxy hfg := by
    rw [hxy, funext hfg]

/-- The resolver cannot tell contexts that agree on these names. -/
def Resolver.Respects (Names : String → Prop) (resolve : Resolver σ) : Prop :=
  ∀ path ctx ctx', ctx.Agree Names ctx' → resolve path ctx = resolve path ctx'

theorem Resolver.Respects.call {Names : String → Prop} {resolve : Resolver σ}
    (hresolve : resolve.Respects Names) {ctx ctx' : Context} (h : ctx.Agree Names ctx')
    (path : String) (params : Bindings) :
    resolve.call ctx path params = resolve.call ctx' path params := by
  rw [Resolver.call, Resolver.call, h.depth, h.maxDepth, hresolve path _ _ (h.child params)]

/-- A template whose names are among these gives the same in contexts that agree. -/
theorem Resolver.Respects.evaluate {Names : String → Prop} {resolve : Resolver σ}
    (hresolve : resolve.Respects Names) {ctx ctx' : Context} (h : ctx.Agree Names ctx')
    {node : Node} (hnames : ∀ name ∈ node.names, Names name) :
    node.evaluate resolve ctx = node.evaluate resolve ctx' := by
  have hdemands : Run.equal.Alike resolve ctx resolve ctx' node.demands :=
    { value := fun name hm => h.get name (hnames name (Node.mem_names_of_value hm))
      filter := fun kind name hm => by
        rw [h.get name (hnames name (Node.mem_names_of_filter hm))]
        rfl
      call := fun path _ params => hresolve.call h path params }
  exact hdemands.evaluate

/-- Nesting respects the names of all known templates.  The induction is on the levels that
are left. -/
theorem Resolver.respects_nest {known : String → Except Error Node} {Names : String → Prop}
    (hknown : ∀ path node, known path = .ok node → ∀ name ∈ node.names, Names name) (n : Nat) :
    (nest (knownLoad known) n).Respects Names := by
  induction n with
  | zero =>
      intro path ctx ctx' h
      rw [nest]
      dsimp only
      rw [h.maxDepth]
  | succ n ih =>
      intro path ctx ctx' h
      rw [nest]
      dsimp only
      rw [knownLoad]
      cases hk : known path with
      | error e => rfl
      | ok node => exact ih.evaluate h (hknown path node hk)

/-! ## Calls -/

namespace Engine

variable {S : Type} [Source S]

/-- The name occurs in the template, or in one that the engine knows under some path. -/
def Mentions (engine : Engine S) (node : Node) (name : String) : Prop :=
  name ∈ node.names ∨ ∃ path stored,
    engine.memory.known engine.store path = .ok stored ∧ name ∈ stored.names

/-- An engine that remembers only what the store says knows the stored templates that
compile, and no others. -/
theorem mentions_iff_of_faithful {engine : Engine S}
    (h : engine.memory.Faithful engine.store) {node : Node} {name : String} :
    engine.Mentions node name ↔ name ∈ node.names ∨ ∃ path stored,
      compileStored engine.store path = .ok stored ∧ name ∈ stored.names := by
  rw [Mentions, h.known_eq]

/-- A call gives the same for data that agree on all names that occur. -/
theorem call_congr (engine : Engine S) (node : Node) {data data' : Bindings}
    (h : ∀ name, engine.Mentions node name →
      data[name]?.getD .absent = data'[name]?.getD .absent) :
    (engine.call node data).1 = (engine.call node data').1 := by
  have hagree : Context.Agree (engine.Mentions node)
      { data, maxDepth := engine.options.maxDepth }
      { data := data', maxDepth := engine.options.maxDepth } :=
    { get := fun name hname => by simpa [Context.get] using h name hname
      depth := rfl
      maxDepth := rfl }
  have hrespects : (Resolver.nest (knownLoad (engine.memory.known engine.store))
      engine.options.maxDepth).Respects (engine.Mentions node) :=
    Resolver.respects_nest (fun path stored hstored name hname =>
      .inr ⟨path, stored, hstored, hname⟩) engine.options.maxDepth
  rw [call_eq_knownCall, call_eq_knownCall, Node.knownCall, Node.knownCall, Node.call, Node.call,
    hrespects.evaluate hagree fun name hname => .inl hname]

/-- A call gives the same for all data that bind the names that occur in the template, and
in the templates that the engine knows, to the same values, where a name that is not bound
counts as bound to nothing.  So bindings to nothing may be left out, and other names may
be bound. -/
theorem call_of_agreeing (engine : Engine S) (node : Node) (data : Bindings) :
    (∀ data' : Bindings,
        (∀ name, engine.Mentions node name →
          data'[name]?.getD .absent = data[name]?.getD .absent) →
        (engine.call node data').1 = (engine.call node data).1) ∧
      (∀ data' : Bindings,
        (∀ name : String, data'[name]? = data[name]? ∨
          data'[name]? = none ∧ data[name]? = some .absent) →
        (engine.call node data').1 = (engine.call node data).1) ∧
      ∀ more : Bindings, (∀ name ∈ more, ¬ engine.Mentions node name) →
        (engine.call node (data.overlay more)).1 = (engine.call node data).1 := by
  refine ⟨fun data' h => ?_, fun data' h => ?_, fun more h => ?_⟩
  · exact engine.call_congr node h
  · refine engine.call_congr node fun name _ => ?_
    rcases h name with hsame | ⟨hunbound, habsent⟩
    · rw [hsame]
    · rw [hunbound, habsent]
      rfl
  · refine engine.call_congr node fun name hname => ?_
    have hnone : more[name]? = none :=
      Std.ExtTreeMap.getElem?_eq_none fun hm => h name hm hname
    rw [Bindings.getElem?_overlay, hnone]
    rfl

/-- The stored template calls itself and binds the names that it looks at, and the data
differ in an explicit absence and in a name that does not occur. -/
theorem call_of_agreeing_recursive :
    ∃ (engine : Engine Texts) (node : Node) (data data' : Bindings),
      (∀ name, engine.Mentions node name →
        data'[name]?.getD .absent = data[name]?.getD .absent) ∧
      data["off"]? = some .absent ∧ data'["off"]? = none ∧
      data["z"]? = none ∧ data'["z"]? = some (.text "3") ∧
      (engine.call node data').1 = (engine.call node data).1 ∧
      (engine.call node data).1 = .ok "12" := by
  let text := "\x7b\x7bx\x7d\x7d\x7b\x7b#if on\x7d\x7d" ++
    "\x7b\x7b> include 'p' on=off x=y\x7d\x7d\x7b\x7b/if\x7d\x7d"
  let stored : Node := .sequence [.value "x", .ifBlock .whenTrue "on"
    [.partialCall .bare "p" [("on", .paramName "off"), ("x", .paramName "y")]]]
  let engine : Engine Texts := { store := Texts.set {} "p" text }
  let node : Node := .sequence [.partialCall .bare "p" [("on", .paramName "flag")]]
  let data : Bindings := Bindings.bindAll ∅
    [("off", .absent), ("flag", .bool true), ("x", .text "1"), ("y", .text "2")]
  let data' : Bindings := Bindings.bindAll ∅
    [("z", .text "3"), ("flag", .bool true), ("x", .text "1"), ("y", .text "2")]
  have hcompile : compile text = .ok stored := by cbv
  have hmentions : ∀ name, engine.Mentions node name → name ≠ "z" := by
    rintro name hname rfl
    rw [mentions_iff_of_faithful (Memory.Faithful.of_cache_eq_empty rfl)] at hname
    rcases hname with hnode | ⟨path, node', hstored, hname⟩
    · revert hnode
      decide
    · rw [compileStored, Texts.source_set] at hstored
      split at hstored
      · obtain rfl := Except.ok.inj (hcompile.symm.trans hstored)
        revert hname
        decide
      · cases hstored
  have hagree : ∀ name, engine.Mentions node name →
      data'[name]?.getD .absent = data[name]?.getD .absent := by
    intro name hname
    have hz : (name == "z") = false := by simpa using hmentions name hname
    simp only [data, data', Bindings.getElem?_bindAll, List.reverse_cons, List.reverse_nil,
      List.nil_append, List.cons_append, List.lookup_cons, List.lookup_nil, hz]
    cases name == "y" <;> cases name == "x" <;> cases name == "flag" <;>
      cases name == "off" <;> rfl
  refine ⟨engine, node, data, data', hagree, rfl, rfl, rfl, rfl,
    (engine.call_of_agreeing node data).1 data' hagree, by cbv⟩

end Engine

end SqlTemplates
