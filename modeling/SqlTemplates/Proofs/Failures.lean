import Mathlib
import SqlTemplates.Proofs.Caching
import SqlTemplates.Proofs.Journal
import SqlTemplates.Proofs.Known

/-!
# Why an evaluation fails

An error is passed on unchanged from where it arises, through all templates that enclose
it.  So it always comes from a node: a filter that does not take its value, or a partial that
cannot be loaded or would be nested too deep (`Node.Failure`).

Compiling is over when an evaluation starts, and the stored texts are compiled as they are
loaded.  If all of them compile, what is left depends on the data and on which texts are
there at all (`Engine.DataError`).
-/

namespace SqlTemplates

/-! ## Errors that are passed on -/

/-- The first run, which has no state, fails only with these errors. -/
def Run.failingOnly (Allowed : Error → Prop) : Run.Relation Unit Unit where
  rel x _ := ∀ e, x.result () = .error e → Allowed e
  pure _ _ h := nomatch h
  bind {_ _ x _ f _} hx hf e h := by
    rw [result_bind] at h
    cases hr : x.result () with
    | error e' =>
        rw [hr] at h
        cases h
        exact hx e hr
    | ok a =>
        rw [hr] at h
        exact hf a e h

/-- A filter that fails says which parameter it could not take. -/
theorem Filter.eq_filterType_of_apply {kind : Filter} {name : String} {value : Value}
    {e : Error} (h : kind.apply name value = .error e) : e = .filterType name kind := by
  rw [apply] at h
  split at h <;> cases h
  rfl

/-! ## Errors of nodes -/

namespace Node

/-- How the evaluation of some templates can fail, given what is known under every path. -/
inductive Failure (known : String → Except Error Node) (maxDepth : Nat)
    (Template : Node → Prop) : Error → Prop
  /-- A filter in one of them does not take its value. -/
  | filter {node : Node} {kind : Filter} {name : String} :
      Template node → .filter kind name ∈ node.demands →
      Failure known maxDepth Template (.filterType name kind)
  /-- A partial in one of them cannot be loaded. -/
  | load {node : Node} {path : String} {e : Error} :
      Template node → .partialCall path ∈ node.demands → known path = .error e →
      Failure known maxDepth Template e
  /-- A partial in one of them would be nested too deep. -/
  | limit {node : Node} {path : String} :
      Template node → .partialCall path ∈ node.demands →
      Failure known maxDepth Template (.recursionLimit path maxDepth)

section

variable {known : String → Except Error Node} {maxDepth : Nat} {Template : Node → Prop}

/-- A template fails only so if the calls of its partials do. -/
theorem evaluate_failingOnly {resolve : Resolver Unit} {ctx : Context} {node : Node}
    (hnode : Template node)
    (hcall : ∀ path, .partialCall path ∈ node.demands → ∀ params,
      (Run.failingOnly (Failure known maxDepth Template)).rel (resolve.call ctx path params)
        (resolve.call ctx path params)) :
    (Run.failingOnly (Failure known maxDepth Template)).rel (node.evaluate resolve ctx)
      (node.evaluate resolve ctx) := by
  refine Run.Relation.Alike.evaluate ⟨fun _ _ => rfl, fun kind name hfilter e h => ?_, hcall⟩
  rw [Run.result, Run.exec_ofExcept] at h
  rw [Filter.eq_filterType_of_apply h]
  exact .filter hnode hfilter

/-- The call of a partial of a template fails only so.  The induction is on the levels that
are left: at the last one, and at the depth limit, the partial is too deep. -/
theorem call_failingOnly (hknown : ∀ path node, known path = .ok node → Template node) :
    ∀ (n : Nat) {ctx : Context}, ctx.maxDepth = maxDepth →
      ∀ {node : Node}, Template node → ∀ path, .partialCall path ∈ node.demands → ∀ params,
        (Run.failingOnly (Failure known maxDepth Template)).rel
          ((Resolver.nest (knownLoad known) n).call ctx path params)
          ((Resolver.nest (knownLoad known) n).call ctx path params) := by
  intro n
  induction n with
  | zero =>
      intro ctx hmax node hnode path hpath params e h
      obtain rfl : Error.recursionLimit path ctx.maxDepth = e := by
        rw [Resolver.call] at h
        split at h <;> exact Except.error.inj h
      exact hmax ▸ .limit hnode hpath
  | succ n ih =>
      intro ctx hmax node hnode path hpath params
      rw [Resolver.call]
      split
      · intro e h
        rw [Resolver.nest, Run.result_bind, Run.result, knownLoad, Run.exec_ofExcept] at h
        cases hk : known path with
        | error e' =>
            rw [hk] at h
            cases h
            exact .load hnode hpath hk
        | ok stored =>
            rw [hk] at h
            have hstored := hknown path stored hk
            have hchild : (ctx.child params).maxDepth = maxDepth := hmax
            exact evaluate_failingOnly hstored (ih hchild hstored) e h
      · intro e h
        obtain rfl : Error.recursionLimit path ctx.maxDepth = e := Except.error.inj h
        exact hmax ▸ .limit hnode hpath

/-- A call fails only for what is in the template or in one that is known. -/
theorem failure_of_knownCall (hknown : ∀ path node, known path = .ok node → Template node)
    {node : Node} (hnode : Template node) {data : Bindings} {e : Error}
    (h : node.knownCall known maxDepth data = .error e) : Failure known maxDepth Template e :=
  evaluate_failingOnly hnode (call_failingOnly hknown maxDepth rfl hnode) e h

end

end Node

/-! ## Errors of an engine -/

/-- Every stored text is a template. -/
def Texts.Compiles (store : Texts) : Prop :=
  ∀ path text : String, store.texts[path]? = some text → ∃ node, compile text = .ok node

/-- Under a path there is the template of the stored text, or nothing is stored. -/
theorem Texts.Compiles.compileStored_eq {store : Texts} (h : store.Compiles) (path : String) :
    (∃ text node, store.texts[path]? = some text ∧ compile text = .ok node ∧
        compileStored store path = .ok node) ∨
      store.texts[path]? = none ∧
        compileStored store path = .error (.partialNotFound path) := by
  cases htext : store.texts[path]? with
  | none =>
      refine .inr ⟨rfl, ?_⟩
      simp only [compileStored, source, htext]
      rfl
  | some text =>
      obtain ⟨node, hnode⟩ := h path text htext
      refine .inl ⟨text, node, rfl, hnode, ?_⟩
      simp only [compileStored, source, htext]
      exact hnode

namespace Engine

/-- The template is the one that is called, or a stored one. -/
inductive Involves (engine : Engine Texts) : Start → Node → Prop
  | called {node : Node} : Involves engine (.template node) node
  | stored {start : Start} {path text : String} {node : Node} :
      engine.store.texts[path]? = some text → compile text = .ok node →
      Involves engine start node

/-- A partial with this path stands in the template that is called or in a stored one. -/
def HasPartial (engine : Engine Texts) (start : Start) (path : String) : Prop :=
  ∃ node, engine.Involves start node ∧ .partialCall path ∈ node.demands

/-- The errors that depend on the data, on the limit and on what is stored. -/
inductive DataError (engine : Engine Texts) (start : Start) : Error → Prop
  /-- A filter does not take the value of its parameter. -/
  | filterType {node : Node} {kind : Filter} {name : String} :
      engine.Involves start node → .filter kind name ∈ node.demands →
      DataError engine start (.filterType name kind)
  /-- Nothing is stored under the path of a partial, or under the path that is rendered. -/
  | partialNotFound {path : String} :
      start = .stored path ∨ engine.HasPartial start path →
      engine.store.texts[path]? = none →
      DataError engine start (.partialNotFound path)
  /-- A partial is nested deeper than the limit. -/
  | recursionLimit {path : String} :
      engine.HasPartial start path →
      DataError engine start (.recursionLimit path engine.options.maxDepth)

variable {engine : Engine Texts}

/-- Compiling never ends in an error that depends on the data. -/
theorem DataError.ne_of_compiling {start : Start} {e : Error} (h : engine.DataError start e) :
    (∀ error, e ≠ .syntaxError error) ∧ ∀ name, e ≠ .unknownFilter name ∧
      e ≠ .unknownPartialKind name ∧ e ≠ .unknownBlockKind name := by
  cases h <;> simp

/-- If all stored texts compile, failures depend on the data. -/
theorem DataError.of_failure (hstore : engine.store.Compiles) {start : Start} {e : Error}
    (h : Node.Failure (compileStored engine.store) engine.options.maxDepth
      (engine.Involves start) e) : engine.DataError start e := by
  cases h with
  | filter hnode hfilter => exact .filterType hnode hfilter
  | @load node path _ hnode hpath herror =>
      rcases hstore.compileStored_eq path with ⟨_, _, -, -, hok⟩ | ⟨hnone, hmissing⟩
      · rw [hok] at herror
        cases herror
      · rw [hmissing] at herror
        cases herror
        exact .partialNotFound (.inr ⟨node, hnode, hpath⟩) hnone
  | limit hnode hpath => exact .recursionLimit ⟨_, hnode, hpath⟩

/-- If all stored texts compile, a call of an engine that remembers nothing else fails only
for what is in the template or in a stored one. -/
theorem dataError_of_plainCall (hstore : engine.store.Compiles) {start : Start} {node : Node}
    (hnode : engine.Involves start node) {data : Bindings} {e : Error}
    (h : node.plainCall engine.store engine.options.maxDepth data = .error e) :
    engine.DataError start e := by
  refine .of_failure hstore (Node.failure_of_knownCall (fun path stored hstored => ?_) hnode h)
  rcases hstore.compileStored_eq path with ⟨text, other, htext, hcompile, hok⟩ | ⟨-, hmissing⟩
  · obtain rfl := Except.ok.inj (hok.symm.trans hstored)
    exact .stored htext hcompile
  · rw [hmissing] at hstored
    cases hstored

/-- If all stored texts compile, and nothing else is remembered, a call or a render gives a
text, or it fails for the data: at a filter of the template or of a stored one, at a path of
a partial that nothing is stored under, or at a partial that is nested deeper than the limit.
It never fails as compiling does. -/
theorem outcome_of_compiles (engine : Engine Texts) (hstore : engine.store.Compiles)
    (hmemory : engine.memory.Faithful engine.store) (start : Start) (data : Bindings) :
    (∃ text, engine.outcome start data = .ok text) ∨
      ∃ e, engine.outcome start data = .error e ∧ engine.DataError start e ∧
        (∀ error, e ≠ .syntaxError error) ∧ ∀ name, e ≠ .unknownFilter name ∧
          e ≠ .unknownPartialKind name ∧ e ≠ .unknownBlockKind name := by
  cases hout : engine.outcome start data with
  | ok text => exact .inl ⟨text, rfl⟩
  | error e =>
      suffices h : engine.DataError start e from .inr ⟨e, rfl, h, h.ne_of_compiling⟩
      cases start with
      | template node =>
          rw [outcome, (engine.call_of_faithful hmemory node data).1] at hout
          exact dataError_of_plainCall hstore .called hout
      | stored path =>
          rw [outcome, (engine.render_of_faithful hmemory path data).1, Run.result_bind,
            Run.result, plainLoad, Run.exec_ofExcept] at hout
          rcases hstore.compileStored_eq path with ⟨text, node, htext, hnode, hok⟩ | ⟨hnone, herror⟩
          · rw [hok] at hout
            exact dataError_of_plainCall hstore (.stored htext hnode) hout
          · rw [herror] at hout
            cases hout
            exact .partialNotFound (.inl rfl) hnone

/-- A stored template includes one with a filter, and then one that is not there. -/
theorem outcome_of_compiles_missing :
    ∃ (engine : Engine Texts) (data data' : Bindings), engine.store.Compiles ∧
      engine.memory.Faithful engine.store ∧
      engine.outcome (.stored "a") data = .error (.filterType "n" .int) ∧
      engine.DataError (.stored "a") (.filterType "n" .int) ∧
      engine.outcome (.stored "a") data' = .error (.partialNotFound "c") ∧
      engine.DataError (.stored "a") (.partialNotFound "c") := by
  let outer := "\x7b\x7b> include 'b'\x7d\x7d\x7b\x7b> include 'c'\x7d\x7d"
  let inner := "\x7b\x7bint n\x7d\x7d"
  let engine : Engine Texts := { store := Texts.set (Texts.set {} "b" inner) "a" outer }
  have houter : compile outer =
      .ok (.sequence [.partialCall .bare "b" [], .partialCall .bare "c" []]) := by cbv
  have hinner : compile inner = .ok (.sequence [.filter .int "n"]) := by cbv
  have hstore : engine.store.Compiles := by
    intro path text htext
    simp only [engine, Texts.set, Std.ExtTreeMap.getElem?_insert] at htext
    split at htext
    · cases htext
      exact ⟨_, houter⟩
    · split at htext
      · cases htext
        exact ⟨_, hinner⟩
      · simp at htext
  have hmemory : engine.memory.Faithful engine.store := .of_cache_eq_empty rfl
  have herror : ∀ data e, engine.outcome (.stored "a") data = .error e →
      engine.DataError (.stored "a") e := by
    intro data e h
    rcases engine.outcome_of_compiles hstore hmemory (.stored "a") data with
      ⟨text, htext⟩ | ⟨e', he', hdata, -⟩
    · rw [h] at htext
      cases htext
    · rw [h] at he'
      cases he'
      exact hdata
  have hfilter : engine.outcome (.stored "a") (Bindings.bindAll ∅ [("n", .text "x")]) =
      .error (.filterType "n" .int) := by cbv
  have hmissing : engine.outcome (.stored "a") (Bindings.bindAll ∅ [("n", .integer 1)]) =
      .error (.partialNotFound "c") := by cbv
  exact ⟨engine, _, _, hstore, hmemory, hfilter, herror _ _ hfilter, hmissing,
    herror _ _ hmissing⟩

end Engine

end SqlTemplates
