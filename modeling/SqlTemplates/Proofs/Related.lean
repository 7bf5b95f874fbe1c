import SqlTemplates.Engine
import SqlTemplates.Meaning

/-!
# Related runs

Two evaluations of one template often go the same way although they run on different
states, under different limits or in different contexts.  A `Run.Relation` says what
"the same way" means for two runs.  It has to hold of two runs that give the same value
at once, and of two runs in turn if it holds of the parts.

A template can do three things but write its own text: it can ask for the value of a
name, put it through a filter, and call a partial.  `Node.demands` lists what it may
ask for.  If two pairs of a resolver and a context answer these demands alike
(`Run.Relation.Alike`), the two evaluations of the template are related
(`Run.Relation.evaluate`).  This is the one induction over templates that the
properties of evaluation need.

Resolvers are tied together by `Resolver.nestWith`, in which entering a partial is a run
of its own that also sees the context.  The engine's resolver enters a partial by
loading it (`Resolver.nest_eq`).
-/

namespace SqlTemplates

variable {σ τ α β : Type}

namespace Run

/-! ## What a run does to a state -/

/-- The result of a run from a state, and the state after it. -/
def exec (run : Run σ α) (s : σ) : Except Error α × σ := run.run.run s

/-- The result of a run. -/
def result (run : Run σ α) (s : σ) : Except Error α := (run.exec s).1

/-- A computation that has no state, as a run. -/
def ofExcept (x : Except Error α) : Run σ α := x

@[simp] theorem exec_pure (a : α) (s : σ) : exec (pure a) s = (.ok a, s) := rfl

@[simp] theorem exec_modify (f : σ → σ) (s : σ) : exec (modify f) s = (.ok (), f s) := rfl

@[simp] theorem exec_get (s : σ) : exec get s = (.ok s, s) := rfl

@[simp] theorem exec_ofExcept (x : Except Error α) (s : σ) : exec (ofExcept x) s = (x, s) := by
  cases x <;> rfl

/-- A run goes on only after a value. -/
theorem exec_bind (x : Run σ α) (f : α → Run σ β) (s : σ) :
    (x >>= f).exec s =
      match x.exec s with
      | (.ok a, t) => (f a).exec t
      | (.error e, t) => (.error e, t) := by
  show (ExceptT.bindCont f (x.exec s).1).run (x.exec s).2 = _
  rcases x.exec s with ⟨_ | _, t⟩ <;> rfl

theorem exec_bind_of_ok {x : Run σ α} {s t : σ} {a : α} (h : x.exec s = (.ok a, t))
    (f : α → Run σ β) : (x >>= f).exec s = (f a).exec t := by
  rw [exec_bind, h]

theorem exec_bind_of_error {x : Run σ α} {s t : σ} {e : Error} (h : x.exec s = (.error e, t))
    (f : α → Run σ β) : (x >>= f).exec s = (.error e, t) := by
  rw [exec_bind, h]

/-- A run in two parts ends as its second part, or with the error of its first. -/
theorem exec_bind_eq_iff {x : Run σ α} {f : α → Run σ β} {s t : σ} {r : Except Error β} :
    (x >>= f).exec s = (r, t) ↔
      (∃ a u, x.exec s = (.ok a, u) ∧ (f a).exec u = (r, t)) ∨
        ∃ e, x.exec s = (.error e, t) ∧ r = .error e := by
  rw [exec_bind]
  rcases x.exec s with ⟨e | a, u⟩
  · constructor
    · rintro ⟨⟩
      exact .inr ⟨e, rfl, rfl⟩
    · rintro (⟨a, v, h, -⟩ | ⟨e', h, rfl⟩)
      · cases h
      · cases h
        rfl
  · constructor
    · intro h
      exact .inl ⟨a, u, rfl, h⟩
    · rintro (⟨a', v, h, hf⟩ | ⟨e', h, -⟩)
      · cases h
        exact hf
      · cases h

/-- A function of the value of a run changes nothing but the value. -/
theorem exec_map (f : α → β) (x : Run σ α) (s : σ) :
    (f <$> x).exec s = ((x.exec s).1.map f, (x.exec s).2) := by
  rw [map_eq_pure_bind, exec_bind]
  rcases x.exec s with ⟨_ | _, _⟩ <;> rfl

theorem exec_map_eq_iff {f : α → β} {x : Run σ α} {s t : σ} {r : Except Error β} :
    (f <$> x).exec s = (r, t) ↔ ∃ own, x.exec s = (own, t) ∧ r = own.map f := by
  rw [exec_map]
  constructor
  · intro h
    cases h
    exact ⟨_, rfl, rfl⟩
  · rintro ⟨own, h, rfl⟩
    rw [h]

/-- What holds of the state after the first part, and is kept by the second, holds in the
end, whether or not the second part is reached. -/
theorem state_bind {P : σ → Prop} {x : Run σ α} {f : α → Run σ β} {s : σ} (hx : P (x.exec s).2)
    (hf : ∀ a t, P t → P ((f a).exec t).2) : P ((x >>= f).exec s).2 := by
  cases hr : x.exec s with
  | mk r t =>
      rw [hr] at hx
      cases r with
      | error e => rwa [exec_bind_of_error hr]
      | ok a =>
          rw [exec_bind_of_ok hr]
          exact hf a t hx

/-- Two runs give the same result if their first parts do and their second parts do, from
all states that the first parts may leave. -/
theorem result_bind_congr {P : σ → τ → Prop} {x : Run σ α} {y : Run τ α} {f : α → Run σ β}
    {g : α → Run τ β} {s : σ} {s' : τ} (hresult : x.result s = y.result s')
    (hstate : P (x.exec s).2 (y.exec s').2)
    (hfg : ∀ a t t', P t t' →
      (f a).result t = (g a).result t' ∧ P ((f a).exec t).2 ((g a).exec t').2) :
    (x >>= f).result s = (y >>= g).result s' ∧
      P ((x >>= f).exec s).2 ((y >>= g).exec s').2 := by
  rw [result, result] at hresult ⊢
  cases hx : x.exec s with
  | mk r t =>
      cases hy : y.exec s' with
      | mk r' t' =>
          rw [hx, hy] at hresult hstate
          subst hresult
          cases r with
          | error e =>
              rw [exec_bind_of_error hx, exec_bind_of_error hy]
              exact ⟨rfl, hstate⟩
          | ok a =>
              rw [exec_bind_of_ok hx, exec_bind_of_ok hy]
              exact hfg a t t' hstate

/-! ## Relations between runs -/

/-- What it means that two runs go the same way. -/
structure Relation (σ τ : Type) where
  /-- The runs go the same way. -/
  rel : {α : Type} → Run σ α → Run τ α → Prop
  /-- Runs that give the same value at once are related. -/
  pure : ∀ {α : Type} (a : α), rel (pure a) (pure a)
  /-- Related runs in turn are related. -/
  bind : ∀ {α β : Type} {x : Run σ α} {y : Run τ α} {f : α → Run σ β} {g : α → Run τ β},
    rel x y → (∀ a, rel (f a) (g a)) → rel (x >>= f) (y >>= g)

namespace Relation

variable (R : Relation σ τ)

theorem map (f : α → β) {x : Run σ α} {y : Run τ α} (h : R.rel x y) :
    R.rel (f <$> x) (f <$> y) := by
  rw [map_eq_pure_bind, map_eq_pure_bind]
  exact R.bind h fun a => R.pure (f a)

/-- Runs that fail at once with the same error are related. -/
def RelatesErrors : Prop :=
  ∀ (α : Type) (e : Error), R.rel (throw e : Run σ α) (throw e)

variable {R}

/-- A computation without a state is related to itself. -/
theorem RelatesErrors.ofExcept (h : R.RelatesErrors) (x : Except Error α) :
    R.rel (ofExcept x) (ofExcept x) := by
  cases x with
  | error e => exact h _ e
  | ok a => exact R.pure a

end Relation

end Run

/-! ## What a template asks for -/

namespace Node

/-- What a template asks for while it is evaluated. -/
inductive Demand
  /-- The value of a name. -/
  | value (name : String)
  /-- The value of a name, put through a filter. -/
  | filter (kind : Filter) (name : String)
  /-- The text of the partial under a path. -/
  | partialCall (path : String)

mutual

/-- All that a node may ask for, in every branch. -/
def demands : Node → List Demand
  | .content _ | .literal _ => []
  | .value name | .paramName name => [.value name]
  | .paramNode inner => demands inner
  | .partialCall _ path params => paramDemands params ++ [.partialCall path]
  | .ifBlock _ condition body => .value condition :: demandsAll body
  | .ifElse _ condition body elseBody =>
      .value condition :: (demandsAll body ++ demandsAll elseBody)
  | .filter kind name => [.filter kind name]
  | .block _ body => demandsAll body
  | .sequence items => demandsAll items

/-- All that some nodes may ask for. -/
def demandsAll : List Node → List Demand
  | [] => []
  | node :: nodes => demands node ++ demandsAll nodes

/-- All that the values of some parameters may ask for. -/
def paramDemands : List (String × Node) → List Demand
  | [] => []
  | (_, node) :: params => demands node ++ paramDemands params

end

/-- A parameter that passes a name on asks for its value. -/
theorem demands_of_passedName? {node : Node} {name : String} (h : node.passedName? = some name) :
    node.demands = [.value name] := by
  cases node <;> cases h <;> rfl

/-- The text of an evaluation is the text of the node. -/
theorem evaluate_eq_text (resolve : Resolver σ) (node : Node) (ctx : Context) :
    node.evaluate resolve ctx = node.text resolve ctx := by
  rw [evaluate, write_eq]
  simp

/-- The text of a partial is what its call gives, in the wrapper. -/
theorem evaluate_partialCall_eq (resolve : Resolver σ) (ctx : Context) (kind : Wrapper)
    (path : String) (params : List (String × Node)) :
    (partialCall kind path params).evaluate resolve ctx =
      paramValues resolve ctx params >>= fun values =>
        kind.wrap <$> resolve.call ctx path (Bindings.bindAll ∅ values) := by
  rw [evaluate_eq_text, text]
  simp only [map_eq_pure_bind]

end Node

namespace Run.Relation

/-- Two resolvers in two contexts answer the demands alike. -/
structure Alike (R : Relation σ τ) (resolve : Resolver σ) (ctx : Context)
    (resolve' : Resolver τ) (ctx' : Context) (demands : List Node.Demand) : Prop where
  value : ∀ name, .value name ∈ demands → ctx.get name = ctx'.get name
  filter : ∀ kind name, .filter kind name ∈ demands →
    R.rel (ofExcept (kind.apply name (ctx.get name)))
      (ofExcept (kind.apply name (ctx'.get name)))
  call : ∀ path, .partialCall path ∈ demands → ∀ params,
    R.rel (resolve.call ctx path params) (resolve'.call ctx' path params)

namespace Alike

variable {R : Relation σ τ} {resolve : Resolver σ} {ctx : Context} {resolve' : Resolver τ}
  {ctx' : Context}

theorem mono {demands fewer : List Node.Demand} (h : R.Alike resolve ctx resolve' ctx' demands)
    (hsub : fewer ⊆ demands) : R.Alike resolve ctx resolve' ctx' fewer where
  value name hm := h.value name (hsub hm)
  filter kind name hm := h.filter kind name (hsub hm)
  call path hm := h.call path (hsub hm)

theorem left {demands more : List Node.Demand}
    (h : R.Alike resolve ctx resolve' ctx' (demands ++ more)) :
    R.Alike resolve ctx resolve' ctx' demands :=
  h.mono (List.subset_append_left _ _)

theorem right {demands more : List Node.Demand}
    (h : R.Alike resolve ctx resolve' ctx' (demands ++ more)) :
    R.Alike resolve ctx resolve' ctx' more :=
  h.mono (List.subset_append_right _ _)

theorem tail {demand : Node.Demand} {more : List Node.Demand}
    (h : R.Alike resolve ctx resolve' ctx' (demand :: more)) :
    R.Alike resolve ctx resolve' ctx' more :=
  h.mono (List.subset_cons_self _ _)

mutual

/-- The texts of a node are related if its demands are answered alike. -/
theorem text : ∀ {node : Node}, R.Alike resolve ctx resolve' ctx' node.demands →
    R.rel (node.text resolve ctx) (node.text resolve' ctx')
  | .content _, _ | .literal _, _ => R.pure _
  | .value name, h | .paramName name, h => by
      rw [Node.text, Node.text, h.value name (List.mem_singleton.2 rfl)]
      exact R.pure _
  | .paramNode _, h => by
      rw [Node.text, Node.text]
      exact text h
  | .partialCall _ path _, h => by
      rw [Node.text, Node.text]
      refine R.bind (paramValues h.left) fun values => ?_
      refine R.bind ?_ fun text => R.pure _
      exact h.right.call path (List.mem_singleton.2 rfl) _
  | .ifBlock _ condition _, h => by
      rw [Node.text, Node.text, h.value condition (List.mem_cons_self ..)]
      split
      · exact textAll h.tail
      · exact R.pure _
  | .ifElse _ condition _ _, h => by
      rw [Node.text, Node.text, h.value condition (List.mem_cons_self ..)]
      split
      · exact textAll h.tail.left
      · exact textAll h.tail.right
  | .filter kind name, h => by
      rw [Node.text, Node.text]
      exact h.filter kind name (List.mem_singleton.2 rfl)
  | .block _ _, h => by
      rw [Node.text, Node.text]
      exact R.bind (textAll h) fun text => R.pure _
  | .sequence _, h => by
      rw [Node.text, Node.text]
      exact textAll h

/-- The texts of nodes in a row are related if their demands are answered alike. -/
theorem textAll : ∀ {nodes : List Node},
    R.Alike resolve ctx resolve' ctx' (Node.demandsAll nodes) →
      R.rel (Node.textAll resolve ctx nodes) (Node.textAll resolve' ctx' nodes)
  | [], _ => R.pure _
  | _ :: _, h => by
      rw [Node.textAll, Node.textAll]
      refine R.bind (text h.left) fun first => ?_
      exact R.bind (textAll h.right) fun rest => R.pure _

/-- The values of parameters are related if their demands are answered alike. -/
theorem paramValues : ∀ {params : List (String × Node)},
    R.Alike resolve ctx resolve' ctx' (Node.paramDemands params) →
      R.rel (Node.paramValues resolve ctx params) (Node.paramValues resolve' ctx' params)
  | [], _ => R.pure _
  | (_, node) :: _, h => by
      rw [Node.paramValues, Node.paramValues]
      have hrest := paramValues h.right
      cases hp : node.passedName? with
      | none =>
          refine R.bind (R.map _ (text h.left)) fun value => ?_
          exact R.bind hrest fun values => R.pure _
      | some name =>
          have hm : .value name ∈ node.demands := by
            rw [Node.demands_of_passedName? hp]
            exact List.mem_singleton.2 rfl
          dsimp only
          rw [h.left.value name hm]
          refine R.bind (R.pure _) fun value => ?_
          exact R.bind hrest fun values => R.pure _

end

/-- The evaluations of a template are related if its demands are answered alike. -/
theorem evaluate {node : Node} (h : R.Alike resolve ctx resolve' ctx' node.demands) :
    R.rel (node.evaluate resolve ctx) (node.evaluate resolve' ctx') := by
  rw [Node.evaluate_eq_text, Node.evaluate_eq_text]
  exact text h

end Alike

section

variable {R : Relation σ τ} {resolve : Resolver σ} {resolve' : Resolver τ}

/-- Calls that are related are enough between contexts with the same values. -/
theorem RelatesErrors.alike_of_call {ctx ctx' : Context} (hR : R.RelatesErrors)
    (hcall : ∀ path params,
      R.rel (resolve.call ctx path params) (resolve'.call ctx' path params))
    (hget : ∀ name, ctx.get name = ctx'.get name) (demands : List Node.Demand) :
    R.Alike resolve ctx resolve' ctx' demands where
  value name _ := hget name
  filter kind name _ := by
    rw [hget name]
    exact hR.ofExcept _
  call path _ params := hcall path params

/-- Related resolvers answer alike in one context. -/
theorem RelatesErrors.alike (hR : R.RelatesErrors)
    (h : ∀ path ctx, R.rel (resolve path ctx) (resolve' path ctx)) (ctx : Context)
    (demands : List Node.Demand) : R.Alike resolve ctx resolve' ctx demands := by
  refine hR.alike_of_call (fun path params => ?_) (fun _ => rfl) demands
  rw [Resolver.call, Resolver.call]
  split
  · exact h _ _
  · exact hR _ _

end

end Run.Relation

/-! ## Resolvers -/

namespace Resolver

/-- The resolver for templates that may nest so deep, given how a partial is entered
under its path and in its context. -/
def nestWith (enter : String → Context → Run σ Node) : Nat → Resolver σ
  | 0 => fun path ctx => throw (.recursionLimit path ctx.maxDepth)
  | n + 1 => fun path ctx => do
      let node ← enter path ctx
      node.evaluate (nestWith enter n) ctx

/-- The engine enters a partial by loading it. -/
theorem nest_eq (load : String → Run σ Node) (n : Nat) :
    nest load n = nestWith (fun path _ => load path) n := by
  induction n with
  | zero => rfl
  | succ n ih =>
      funext path ctx
      rw [nest, nestWith, ih]

/-- Resolvers are related if they enter partials alike. -/
theorem nestWith_related {R : Run.Relation σ τ} (hR : R.RelatesErrors)
    {enter : String → Context → Run σ Node} {enter' : String → Context → Run τ Node}
    (henter : ∀ path ctx, R.rel (enter path ctx) (enter' path ctx)) (n : Nat) :
    ∀ path ctx, R.rel (nestWith enter n path ctx) (nestWith enter' n path ctx) := by
  induction n with
  | zero => exact fun path ctx => hR _ _
  | succ n ih =>
      intro path ctx
      exact R.bind (henter path ctx) fun node => (hR.alike ih ctx _).evaluate

end Resolver

/-! ## Calls -/

/-- The text of a template that is called. -/
theorem Engine.callNode_eq_text {S : Type} [Source S] (store : S) (options : Options)
    (node : Node) (data : Bindings) :
    callNode store options node data =
      node.text (Resolver.nest (load store options) options.maxDepth)
        { data, maxDepth := options.maxDepth } :=
  Node.evaluate_eq_text _ _ _

theorem Engine.callNode_sequence {S : Type} [Source S] (store : S) (options : Options)
    (nodes : List Node) (data : Bindings) :
    callNode store options (.sequence nodes) data =
      Node.textAll (Resolver.nest (load store options) options.maxDepth)
        { data, maxDepth := options.maxDepth } nodes := by
  rw [callNode_eq_text, Node.text]

end SqlTemplates
