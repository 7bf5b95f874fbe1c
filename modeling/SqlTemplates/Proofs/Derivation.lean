import SqlTemplates.Proofs.Journal

/-!
# Evaluation by rules

Evaluating a template calls partials, which are loaded and evaluated in their turn, so
evaluation is recursive through what is stored, and templates may be stored that call each
other in a circle.  The rules here say how an evaluation ends from how its parts end, with
no bound on how far it goes: `Evaluates` for a node, `EvaluatesAll` for nodes in a row,
`EvaluatesParams` for parameters and `EvaluatesCall` for the call of a partial.  A
derivation is a finite tree, so what has a derivation ends.

Every evaluation has a derivation, and only for what it gives (`Node.evaluates_iff`).  The
resolver counts the levels that are left, which the rules do not know: that it never runs
out of levels before the depth limit is reached is part of the proof.
-/

namespace SqlTemplates

variable {σ : Type}

namespace Node

/-! ## Rules -/

section

variable (load : String → Run σ Node)

mutual

/-- From one state a node ends with a result in another state. -/
inductive Evaluates : Context → Node → σ → Except Error String → σ → Prop
  | content {ctx text s} : Evaluates ctx (.content text) s (.ok text) s
  | literal {ctx text s} : Evaluates ctx (.literal text) s (.ok text) s
  | value {ctx name s} : Evaluates ctx (.value name) s (.ok (ctx.get name).display) s
  | paramName {ctx name s} : Evaluates ctx (.paramName name) s (.ok (ctx.get name).display) s
  | paramNode {ctx inner s r t} :
      Evaluates ctx inner s r t → Evaluates ctx (.paramNode inner) s r t
  | partialCall {ctx kind path params s values t r u} :
      EvaluatesParams ctx params s (.ok values) t →
      EvaluatesCall ctx path (Bindings.bindAll ∅ values) t r u →
      Evaluates ctx (.partialCall kind path params) s (r.map kind.wrap) u
  | partialCall_of_error {ctx kind path params s e t} :
      EvaluatesParams ctx params s (.error e) t →
      Evaluates ctx (.partialCall kind path params) s (.error e) t
  | ifBlock {ctx kind condition body s r t} :
      kind.printsBody (ctx.get condition).truthy = true →
      EvaluatesAll ctx body s r t →
      Evaluates ctx (.ifBlock kind condition body) s r t
  | ifBlock_skipped {ctx kind condition body s} :
      kind.printsBody (ctx.get condition).truthy = false →
      Evaluates ctx (.ifBlock kind condition body) s (.ok "") s
  | ifElse {ctx kind condition body elseBody s r t} :
      kind.printsBody (ctx.get condition).truthy = true →
      EvaluatesAll ctx body s r t →
      Evaluates ctx (.ifElse kind condition body elseBody) s r t
  | ifElse_other {ctx kind condition body elseBody s r t} :
      kind.printsBody (ctx.get condition).truthy = false →
      EvaluatesAll ctx elseBody s r t →
      Evaluates ctx (.ifElse kind condition body elseBody) s r t
  | filter {ctx kind name s} :
      Evaluates ctx (.filter kind name) s (kind.apply name (ctx.get name)) s
  | block {ctx kind body s r t} :
      EvaluatesAll ctx body s r t → Evaluates ctx (.block kind body) s (r.map kind.wrap) t
  | sequence {ctx items s r t} :
      EvaluatesAll ctx items s r t → Evaluates ctx (.sequence items) s r t

/-- Nodes in a row end with their texts in a row, or with the first error. -/
inductive EvaluatesAll : Context → List Node → σ → Except Error String → σ → Prop
  | nil {ctx s} : EvaluatesAll ctx [] s (.ok "") s
  | cons {ctx node nodes s first t r u} :
      Evaluates ctx node s (.ok first) t →
      EvaluatesAll ctx nodes t r u →
      EvaluatesAll ctx (node :: nodes) s (r.map (first ++ ·)) u
  | cons_of_error {ctx node nodes s e t} :
      Evaluates ctx node s (.error e) t → EvaluatesAll ctx (node :: nodes) s (.error e) t

/-- Parameters end with their values in turn, or with the first error. -/
inductive EvaluatesParams :
    Context → List (String × Node) → σ → Except Error (List (String × Value)) → σ → Prop
  | nil {ctx s} : EvaluatesParams ctx [] s (.ok []) s
  | passed {ctx key node name params s r t} :
      node.passedName? = some name →
      EvaluatesParams ctx params s r t →
      EvaluatesParams ctx ((key, node) :: params) s (r.map ((key, ctx.get name) :: ·)) t
  | text {ctx key node params s text t r u} :
      node.passedName? = none →
      Evaluates ctx node s (.ok text) t →
      EvaluatesParams ctx params t r u →
      EvaluatesParams ctx ((key, node) :: params) s (r.map ((key, .text text) :: ·)) u
  | text_of_error {ctx key node params s e t} :
      node.passedName? = none →
      Evaluates ctx node s (.error e) t →
      EvaluatesParams ctx ((key, node) :: params) s (.error e) t

/-- A partial that is not too deep is loaded and evaluated in a child context. -/
inductive EvaluatesCall : Context → String → Bindings → σ → Except Error String → σ → Prop
  | tooDeep {ctx path params s} :
      ctx.maxDepth ≤ ctx.depth →
      EvaluatesCall ctx path params s (.error (.recursionLimit path ctx.maxDepth)) s
  | notLoaded {ctx path params s e t} :
      ctx.depth < ctx.maxDepth →
      (load path).exec s = (.error e, t) →
      EvaluatesCall ctx path params s (.error e) t
  | entered {ctx path params s node t r u} :
      ctx.depth < ctx.maxDepth →
      (load path).exec s = (.ok node, t) →
      Evaluates (ctx.child params) node t r u →
      EvaluatesCall ctx path params s r u

end

end

/-! ## Every evaluation has a derivation -/

section

variable {load : String → Run σ Node} {resolve : Resolver σ}

mutual

/-- A node has a derivation if all calls of partials in its context have one. -/
theorem Evaluates.of_exec_text {ctx : Context}
    (hcall : ∀ {path params s r t}, (resolve.call ctx path params).exec s = (r, t) →
      EvaluatesCall load ctx path params s r t) :
    ∀ {node : Node} {s t : σ} {r : Except Error String},
      (node.text resolve ctx).exec s = (r, t) → Evaluates load ctx node s r t
  | .content _, _, _, _, h => by
      cases h
      exact .content
  | .literal _, _, _, _, h => by
      cases h
      exact .literal
  | .value _, _, _, _, h => by
      cases h
      exact .value
  | .paramName _, _, _, _, h => by
      cases h
      exact .paramName
  | .paramNode _, _, _, _, h => by
      rw [text] at h
      exact .paramNode (Evaluates.of_exec_text hcall h)
  | .partialCall _ _ _, _, _, _, h => by
      rw [text] at h
      simp only [bind_pure_comp] at h
      rcases Run.exec_bind_eq_iff.1 h with ⟨values, u, hparams, h⟩ | ⟨e, hparams, rfl⟩
      · rw [Run.exec_map] at h
        cases h
        exact .partialCall (EvaluatesParams.of_exec_paramValues hcall hparams) (hcall rfl)
      · exact .partialCall_of_error (EvaluatesParams.of_exec_paramValues hcall hparams)
  | .ifBlock kind condition _, _, _, _, h => by
      rw [text] at h
      cases hpick : kind.printsBody (ctx.get condition).truthy with
      | true =>
          rw [if_pos hpick] at h
          exact .ifBlock hpick (EvaluatesAll.of_exec_textAll hcall h)
      | false =>
          rw [if_neg (by rw [hpick]; decide)] at h
          cases h
          exact .ifBlock_skipped hpick
  | .ifElse kind condition _ _, _, _, _, h => by
      rw [text] at h
      cases hpick : kind.printsBody (ctx.get condition).truthy with
      | true =>
          rw [if_pos hpick] at h
          exact .ifElse hpick (EvaluatesAll.of_exec_textAll hcall h)
      | false =>
          rw [if_neg (by rw [hpick]; decide)] at h
          exact .ifElse_other hpick (EvaluatesAll.of_exec_textAll hcall h)
  | .filter _ _, s, _, _, h => by
      rw [text] at h
      cases (Run.exec_ofExcept _ s).symm.trans h
      exact .filter
  | .block _ _, _, _, _, h => by
      rw [text, bind_pure_comp, Run.exec_map] at h
      cases h
      exact .block (EvaluatesAll.of_exec_textAll hcall rfl)
  | .sequence _, _, _, _, h => by
      rw [text] at h
      exact .sequence (EvaluatesAll.of_exec_textAll hcall h)

theorem EvaluatesAll.of_exec_textAll {ctx : Context}
    (hcall : ∀ {path params s r t}, (resolve.call ctx path params).exec s = (r, t) →
      EvaluatesCall load ctx path params s r t) :
    ∀ {nodes : List Node} {s t : σ} {r : Except Error String},
      (textAll resolve ctx nodes).exec s = (r, t) → EvaluatesAll load ctx nodes s r t
  | [], _, _, _, h => by
      cases h
      exact .nil
  | _ :: _, _, _, _, h => by
      rw [textAll] at h
      simp only [bind_pure_comp] at h
      rcases Run.exec_bind_eq_iff.1 h with ⟨first, u, hnode, h⟩ | ⟨e, hnode, rfl⟩
      · rw [Run.exec_map] at h
        cases h
        exact .cons (Evaluates.of_exec_text hcall hnode) (EvaluatesAll.of_exec_textAll hcall rfl)
      · exact .cons_of_error (Evaluates.of_exec_text hcall hnode)

theorem EvaluatesParams.of_exec_paramValues {ctx : Context}
    (hcall : ∀ {path params s r t}, (resolve.call ctx path params).exec s = (r, t) →
      EvaluatesCall load ctx path params s r t) :
    ∀ {params : List (String × Node)} {s t : σ} {r : Except Error (List (String × Value))},
      (paramValues resolve ctx params).exec s = (r, t) → EvaluatesParams load ctx params s r t
  | [], _, _, _, h => by
      cases h
      exact .nil
  | (_, node) :: _, _, _, _, h => by
      rw [paramValues] at h
      simp only [bind_pure_comp] at h
      cases hp : node.passedName? with
      | some name =>
          simp only [hp, pure_bind] at h
          rw [Run.exec_map] at h
          cases h
          exact .passed hp (EvaluatesParams.of_exec_paramValues hcall rfl)
      | none =>
          simp only [hp, bind_map_left] at h
          rcases Run.exec_bind_eq_iff.1 h with ⟨text, u, hnode, h⟩ | ⟨e, hnode, rfl⟩
          · rw [Run.exec_map] at h
            cases h
            exact .text hp (Evaluates.of_exec_text hcall hnode)
              (EvaluatesParams.of_exec_paramValues hcall rfl)
          · exact .text_of_error hp (Evaluates.of_exec_text hcall hnode)

end

end

/-- A call has a derivation if the levels that are left are those below the limit.  The
induction is on these levels. -/
theorem EvaluatesCall.of_exec_call (load : String → Run σ Node) :
    ∀ (n : Nat) {ctx : Context}, ctx.depth + n = ctx.maxDepth →
      ∀ {path : String} {params : Bindings} {s t : σ} {r : Except Error String},
        ((Resolver.nest load n).call ctx path params).exec s = (r, t) →
          EvaluatesCall load ctx path params s r t
  | 0, ctx, hlevels, _, _, _, _, _, h => by
      have hdeep : ¬ ctx.depth < ctx.maxDepth := by omega
      rw [Resolver.call, if_neg hdeep] at h
      cases h
      exact .tooDeep (Nat.le_of_not_lt hdeep)
  | n + 1, ctx, hlevels, path, params, _, _, _, h => by
      have hbelow : ctx.depth < ctx.maxDepth := by omega
      have hchild : (ctx.child params).depth + n = (ctx.child params).maxDepth := by
        show ctx.depth + 1 + n = ctx.maxDepth
        omega
      rw [Resolver.call, if_pos hbelow, Resolver.nest] at h
      rcases Run.exec_bind_eq_iff.1 h with ⟨node, u, hload, h⟩ | ⟨e, hload, rfl⟩
      · rw [evaluate_eq_text] at h
        exact .entered hbelow hload (Evaluates.of_exec_text (of_exec_call load n hchild) h)
      · exact .notLoaded hbelow hload

/-! ## Only what an evaluation gives has a derivation -/

section

variable {load : String → Run σ Node}

mutual

theorem Evaluates.exec_text :
    ∀ {ctx : Context} {node : Node} {s t : σ} {r : Except Error String},
      Evaluates load ctx node s r t → ∀ {n : Nat}, ctx.depth + n = ctx.maxDepth →
        (node.text (Resolver.nest load n) ctx).exec s = (r, t)
  | _, _, _, _, _, .content, _, _ => rfl
  | _, _, _, _, _, .literal, _, _ => rfl
  | _, _, _, _, _, .value, _, _ => rfl
  | _, _, _, _, _, .paramName, _, _ => rfl
  | _, _, _, _, _, .paramNode h, _, hlevels => by
      rw [text]
      exact h.exec_text hlevels
  | _, _, _, _, _, .partialCall hparams hcall, _, hlevels => by
      rw [text]
      simp only [bind_pure_comp]
      rw [Run.exec_bind_of_ok (hparams.exec_paramValues hlevels), Run.exec_map,
        hcall.exec_call hlevels]
  | _, _, _, _, _, .partialCall_of_error hparams, _, hlevels => by
      rw [text, Run.exec_bind_of_error (hparams.exec_paramValues hlevels)]
  | _, _, _, _, _, .ifBlock hpick h, _, hlevels => by
      rw [text, if_pos hpick]
      exact h.exec_textAll hlevels
  | _, _, _, _, _, .ifBlock_skipped hpick, _, _ => by
      rw [text, if_neg (by rw [hpick]; decide)]
      rfl
  | _, _, _, _, _, .ifElse hpick h, _, hlevels => by
      rw [text, if_pos hpick]
      exact h.exec_textAll hlevels
  | _, _, _, _, _, .ifElse_other hpick h, _, hlevels => by
      rw [text, if_neg (by rw [hpick]; decide)]
      exact h.exec_textAll hlevels
  | _, _, s, _, _, .filter, _, _ => by
      rw [text]
      exact Run.exec_ofExcept _ s
  | _, _, _, _, _, .block h, _, hlevels => by
      rw [text, bind_pure_comp, Run.exec_map, h.exec_textAll hlevels]
  | _, _, _, _, _, .sequence h, _, hlevels => by
      rw [text]
      exact h.exec_textAll hlevels

theorem EvaluatesAll.exec_textAll :
    ∀ {ctx : Context} {nodes : List Node} {s t : σ} {r : Except Error String},
      EvaluatesAll load ctx nodes s r t → ∀ {n : Nat}, ctx.depth + n = ctx.maxDepth →
        (textAll (Resolver.nest load n) ctx nodes).exec s = (r, t)
  | _, _, _, _, _, .nil, _, _ => rfl
  | _, _, _, _, _, .cons hnode h, _, hlevels => by
      rw [textAll]
      simp only [bind_pure_comp]
      rw [Run.exec_bind_of_ok (hnode.exec_text hlevels), Run.exec_map, h.exec_textAll hlevels]
  | _, _, _, _, _, .cons_of_error hnode, _, hlevels => by
      rw [textAll, Run.exec_bind_of_error (hnode.exec_text hlevels)]

theorem EvaluatesParams.exec_paramValues :
    ∀ {ctx : Context} {params : List (String × Node)} {s t : σ}
      {r : Except Error (List (String × Value))},
      EvaluatesParams load ctx params s r t → ∀ {n : Nat}, ctx.depth + n = ctx.maxDepth →
        (paramValues (Resolver.nest load n) ctx params).exec s = (r, t)
  | _, _, _, _, _, .nil, _, _ => rfl
  | _, _, _, _, _, .passed hp h, _, hlevels => by
      rw [paramValues]
      simp only [hp, pure_bind, bind_pure_comp]
      rw [Run.exec_map, h.exec_paramValues hlevels]
  | _, _, _, _, _, .text hp hnode h, _, hlevels => by
      rw [paramValues]
      simp only [hp, bind_map_left, bind_pure_comp]
      rw [Run.exec_bind_of_ok (hnode.exec_text hlevels), Run.exec_map,
        h.exec_paramValues hlevels]
  | _, _, _, _, _, .text_of_error hp hnode, _, hlevels => by
      rw [paramValues]
      simp only [hp, bind_map_left]
      rw [Run.exec_bind_of_error (hnode.exec_text hlevels)]

theorem EvaluatesCall.exec_call :
    ∀ {ctx : Context} {path : String} {params : Bindings} {s t : σ} {r : Except Error String},
      EvaluatesCall load ctx path params s r t → ∀ {n : Nat}, ctx.depth + n = ctx.maxDepth →
        ((Resolver.nest load n).call ctx path params).exec s = (r, t)
  | _, _, _, _, _, _, .tooDeep hdeep, _, _ => by
      rw [Resolver.call, if_neg (Nat.not_lt.2 hdeep)]
      rfl
  | _, _, _, _, _, _, .notLoaded hbelow hload, 0, hlevels => by omega
  | _, _, _, _, _, _, .notLoaded hbelow hload, n + 1, hlevels => by
      rw [Resolver.call, if_pos hbelow, Resolver.nest, Run.exec_bind_of_error hload]
  | _, _, _, _, _, _, .entered hbelow hload h, 0, hlevels => by omega
  | ctx, _, params, _, _, _, .entered hbelow hload h, n + 1, hlevels => by
      have hchild : (ctx.child params).depth + n = (ctx.child params).maxDepth := by
        show ctx.depth + 1 + n = ctx.maxDepth
        omega
      rw [Resolver.call, if_pos hbelow, Resolver.nest, Run.exec_bind_of_ok hload,
        evaluate_eq_text]
      exact h.exec_text hchild

end

end

/-- A node has exactly one derivation's result and state: what evaluating it gives. -/
theorem evaluates_iff {load : String → Run σ Node} {ctx : Context} {n : Nat}
    (hlevels : ctx.depth + n = ctx.maxDepth) {node : Node} {s t : σ} {r : Except Error String} :
    Evaluates load ctx node s r t ↔
      (node.evaluate (Resolver.nest load n) ctx).exec s = (r, t) := by
  rw [evaluate_eq_text]
  exact ⟨fun h => h.exec_text hlevels,
    Evaluates.of_exec_text (EvaluatesCall.of_exec_call load n hlevels)⟩

end Node

/-! ## Evaluations of an engine -/

namespace Engine

variable {S : Type} [Source S]

/-- By the rules a call or a render of the engine ends with a result and in a memory. -/
inductive Answers (engine : Engine S) (data : Bindings) :
    Start → Except Error String → Memory → Prop
  | call {node r memory} :
      Node.Evaluates (load engine.store engine.options)
        { data, maxDepth := engine.options.maxDepth } node engine.memory r memory →
      Answers engine data (.template node) r memory
  | render {path node memory r memory'} :
      (load engine.store engine.options path).exec engine.memory = (.ok node, memory) →
      Node.Evaluates (load engine.store engine.options)
        { data, maxDepth := engine.options.maxDepth } node memory r memory' →
      Answers engine data (.stored path) r memory'
  | notLoaded {path e memory} :
      (load engine.store engine.options path).exec engine.memory = (.error e, memory) →
      Answers engine data (.stored path) (.error e) memory

/-- By the rules an evaluation ends as it does when it is run. -/
theorem answers_iff {engine : Engine S} {start : Start} {data : Bindings}
    {r : Except Error String} {memory : Memory} :
    engine.Answers data start r memory ↔
      (start.load engine.store engine.options >>= fun node =>
        callNode engine.store engine.options node data).exec engine.memory = (r, memory) := by
  have hlevels : 0 + engine.options.maxDepth = engine.options.maxDepth := Nat.zero_add _
  constructor
  · rintro (hnode | ⟨hload, hnode⟩ | hload)
    · rw [Start.load, pure_bind]
      exact (Node.evaluates_iff hlevels).1 hnode
    · rw [Start.load, Run.exec_bind_of_ok hload]
      exact (Node.evaluates_iff hlevels).1 hnode
    · rw [Start.load, Run.exec_bind_of_error hload]
  · intro h
    cases start with
    | template node =>
        rw [Start.load, pure_bind] at h
        exact .call ((Node.evaluates_iff hlevels).2 h)
    | stored path =>
        rcases Run.exec_bind_eq_iff.1 h with ⟨node, u, hload, h⟩ | ⟨e, hload, rfl⟩
        · exact .render hload ((Node.evaluates_iff hlevels).2 h)
        · exact .notLoaded hload

/-- Every call and every render of an engine ends by the rules, in one way. -/
theorem answers_outcome (engine : Engine S) (start : Start) (data : Bindings) :
    ∃ memory, engine.Answers data start (engine.outcome start data) memory ∧
      ∀ r memory', engine.Answers data start r memory' →
        r = engine.outcome start data ∧ memory' = memory := by
  have hrun : ∃ memory, (start.load engine.store engine.options >>= fun node =>
      callNode engine.store engine.options node data).exec engine.memory =
        (engine.outcome start data, memory) :=
    ⟨_, Prod.ext (engine.outcome_eq start data).symm rfl⟩
  obtain ⟨memory, hrun⟩ := hrun
  refine ⟨memory, answers_iff.2 hrun, fun r memory' h => ?_⟩
  obtain ⟨rfl, rfl⟩ := Prod.mk.inj (hrun.symm.trans (answers_iff.1 h))
  exact ⟨rfl, rfl⟩

end Engine

end SqlTemplates
