import Mathlib
import SqlTemplates.Proofs.Derivation
import SqlTemplates.Proofs.Parameters
import SqlTemplates.Proofs.WellFormed
import SqlTemplates.Store.Texts

/-!
# How deep an evaluation goes

Every context that is handed to a resolver is the child of the outermost context or of
another one that was handed to a resolver, so it is one deeper than its parent, and all have
the same limit (`Journal.Ranked`).  At the limit a partial fails by itself: the resolver is
not asked, so neither the store nor the cache is.

Together with the derivations this says that evaluation always ends, in whatever circles the
stored templates call each other (`Engine.evaluation_ends`).
-/

namespace SqlTemplates

variable {σ : Type}

/-! ## Contexts in a journal -/

namespace Journal

/-- The context is the outermost one, or it was handed to a resolver. -/
def Open (root : Context) (journal : Journal) (ctx : Context) : Prop :=
  ctx = root ∨ ∃ path, (path, ctx) ∈ journal

/-- The context is the child of an open one, at most as deep as the limit of the outermost
one, and it has the same limit. -/
structure Below (root : Context) (journal : Journal) (child : Context) : Prop where
  parent : ∃ parent params, journal.Open root parent ∧ child = parent.child params
  depth_le : child.depth ≤ root.maxDepth
  maxDepth_eq : child.maxDepth = root.maxDepth

/-- All contexts of the journal are children of open ones, within the limit. -/
def Ranked (root : Context) (journal : Journal) : Prop :=
  ∀ entry ∈ journal, journal.Below root entry.2

variable {root : Context} {journal : Journal}

theorem Open.mono {ctx : Context} {more : Journal} (h : journal.Open root ctx)
    (hsub : journal ⊆ more) : more.Open root ctx :=
  h.imp_right fun ⟨path, hm⟩ => ⟨path, hsub hm⟩

theorem Below.mono {child : Context} {more : Journal} (h : journal.Below root child)
    (hsub : journal ⊆ more) : more.Below root child where
  parent := by
    obtain ⟨parent, params, hopen, hchild⟩ := h.parent
    exact ⟨parent, params, hopen.mono hsub, hchild⟩
  depth_le := h.depth_le
  maxDepth_eq := h.maxDepth_eq

/-- A child of an open context that is below the limit may be written down. -/
theorem Ranked.cons {ctx : Context} (h : journal.Ranked root) (hopen : journal.Open root ctx)
    (hmax : ctx.maxDepth = root.maxDepth) (hbelow : ctx.depth < ctx.maxDepth) (path : String)
    (params : Bindings) : Ranked root ((path, ctx.child params) :: journal) := by
  have hsub : journal ⊆ (path, ctx.child params) :: journal := List.subset_cons_self _ _
  intro entry hm
  rcases List.mem_cons.1 hm with rfl | hm
  · exact
      { parent := ⟨ctx, params, hopen.mono hsub, rfl⟩
        depth_le := hmax ▸ hbelow
        maxDepth_eq := hmax }
  · exact (h entry hm).mono hsub

end Journal

/-- In an open context a run adds to the journal only, and only what is below the outermost
context. -/
def Run.descending (root ctx : Context) : Run.Relation (σ × Journal) (σ × Journal) where
  rel x _ := ∀ s journal, Journal.Ranked root journal → Journal.Open root journal ctx →
    Journal.Ranked root (x.exec (s, journal)).2.2 ∧ journal ⊆ (x.exec (s, journal)).2.2
  pure _ _ _ h _ := ⟨h, List.Subset.refl _⟩
  bind hx hf s journal h hopen := by
    refine state_bind (P := fun t : σ × Journal => t.2.Ranked root ∧ journal ⊆ t.2)
      (hx s journal h hopen) fun a t ⟨hranked, hsub⟩ => ?_
    obtain ⟨hranked', hsub'⟩ := hf a t.1 t.2 hranked (hopen.mono hsub)
    exact ⟨hranked', List.Subset.trans hsub hsub'⟩

theorem Run.descending_relatesErrors (root ctx : Context) :
    (Run.descending root ctx : Run.Relation (σ × Journal) (σ × Journal)).RelatesErrors :=
  fun _ _ _ _ h _ => ⟨h, List.Subset.refl _⟩

/-- Calls from an open context stay below the outermost one.  The induction is on the levels
that are left. -/
theorem Resolver.call_descending (load : String → Run σ Node) (root : Context) :
    ∀ (n : Nat) {ctx : Context}, ctx.maxDepth = root.maxDepth → ∀ path params,
      (Run.descending root ctx).rel ((nestWith (enterNoted load) n).call ctx path params)
        ((nestWith (enterNoted load) n).call ctx path params) := by
  intro n
  induction n with
  | zero =>
      intro ctx _ path params
      rw [call]
      split <;> exact Run.descending_relatesErrors root ctx _ _
  | succ n ih =>
      intro ctx hmax path params
      rw [call]
      split
      · next hbelow =>
          intro s journal hranked hopen
          have hentered := hranked.cons hopen hmax hbelow path params
          have hchild : (ctx.child params).maxDepth = root.maxDepth := hmax
          have hnode : ∀ node : Node, (Run.descending root (ctx.child params)).rel
              (node.evaluate (nestWith (enterNoted load) n) (ctx.child params))
              (node.evaluate (nestWith (enterNoted load) n) (ctx.child params)) := fun node =>
            ((Run.descending_relatesErrors root _).alike_of_call (ih hchild) (fun _ => rfl)
              _).evaluate
          rw [nestWith]
          refine And.imp_right (List.Subset.trans (List.subset_cons_self _ _))
            (Run.state_bind (P := fun t : σ × Journal =>
                t.2.Ranked root ∧ (path, ctx.child params) :: journal ⊆ t.2)
              ⟨hentered, List.Subset.refl _⟩ fun node t hbetween => ?_)
          obtain ⟨hranked', hsub⟩ := hbetween
          have hopen' : t.2.Open root (ctx.child params) :=
            .inr ⟨path, hsub (List.mem_cons_self ..)⟩
          obtain ⟨hranked'', hsub'⟩ := hnode node t.1 t.2 hranked' hopen'
          exact ⟨hranked'', List.Subset.trans hsub hsub'⟩
      · exact Run.descending_relatesErrors root ctx _ _

/-! ## At the limit -/

namespace Node

variable {resolve : Resolver σ} {ctx : Context}

/-- At the limit a partial fails when its parameters have been evaluated, and nothing is
asked of the resolver. -/
theorem exec_partialCall_of_limit (hlimit : ctx.maxDepth ≤ ctx.depth) {kind : Wrapper}
    {path : String} {params : List (String × Node)} {values : List (String × Value)} {s t : σ}
    (hvalues : (paramValues resolve ctx params).exec s = (.ok values, t)) :
    ((partialCall kind path params).evaluate resolve ctx).exec s =
      (.error (.recursionLimit path ctx.maxDepth), t) := by
  rw [evaluate_partialCall_eq, Run.exec_bind_of_ok hvalues, Resolver.call,
    if_neg (Nat.not_lt.2 hlimit)]
  rfl

/-- Evaluating the parameters of a compiled partial neither fails nor changes the state. -/
theorem exec_paramValues_of_isArgument (resolve : Resolver σ) (ctx : Context) (s : σ) :
    ∀ {params : List (String × Node)}, (∀ param ∈ params, param.2.IsArgument) →
      ∃ values, (paramValues resolve ctx params).exec s = (.ok values, s)
  | [], _ => ⟨[], rfl⟩
  | (key, node) :: params, h => by
      obtain ⟨hnode, hparams⟩ := List.forall_mem_cons.1 h
      obtain ⟨value, hvalue⟩ : ∃ value, (node.paramValue resolve ctx).exec s = (.ok value, s) := by
        cases hnode with
        | @name name _ => exact ⟨ctx.get name, rfl⟩
        | @literal text _ => exact ⟨.text text, rfl⟩
      obtain ⟨values, hvalues⟩ := exec_paramValues_of_isArgument resolve ctx s hparams
      refine ⟨(key, value) :: values, ?_⟩
      rw [paramValues_cons, Run.exec_bind_of_ok hvalue, Run.exec_bind_of_ok hvalues]
      rfl

end Node

/-! ## Evaluations of an engine -/

namespace Engine

variable {S : Type} [Source S]

/-- What a call or a render hands to the resolver is below the outermost context. -/
theorem ranked_journal (engine : Engine S) (start : Start) (data : Bindings) :
    (engine.journal start data).Ranked { data, maxDepth := engine.options.maxDepth } := by
  let root : Context := { data, maxDepth := engine.options.maxDepth }
  have hrun : (Run.descending root root).rel
      (noted engine.store engine.options start data)
      (noted engine.store engine.options start data) := by
    refine (Run.descending root root).bind ?_ fun node => ?_
    · exact fun _ _ h _ => ⟨h, List.Subset.refl _⟩
    · exact ((Run.descending_relatesErrors root root).alike_of_call
        (Resolver.call_descending _ root _ rfl) (fun _ => rfl) _).evaluate
  exact (hrun engine.memory [] (fun _ h => nomatch h) (.inl rfl)).1

/-- An evaluation ends, by the rules, as it does when it is run, and in no other way.
Every context that is handed to the resolver is one deeper than its parent, which is the
outermost context or was handed to the resolver, and its depth is between one and the limit,
which is the same for all.  At the limit a partial fails with its path, in the state in
which the parameters were evaluated; for a compiled partial that is the state before. -/
theorem evaluation_ends (engine : Engine S) (start : Start) (data : Bindings) :
    (∃ memory, engine.Answers data start (engine.outcome start data) memory ∧
        ∀ r memory', engine.Answers data start r memory' →
          r = engine.outcome start data ∧ memory' = memory) ∧
      (∀ path child, (path, child) ∈ engine.journal start data →
        (∃ parent params,
          (parent = { data, maxDepth := engine.options.maxDepth } ∨
            ∃ path', (path', parent) ∈ engine.journal start data) ∧
          child = parent.child params ∧ child.depth = parent.depth + 1) ∧
        1 ≤ child.depth ∧ child.depth ≤ engine.options.maxDepth ∧
        child.maxDepth = engine.options.maxDepth) ∧
      ∀ (resolve : Resolver Memory) (ctx : Context), ctx.depth = engine.options.maxDepth →
        ctx.maxDepth = engine.options.maxDepth → ∀ kind path params memory,
          (∀ values memory',
            (Node.paramValues resolve ctx params).exec memory = (.ok values, memory') →
              ((Node.partialCall kind path params).evaluate resolve ctx).exec memory =
                (.error (.recursionLimit path engine.options.maxDepth), memory')) ∧
          ((Node.partialCall kind path params).WellFormed →
            ((Node.partialCall kind path params).evaluate resolve ctx).exec memory =
              (.error (.recursionLimit path engine.options.maxDepth), memory)) := by
  refine ⟨engine.answers_outcome start data, fun path child hm => ?_,
    fun resolve ctx hdepth hmax kind path params memory => ?_⟩
  · have hbelow := engine.ranked_journal start data (path, child) hm
    obtain ⟨parent, params, hopen, rfl⟩ := hbelow.parent
    exact ⟨⟨parent, params, hopen, rfl, rfl⟩, Nat.le_add_left 1 _, hbelow.depth_le,
      hbelow.maxDepth_eq⟩
  · have hlimit : ctx.maxDepth ≤ ctx.depth := by rw [hdepth, hmax]
    rw [← hmax]
    refine ⟨fun values memory' h => Node.exec_partialCall_of_limit hlimit h, fun hwell => ?_⟩
    cases hwell with
    | partialCall _ hparams =>
        obtain ⟨values, hvalues⟩ := Node.exec_paramValues_of_isArgument resolve ctx memory
          fun param hm => (hparams param hm).2
        exact Node.exec_partialCall_of_limit hlimit hvalues

/-- Two stored templates include each other, and the limit ends the evaluation two levels
down. -/
theorem evaluation_ends_circle :
    ∃ (engine : Engine Texts) (child : Context) (memory : Memory),
      engine.Answers ∅ (.stored "a") (.error (.recursionLimit "b" 2)) memory ∧
      ("a", child) ∈ engine.journal (.stored "a") ∅ ∧ child.depth = 2 ∧
      (∃ parent params,
        (parent = { data := ∅, maxDepth := 2 } ∨
          ∃ path, (path, parent) ∈ engine.journal (.stored "a") ∅) ∧
        child = parent.child params ∧ child.depth = parent.depth + 1) ∧
      ((Node.partialCall .bare "b" []).evaluate
          (Resolver.nest (load engine.store engine.options) 2) child).exec {} =
        (.error (.recursionLimit "b" 2), {}) := by
  let engine : Engine Texts :=
    { store := .ofList [("a", Wrapper.bare.inclusion "b"), ("b", Wrapper.bare.inclusion "a")]
      options := { maxDepth := 2 } }
  let root : Context := { data := ∅, maxDepth := 2 }
  let child : Context := (root.child ∅).child ∅
  have houtcome : engine.outcome (.stored "a") ∅ = .error (.recursionLimit "b" 2) := by cbv
  have hentries : engine.journal (.stored "a") ∅ = [("a", child), ("b", root.child ∅)] := by cbv
  have hm : ("a", child) ∈ engine.journal (.stored "a") ∅ := by
    rw [hentries]
    exact List.mem_cons_self ..
  have hwell : (Node.partialCall .bare "b" []).WellFormed :=
    .partialCall (by decide) fun _ h => absurd h List.not_mem_nil
  obtain ⟨⟨memory, hanswers, -⟩, hjournal, hlimit⟩ := engine.evaluation_ends (.stored "a") ∅
  rw [houtcome] at hanswers
  exact ⟨engine, child, memory, hanswers, hm, rfl, (hjournal "a" child hm).1,
    (hlimit _ child rfl rfl .bare "b" [] {}).2 hwell⟩

end Engine

end SqlTemplates
