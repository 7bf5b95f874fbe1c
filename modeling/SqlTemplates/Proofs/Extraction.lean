import Mathlib
import SqlTemplates.Proofs.Caching
import SqlTemplates.Proofs.Compiled

/-!
# Extracting a block

A template can be stored under a path and included from there, or stand in a block where
it is needed.  Both give the same query (`Engine.call_blockAround`), with one exception:
the included template counts for the depth limit.

An included template sees a child context without parameters, in which every name is what
it was for the caller.  So the context of the block differs from it in the depth only.  In
the context that is less deep an evaluation goes the same way, unless the limit ends the
deeper one (`Run.unlessLimit`).
-/

namespace SqlTemplates

variable {α : Type}

/-! ## The same result unless the limit is exceeded -/

namespace Run

/-- The second run gives the result of the first, unless the first exceeds the limit. -/
def unlessLimit : Relation Unit Unit where
  rel x y :=
    (∃ path limit, x.result () = .error (.recursionLimit path limit)) ∨ y.result () = x.result ()
  pure _ := .inr rfl
  bind {_ _ x y f g} hxy hfg := by
    rw [result_bind, result_bind]
    rcases hxy with ⟨path, limit, hx⟩ | hxy
    · exact .inl ⟨path, limit, by rw [hx]; rfl⟩
    · rw [hxy]
      cases x.result () with
      | error e => exact .inr rfl
      | ok a => exact hfg a

theorem unlessLimit_refl (x : Run Unit α) : unlessLimit.rel x x := .inr rfl

theorem unlessLimit_relatesErrors : unlessLimit.RelatesErrors := fun _ _ => .inr rfl

end Run

/-! ## Contexts that are less deep -/

namespace Resolver

/-- A call from a context that is one less deep goes the same way.  The induction is on
the levels that are left for the deeper one. -/
theorem call_shallower (load : String → Run Unit Node) :
    ∀ (n : Nat) (ctx : Context), ctx.depth + 1 + n = ctx.maxDepth → ∀ path params,
      Run.unlessLimit.rel ((nest load n).call { ctx with depth := ctx.depth + 1 } path params)
        ((nest load (n + 1)).call ctx path params)
  | 0, ctx, h, path, params => by
      have hdeep : ¬ ctx.depth + 1 < ctx.maxDepth := by omega
      rw [call, if_neg hdeep]
      exact .inl ⟨path, ctx.maxDepth, rfl⟩
  | n + 1, ctx, h, path, params => by
      have hdeep : ctx.depth + 1 < ctx.maxDepth := by omega
      have hshallow : ctx.depth < ctx.maxDepth := by omega
      rw [call, if_pos hdeep, call, if_pos hshallow, nest, nest]
      have hleft : (ctx.child params).depth + 1 + n = (ctx.child params).maxDepth := by
        show ctx.depth + 1 + 1 + n = ctx.maxDepth
        omega
      have hcall := call_shallower load n (ctx.child params) hleft
      refine Run.unlessLimit.bind (Run.unlessLimit_refl _) fun node => ?_
      exact (Run.unlessLimit_relatesErrors.alike_of_call hcall (fun _ => rfl) _).evaluate

/-- An evaluation in a context that is one less deep goes the same way. -/
theorem evaluate_shallower (load : String → Run Unit Node) {n : Nat} {ctx : Context}
    (h : ctx.depth + 1 + n = ctx.maxDepth) (node : Node) :
    Run.unlessLimit.rel (node.evaluate (nest load n) { ctx with depth := ctx.depth + 1 })
      (node.evaluate (nest load (n + 1)) ctx) := by
  have hcall := call_shallower load n ctx h
  exact (Run.unlessLimit_relatesErrors.alike_of_call hcall (fun _ => rfl) _).evaluate

end Resolver

/-- Without parameters a child context differs from its parent in the depth only. -/
theorem Context.child_empty {ctx : Context} (h : ctx.locals = ∅) :
    ctx.child ∅ = { ctx with depth := ctx.depth + 1 } := by
  have hbindings : ctx.bindings = ctx.data := by rw [bindings, h, Bindings.overlay_empty]
  rw [child, hbindings, h]

/-! ## Partials and blocks -/

section

variable {S : Type} [Source S]

/-- A call of the stored template gives what its nodes give in the caller's context. -/
theorem Resolver.call_stored {store : S} {path : String} {node : Node}
    (h : compileStored store path = .ok node) (maxDepth : Nat) (data : Bindings) :
    Run.unlessLimit.rel
      ((nest (plainLoad store) maxDepth).call { data, maxDepth } path ∅)
      (node.evaluate (nest (plainLoad store) maxDepth) { data, maxDepth }) := by
  cases maxDepth with
  | zero => exact .inl ⟨path, 0, rfl⟩
  | succ n =>
      have hload : plainLoad store path = pure node := by rw [plainLoad, h]; rfl
      have hentered : ∀ ctx, nest (plainLoad store) (n + 1) path ctx =
          node.evaluate (nest (plainLoad store) n) ctx := fun ctx => by
        rw [nest]
        dsimp only
        rw [hload, pure_bind]
      rw [call, if_pos (Nat.succ_pos n), hentered, Context.child_empty rfl]
      refine evaluate_shallower (plainLoad store) ?_ node
      show 0 + 1 + n = n + 1
      omega

/-- A partial without parameters gives what a block of the stored template gives. -/
theorem Node.plainCall_block {store : S} {path : String} {nodes : List Node}
    (h : compileStored store path = .ok (.sequence nodes)) (kind : Wrapper) (maxDepth : Nat)
    (data : Bindings) :
    Run.unlessLimit.rel
      ((sequence [.partialCall kind path []]).call (plainLoad store) maxDepth data)
      ((sequence [.block kind nodes]).call (plainLoad store) maxDepth data) := by
  rw [call, call, evaluate_eq_text, evaluate_eq_text, text, text, textAll, textAll]
  refine Run.unlessLimit.bind ?_ fun _ => Run.unlessLimit_refl _
  rw [text, text, paramValues, pure_bind]
  refine Run.unlessLimit.bind ?_ fun _ => Run.unlessLimit_refl _
  have hcall := Resolver.call_stored h maxDepth data
  rwa [evaluate_eq_text, text] at hcall

/-! ## Templates of an engine -/

/-- The template that includes a stored template and the template with a block around its
text compile, and they give the same, unless the depth limit is exceeded when the template
is included.  What the engine remembers at either call does not matter, as long as it is
what the store says. -/
theorem Engine.call_blockAround {store : S} {path text : String} {node : Node}
    (hpath : Name.isDotPath path.toList = true) (hsource : source store path = .ok text)
    (hcompile : compile text = .ok node)
    (hend : ∀ c ∈ text.toList.getLast?, c ≠ '{' ∧ c ≠ '\\') (kind : Wrapper)
    (options : Options) {memory memory' : Memory} (hmemory : memory.Faithful store)
    (hmemory' : memory'.Faithful store) (data : Bindings) :
    ∃ inclusion block,
      compile (kind.inclusion path) = .ok inclusion ∧
      compile (kind.blockAround text) = .ok block ∧
      ((∀ path limit, (call ⟨store, options, memory⟩ inclusion data).1 ≠
          .error (.recursionLimit path limit)) →
        (call ⟨store, options, memory'⟩ block data).1 =
          (call ⟨store, options, memory⟩ inclusion data).1) := by
  obtain ⟨_, nodes, _, _, rfl⟩ := compile_eq_ok_iff.1 hcompile
  have hstored : compileStored store path = .ok (.sequence nodes) := by
    rw [compileStored, hsource]
    exact hcompile
  refine ⟨_, _, compile_inclusion kind hpath, compile_blockAround hcompile hend kind, ?_⟩
  rw [(call_of_faithful ⟨store, options, memory⟩ hmemory _ data).1,
    (call_of_faithful ⟨store, options, memory'⟩ hmemory' _ data).1]
  intro hlimit
  rcases Node.plainCall_block hstored kind options.maxDepth data with ⟨p, limit, he⟩ | he
  · exact absurd he (hlimit p limit)
  · exact he

end

/-- A stored template that includes another one. -/
theorem Engine.call_blockAround_nested :
    ∃ store : Texts, ∃ inclusion block : Node,
      source store "a" = .ok ("x" ++ Wrapper.bare.inclusion "b") ∧
      compile (Wrapper.bare.inclusion "a") = .ok inclusion ∧
      compile (Wrapper.bare.blockAround ("x" ++ Wrapper.bare.inclusion "b")) = .ok block ∧
      (call ⟨store, {}, {}⟩ inclusion ∅).1 = .ok "xy" ∧
      (call ⟨store, {}, {}⟩ block ∅).1 = .ok "xy" := by
  let store : Texts := .ofList [("a", "x" ++ Wrapper.bare.inclusion "b"), ("b", "y")]
  have hsource : source store "a" = .ok ("x" ++ Wrapper.bare.inclusion "b") := by cbv
  have hcompile : compile ("x" ++ Wrapper.bare.inclusion "b") =
      .ok (.sequence [.content "x", .partialCall .bare "b" []]) := by cbv
  have hpath : Name.isDotPath "a".toList = true := by decide
  have hempty : Memory.Faithful store {} := Memory.Faithful.of_cache_eq_empty rfl
  have hlast : ("x" ++ Wrapper.bare.inclusion "b").toList.getLast? = some '}' := by cbv
  have hend := Tag.EndsPlain.of_getLast? hlast (by decide)
  obtain ⟨inclusion, block, hinclusion, hblock, h⟩ := call_blockAround hpath
    hsource hcompile hend .bare {} hempty hempty ∅
  have hcall : (call ⟨store, {}, {}⟩ inclusion ∅).1 = .ok "xy" := by
    have he : compile (Wrapper.bare.inclusion "a") =
        .ok (.sequence [.partialCall .bare "a" []]) := by cbv
    obtain rfl := Except.ok.inj (he.symm.trans hinclusion)
    cbv
  refine ⟨store, inclusion, block, hsource, hinclusion, hblock, hcall, ?_⟩
  have hlimit : ∀ path limit,
      (call ⟨store, {}, {}⟩ inclusion ∅).1 ≠ .error (.recursionLimit path limit) := by
    intro path limit he
    cases hcall.symm.trans he
  rw [h hlimit, hcall]

end SqlTemplates
