import SqlTemplates.Proofs.Related

/-!
# Runs whose state does not show

A run may keep a state for its own use only, as an engine does that remembers what it has
compiled.  Such a run gives the same result from every state that is sound, and leaves a
sound state.  `Run.steady` relates it to the run without a state that gives this result.
What is sound depends on the run: nothing has to be said if there is no state, and for an
engine it is what the memory says about the stored texts.
-/

namespace SqlTemplates

variable {σ α β : Type}

/-- The result of a run that has no state is that of its parts in turn. -/
theorem Run.result_bind (x : Run Unit α) (f : α → Run Unit β) :
    (x >>= f).result () = x.result () >>= fun a => (f a).result () := by
  rw [result, exec_bind, result]
  rcases x.exec () with ⟨_ | _, _⟩ <;> rfl

/-- From every sound state the first run gives the result of the second, which has no
state, and leaves a sound state. -/
def Run.steady (Sound : σ → Prop) : Run.Relation σ Unit where
  rel x y := ∀ s, Sound s → x.result s = y.result () ∧ Sound (x.exec s).2
  pure _ _ h := ⟨rfl, h⟩
  bind hxy hfg s h := by
    obtain ⟨hresult, hsound⟩ := hxy s h
    exact result_bind_congr (P := fun t _ => Sound t) hresult hsound fun a t _ ht => hfg a t ht

theorem Run.steady_relatesErrors (Sound : σ → Prop) : (Run.steady Sound).RelatesErrors :=
  fun _ _ _ h => ⟨rfl, h⟩

section

variable {Sound : σ → Prop}

/-- Evaluations are steady if the resolver is. -/
theorem Node.evaluate_steady {resolve : Resolver σ} {answer : Resolver Unit}
    (h : ∀ path ctx, (Run.steady Sound).rel (resolve path ctx) (answer path ctx)) (node : Node)
    (ctx : Context) :
    (Run.steady Sound).rel (node.evaluate resolve ctx) (node.evaluate answer ctx) :=
  ((Run.steady_relatesErrors Sound).alike h ctx _).evaluate

variable {load : String → Run σ Node} {load' : String → Run Unit Node}

/-- Nesting is steady if the loads are. -/
theorem Resolver.nest_steady (h : ∀ path, (Run.steady Sound).rel (load path) (load' path))
    (n : Nat) (path : String) (ctx : Context) :
    (Run.steady Sound).rel (nest load n path ctx) (nest load' n path ctx) := by
  rw [nest_eq, nest_eq]
  exact nestWith_related (Run.steady_relatesErrors Sound) (fun path _ => h path) n path ctx

/-- Calls are steady if the loads are. -/
theorem Node.call_steady (h : ∀ path, (Run.steady Sound).rel (load path) (load' path))
    (maxDepth : Nat) (node : Node) (data : Bindings) :
    (Run.steady Sound).rel (node.call load maxDepth data) (node.call load' maxDepth data) :=
  node.evaluate_steady (Resolver.nest_steady h maxDepth) _

end

end SqlTemplates
