import SqlTemplates.Proofs.Related

/-!
# The journal of an evaluation

Which partials an evaluation asks for, and in which contexts, is not to be seen in its
outcome.  Here every evaluation has a second form that keeps a journal: whenever a
resolver is handed a path and a child context, they are written down first.

Writing the journal changes nothing else (`Resolver.evaluate_journal`), so the journal
tells what happens in the evaluation itself.  `Engine.journal` is the journal of a call
or of a render of an engine.
-/

namespace SqlTemplates

variable {σ α : Type}

/-- The paths that were handed to a resolver, with their child contexts, the last one
first. -/
abbrev Journal := List (String × Context)

namespace Run

/-- The run beside a journal, in which it writes nothing. -/
def aside (run : Run σ α) : Run (σ × Journal) α :=
  ExceptT.mk fun (s, journal) => ((run.exec s).1, ((run.exec s).2, journal))

/-- The second run does what the first does, beside a journal. -/
def erasing : Relation σ (σ × Journal) where
  rel x y := ∀ s journal, ∃ journal',
    y.exec (s, journal) = ((x.exec s).1, ((x.exec s).2, journal'))
  pure _ _ journal := ⟨journal, rfl⟩
  bind {_ _ x y f g} hxy hfg s journal := by
    obtain ⟨journal', hy⟩ := hxy s journal
    cases hx : x.exec s with
    | mk r t =>
        rw [hx] at hy
        cases r with
        | error e =>
            rw [exec_bind_of_error hx, exec_bind_of_error hy]
            exact ⟨journal', rfl⟩
        | ok a =>
            rw [exec_bind_of_ok hx, exec_bind_of_ok hy]
            exact hfg a t journal'

theorem erasing_relatesErrors : (erasing : Relation σ (σ × Journal)).RelatesErrors :=
  fun _ _ _ journal => ⟨journal, rfl⟩

end Run

namespace Resolver

/-- Enters a partial by loading it, and writes it down before. -/
def enterNoted (load : String → Run σ Node) (path : String) (ctx : Context) :
    Run (σ × Journal) Node := do
  modify fun (s, journal) => (s, (path, ctx) :: journal)
  (load path).aside

theorem exec_enterNoted (load : String → Run σ Node) (path : String) (ctx : Context) (s : σ)
    (journal : Journal) :
    (enterNoted load path ctx).exec (s, journal) =
      (((load path).exec s).1, (((load path).exec s).2, (path, ctx) :: journal)) := rfl

/-- An evaluation that keeps a journal does the same. -/
theorem evaluate_journal (load : String → Run σ Node) (n : Nat) (node : Node) (ctx : Context) :
    Run.erasing.rel (node.evaluate (nest load n) ctx)
      (node.evaluate (nestWith (enterNoted load) n) ctx) := by
  have henter : ∀ path ctx, Run.erasing.rel (load path) (enterNoted load path ctx) :=
    fun path ctx s journal => ⟨(path, ctx) :: journal, exec_enterNoted load path ctx s journal⟩
  rw [nest_eq]
  exact (Run.erasing_relatesErrors.alike
    (nestWith_related Run.erasing_relatesErrors henter n) ctx _).evaluate

end Resolver

/-! ## Evaluations of an engine -/

namespace Engine

variable {S : Type} [Source S]

/-- What an evaluation starts from. -/
inductive Start
  /-- A compiled template, which is called. -/
  | template (node : Node)
  /-- The template stored under a path, which is rendered. -/
  | stored (path : String)

/-- The compiled template that an evaluation starts from. -/
def Start.load (store : S) (options : Options) : Start → Run Memory Node
  | .template node => pure node
  | .stored path => Engine.load store options path

/-- The outcome of a call or of a render. -/
def outcome (engine : Engine S) (start : Start) (data : Bindings) : Except Error String :=
  match start with
  | .template node => (engine.call node data).1
  | .stored path => (engine.render path data).1

/-- A call or a render that keeps a journal. -/
def noted (store : S) (options : Options) (start : Start) (data : Bindings) :
    Run (Memory × Journal) String := do
  let node ← (start.load store options).aside
  node.evaluate (Resolver.nestWith (Resolver.enterNoted (load store options)) options.maxDepth)
    { data, maxDepth := options.maxDepth }

/-- What a call or a render hands to the resolver. -/
def journal (engine : Engine S) (start : Start) (data : Bindings) : Journal :=
  ((noted engine.store engine.options start data).exec (engine.memory, [])).2.2

theorem outcome_eq (engine : Engine S) (start : Start) (data : Bindings) :
    engine.outcome start data =
      (start.load engine.store engine.options >>=
        fun node => callNode engine.store engine.options node data).result engine.memory := by
  cases start <;> rfl

/-- The journal is that of a run with the same outcome. -/
theorem result_noted (engine : Engine S) (start : Start) (data : Bindings) :
    (noted engine.store engine.options start data).result (engine.memory, []) =
      engine.outcome start data := by
  have h : Run.erasing.rel
      (start.load engine.store engine.options >>=
        fun node => callNode engine.store engine.options node data)
      (noted engine.store engine.options start data) := by
    refine Run.erasing.bind (fun s journal => ⟨journal, rfl⟩) fun node => ?_
    exact Resolver.evaluate_journal _ _ node _
  obtain ⟨journal', hj⟩ := h engine.memory []
  rw [outcome_eq, Run.result, hj, Run.result]

end Engine

end SqlTemplates
