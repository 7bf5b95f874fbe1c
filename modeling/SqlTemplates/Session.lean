import SqlTemplates.Store.Texts

/-!
# Sessions

A session is an engine over texts in memory, used step by step.  The texts may change
between the steps, and compiled templates can be kept in named slots.

A step answers and leaves a session behind.  A run of steps is a fold, so what every
step keeps, every run keeps.
-/

namespace SqlTemplates

/-- An engine over texts in memory and the templates kept in slots. -/
structure Session where
  engine : Engine Texts
  /-- The compiled templates that are kept. -/
  slots : Std.ExtTreeMap String Node := ∅

namespace Session

/-- A step of a session. -/
inductive Action
  | set (path text : String)
  | remove (path : String)
  | clearCache
  | source (path : String)
  /-- Evaluates a stored template. -/
  | render (path : String) (data : Bindings)
  /-- Compiles a text and keeps the template. -/
  | compile (slot template : String)
  /-- Evaluates a template that was kept. -/
  | call (slot : String) (data : Bindings)
  | options

/-- The answer to a step. -/
inductive Answer
  /-- Something was changed, or was there to be changed. -/
  | done (existed : Bool)
  | outcome (result : Except Error String)
  | compiled (result : Except Error Node)
  | options (options : Options)
  /-- Nothing is kept in the slot. -/
  | emptySlot

/-- The session with other texts. -/
def withStore (session : Session) (store : Texts) : Session :=
  { session with engine := { session.engine with store } }

/-- Does one step. -/
def step (session : Session) : Action → Answer × Session
  | .set path text => (.done true, session.withStore (session.engine.store.set path text))
  | .remove path =>
      (.done (session.engine.store.contains path),
        session.withStore (session.engine.store.remove path))
  | .clearCache => (.done true, { session with engine := session.engine.clearCache })
  | .source path =>
      let (result, engine) := session.engine.text path
      (.outcome result, { session with engine })
  | .render path data =>
      let (result, engine) := session.engine.render path data
      (.outcome result, { session with engine })
  | .compile slot template =>
      match SqlTemplates.compile template with
      | .error e => (.compiled (.error e), session)
      | .ok node => (.compiled (.ok node), { session with slots := session.slots.insert slot node })
  | .call slot data =>
      match session.slots[slot]? with
      | none => (.emptySlot, session)
      | some node =>
          let (result, engine) := session.engine.call node data
          (.outcome result, { session with engine })
  | .options => (.options session.engine.options, session)

/-- Does some steps in turn. -/
def run (session : Session) : List Action → List Answer × Session
  | [] => ([], session)
  | action :: actions =>
      let (answer, session) := session.step action
      let (answers, session) := session.run actions
      (answer :: answers, session)

/-- How many times the texts have been looked up. -/
def lookups (session : Session) : Nat := session.engine.memory.lookups.length

end Session

end SqlTemplates
