import Mathlib
import SqlTemplates.Proofs.Faithful
import SqlTemplates.Session

/-!
# Caching does not show

An engine keeps what it has compiled until it is told to forget.  When every change of
the texts is followed by forgetting, this cannot be noticed: a session with the cache
and one without it give the same answers to the same steps
(`Session.run_cache_eq`).

Two sessions are *alike* if they agree in all but their memories and whether they use
them.  A step from alike sessions with faithful memories gives one answer and leaves
alike sessions.  A step that changes a text may leave memories that are not faithful,
but then nothing is answered before they are cleared.
-/

namespace SqlTemplates

/-! ## Single requests -/

namespace Engine

variable {S : Type} [Source S] (engine : Engine S)

theorem text_eq (path : String) :
    engine.text path =
      (source engine.store path, { engine with memory := engine.memory.record path }) := by
  have h : (lookup engine.store path).exec engine.memory =
      (source engine.store path, engine.memory.record path) := by
    rw [lookup, Run.exec_bind, Run.exec_modify]
    exact Run.exec_ofExcept _ _
  rw [text, perform]
  rw [Run.exec] at h
  rw [h]

/-- What a render answers from a faithful memory. -/
theorem render_of_faithful (h : engine.memory.Faithful engine.store) (path : String)
    (data : Bindings) :
    (engine.render path data).1 =
        (plainLoad engine.store path >>= fun node =>
          node.call (plainLoad engine.store) engine.options.maxDepth data).result () ∧
      (engine.render path data).2.memory.Faithful engine.store :=
  renderPath_recalling engine.store engine.options path data engine.memory h

/-- What a call answers from a faithful memory. -/
theorem call_of_faithful (h : engine.memory.Faithful engine.store) (node : Node)
    (data : Bindings) :
    (engine.call node data).1 = node.plainCall engine.store engine.options.maxDepth data ∧
      (engine.call node data).2.memory.Faithful engine.store :=
  callNode_recalling engine.store engine.options node data engine.memory h

end Engine

namespace Session

/-- The step stores or removes a text. -/
def Action.changesTexts : Action → Prop
  | .set _ _ | .remove _ => True
  | _ => False

/-- A new session on an engine with these texts and settings. -/
def start (store : Texts) (options : Options) : Session := { engine := { store, options } }

/-- The sessions differ in their memories only, and in whether they are used. -/
structure Alike (session session' : Session) : Prop where
  store : session.engine.store = session'.engine.store
  maxDepth : session.engine.options.maxDepth = session'.engine.options.maxDepth
  slots : session.slots = session'.slots

/-- The session remembers only what its texts say. -/
def Faithful (session : Session) : Prop := session.engine.memory.Faithful session.engine.store

/-! ## Steps -/

/-- A step that changes no text leaves a faithful memory. -/
theorem Faithful.step {session : Session} (h : session.Faithful) {action : Action}
    (hkeeps : ¬ action.changesTexts) : (session.step action).2.Faithful := by
  cases action with
  | set path text => exact absurd trivial hkeeps
  | remove path => exact absurd trivial hkeeps
  | clearCache => exact Memory.Faithful.of_cache_eq_empty rfl
  | source path =>
      rw [Session.step, Engine.text_eq]
      exact h
  | render path data => exact (Engine.render_of_faithful _ h path data).2
  | compile slot template =>
      rw [Session.step]
      split <;> exact h
  | call slot data =>
      rw [Session.step]
      split
      · exact h
      · next node _ => exact (Engine.call_of_faithful _ h node data).2
  | options => exact h

/-- Alike sessions with faithful memories give the same answer, and stay alike. -/
theorem Alike.step {a b : Session} (h : Alike a b) (ha : a.Faithful) (hb : b.Faithful)
    {action : Action} (hasks : action ≠ .options) :
    (a.step action).1 = (b.step action).1 ∧ Alike (a.step action).2 (b.step action).2 := by
  obtain ⟨hstore, hdepth, hslots⟩ := h
  cases action with
  | set path text =>
      refine ⟨rfl, ⟨?_, hdepth, hslots⟩⟩
      show a.engine.store.set path text = b.engine.store.set path text
      rw [hstore]
  | remove path =>
      refine ⟨?_, ⟨?_, hdepth, hslots⟩⟩
      · show Answer.done (a.engine.store.contains path) = .done (b.engine.store.contains path)
        rw [hstore]
      · show a.engine.store.remove path = b.engine.store.remove path
        rw [hstore]
  | clearCache => exact ⟨rfl, ⟨hstore, hdepth, hslots⟩⟩
  | source path =>
      rw [Session.step, Session.step, Engine.text_eq, Engine.text_eq]
      refine ⟨?_, ⟨hstore, hdepth, hslots⟩⟩
      show Answer.outcome (source a.engine.store path) = .outcome (source b.engine.store path)
      rw [hstore]
  | render path data =>
      refine ⟨congrArg Answer.outcome ?_, ⟨hstore, hdepth, hslots⟩⟩
      show (a.engine.render path data).1 = (b.engine.render path data).1
      rw [(Engine.render_of_faithful _ ha path data).1,
        (Engine.render_of_faithful _ hb path data).1, hstore, hdepth]
  | compile slot template =>
      rw [Session.step, Session.step]
      cases SqlTemplates.compile template with
      | error e => exact ⟨rfl, ⟨hstore, hdepth, hslots⟩⟩
      | ok node =>
          refine ⟨rfl, ⟨hstore, hdepth, ?_⟩⟩
          show a.slots.insert slot node = b.slots.insert slot node
          rw [hslots]
  | call slot data =>
      rw [Session.step, Session.step, hslots]
      cases b.slots[slot]? with
      | none => exact ⟨rfl, ⟨hstore, hdepth, hslots⟩⟩
      | some node =>
          refine ⟨congrArg Answer.outcome ?_, ⟨hstore, hdepth, rfl⟩⟩
          show (a.engine.call node data).1 = (b.engine.call node data).1
          rw [(Engine.call_of_faithful _ ha node data).1,
            (Engine.call_of_faithful _ hb node data).1, hstore, hdepth]
  | options => exact absurd rfl hasks

/-! ## Runs -/

theorem run_cons (session : Session) (action : Action) (actions : List Action) :
    (session.run (action :: actions)).1 =
      (session.step action).1 :: ((session.step action).2.run actions).1 := rfl

/-- The steps do not ask for the settings, and after a change of the texts the next step
clears the cache. -/
structure Clearing (actions : List Action) : Prop where
  noOptions : .options ∉ actions
  clears : actions.IsChain fun action next => action.changesTexts → next = .clearCache

theorem Clearing.tail {action : Action} {actions : List Action}
    (h : Clearing (action :: actions)) : Clearing actions :=
  ⟨fun hm => h.noOptions (List.mem_cons_of_mem _ hm), h.clears.tail⟩

/-- Alike sessions give the same answers, from faithful memories or from any memories that
the next step clears. -/
theorem Alike.run : ∀ {actions : List Action}, Clearing actions → ∀ {a b : Session}, Alike a b →
    (a.Faithful ∧ b.Faithful) ∨ (∀ next ∈ actions.head?, next = .clearCache) →
      (a.run actions).1 = (b.run actions).1
  | [], _, _, _, _, _ => rfl
  | action :: actions, hclear, a, b, h, hmemory => by
      have hasks : action ≠ .options := fun he => hclear.noOptions (he ▸ List.mem_cons_self ..)
      rw [run_cons, run_cons]
      rcases hmemory with ⟨ha, hb⟩ | hnext
      · obtain ⟨hanswer, hafter⟩ := h.step ha hb hasks
        rw [hanswer]
        refine congrArg _ (Alike.run hclear.tail hafter ?_)
        by_cases hchanges : action.changesTexts
        · exact .inr fun next hm => (List.isChain_cons.1 hclear.clears).1 next hm hchanges
        · exact .inl ⟨ha.step hchanges, hb.step hchanges⟩
      · obtain rfl : action = .clearCache := hnext action rfl
        have hafter : Alike (a.step .clearCache).2 (b.step .clearCache).2 :=
          ⟨h.store, h.maxDepth, h.slots⟩
        refine congrArg _ (Alike.run hclear.tail hafter (.inl ⟨?_, ?_⟩)) <;>
          exact Memory.Faithful.of_cache_eq_empty rfl

/-- If every change of the texts is followed by clearing the cache, the answers to all steps
are the same with the cache and without it. -/
theorem run_cache_eq (store : Texts) (maxDepth : Nat) {actions : List Action}
    (h : Clearing actions) :
    ((start store { maxDepth, cache := true }).run actions).1 =
      ((start store { maxDepth, cache := false }).run actions).1 :=
  Alike.run h ⟨rfl, rfl, rfl⟩ (.inl
    ⟨Memory.Faithful.of_cache_eq_empty rfl, Memory.Faithful.of_cache_eq_empty rfl⟩)

/-- The text of a partial is changed between two renders of the template that includes
it. -/
theorem run_cache_eq_changed :
    ∃ actions : List Action, Clearing actions ∧
      ((start {} { maxDepth := 1, cache := true }).run actions).1 =
        ((start {} { maxDepth := 1, cache := false }).run actions).1 ∧
      ((start {} { maxDepth := 1, cache := true }).run actions).1 =
        [.done true, .done true, .done true, .done true, .outcome (.ok "x"),
          .done true, .done true, .outcome (.ok "y")] := by
  let actions : List Action :=
    [.set "a" "\x7b\x7b> include 'b'\x7d\x7d", .clearCache, .set "b" "x", .clearCache,
      .render "a" ∅, .set "b" "y", .clearCache, .render "a" ∅]
  have hclearing : Clearing actions :=
    ⟨by simp [actions], by simp [actions, Action.changesTexts]⟩
  refine ⟨actions, hclearing, run_cache_eq {} 1 hclearing, ?_⟩
  cbv

end Session

end SqlTemplates
