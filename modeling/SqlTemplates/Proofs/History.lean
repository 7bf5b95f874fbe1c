import SqlTemplates.Proofs.Caching
import SqlTemplates.Proofs.Loads

/-!
# The history of a session

What happens to the engine of a session, from step to step, is its history: the loads of
every call and render, the clearing of the cache, and the changes of the texts in between.

The laws are about any history, whatever steps it comes from.  A template stays in the cache
until it is cleared (`Engine.Leads.remembers`), and what is in it goes back to a load that
looked its text up (`Engine.Leads.goes_back`).  The look-ups of a history are those that the
engine takes down (`Engine.Leads.lookups_eq`).
-/

namespace SqlTemplates

/-! ## Laws of histories -/

namespace Engine

variable {S : Type} [Source S]

/-- The paths that are looked up in a transition. -/
def Transition.lookups : Transition S → List String
  | .loaded load => load.lookups
  | .lookedUp path => [path]
  | .cleared | .changed _ => []

namespace Leads

variable {first last : Engine S} {transitions : List (Transition S)}

theorem options_eq (h : Leads first transitions last) : last.options = first.options := by
  induction h with
  | nil => rfl
  | loaded _ ih | lookedUp _ ih | cleared _ ih | changed _ ih => exact ih

/-- The engine takes down all look-ups, the last one first. -/
theorem lookups_eq (h : Leads first transitions last) :
    last.memory.lookups =
      (transitions.flatMap Transition.lookups).reverse ++ first.memory.lookups := by
  induction h with
  | nil => rfl
  | @loaded load _ _ _ ih =>
      rw [ih, load.lookups_after, List.flatMap_cons, List.reverse_append, List.append_assoc,
        Transition.lookups, load.reverse_lookups]
  | lookedUp _ ih =>
      rw [ih, text_eq, List.flatMap_cons, List.reverse_append, List.append_assoc]
      rfl
  | cleared _ ih | changed _ ih => exact ih

/-- What loads keep, and clearing if it happens, is kept by a history.  Look-ups that are not
to be compiled and changes of the texts do nothing to the cache. -/
theorem keeps {P : Std.ExtTreeMap String Node → Prop} (h : Leads first transitions last)
    (hloads : ∀ load, .loaded load ∈ transitions → load.engine.options = first.options →
      P load.engine.memory.cache → P load.after.memory.cache)
    (hclear : .cleared ∈ transitions → P ∅) (hfirst : P first.memory.cache) :
    P last.memory.cache := by
  induction h with
  | nil => exact hfirst
  | loaded _ ih =>
      exact ih (fun load hm => hloads load (List.mem_cons_of_mem _ hm))
        (fun hm => hclear (List.mem_cons_of_mem _ hm)) (hloads _ (List.mem_cons_self ..) rfl hfirst)
  | lookedUp _ ih =>
      rw [text_eq] at ih
      exact ih (fun load hm => hloads load (List.mem_cons_of_mem _ hm))
        (fun hm => hclear (List.mem_cons_of_mem _ hm)) hfirst
  | cleared _ ih =>
      exact ih (fun load hm => hloads load (List.mem_cons_of_mem _ hm))
        (fun hm => hclear (List.mem_cons_of_mem _ hm)) (hclear (List.mem_cons_self ..))
  | changed _ ih =>
      exact ih (fun load hm => hloads load (List.mem_cons_of_mem _ hm))
        (fun hm => hclear (List.mem_cons_of_mem _ hm)) hfirst

/-- What is remembered stays so until the cache is cleared. -/
theorem remembers (h : Leads first transitions last) (hkeep : .cleared ∉ transitions)
    {path : String} {node : Node} (hc : first.memory.cache[path]? = some node) :
    last.memory.cache[path]? = some node := by
  refine h.keeps (P := fun cache => cache[path]? = some node) ?_ (fun hm => absurd hm hkeep) hc
  intro load _ _ hload
  rw [load.getElem?_cache_after, hload, Option.some_or]

/-- What is not remembered stays so until it is loaded. -/
theorem forgets (h : Leads first transitions last) {path : String}
    (hother : ∀ load, .loaded load ∈ transitions → load.path ≠ path)
    (hc : first.memory.cache[path]? = none) : last.memory.cache[path]? = none := by
  refine h.keeps (P := fun cache => cache[path]? = none) ?_
    (fun _ => Std.ExtTreeMap.getElem?_empty) hc
  intro load hm _ hload
  rw [load.getElem?_cache_after, hload, if_neg fun hpath => hother load hm hpath.1, Option.or_none]

/-- An engine that does not use its cache leaves it empty. -/
theorem cache_eq_empty (h : Leads first transitions last) (hoff : first.options.cache = false)
    (hc : first.memory.cache = ∅) : last.memory.cache = ∅ := by
  refine h.keeps (P := fun cache => cache = ∅) ?_ (fun _ => rfl) hc
  intro load _ hoptions hload
  apply Std.ExtTreeMap.ext_getElem?
  intro path
  rw [load.getElem?_cache_after, hload, if_neg (by simp [hoptions, hoff]), Option.or_none]

/-- What is remembered was remembered before, or it goes back to a load that looked its text
up.  The cache was not cleared since then. -/
theorem goes_back (h : Leads first transitions last) {path : String} {node : Node}
    (hc : last.memory.cache[path]? = some node) :
    (first.memory.cache[path]? = some node ∧ .cleared ∉ transitions) ∨
      ∃ before load between text, transitions = before ++ .loaded load :: between ∧
        .cleared ∉ between ∧ load.path = path ∧ load.Finds text ∧ compile text = .ok node := by
  induction h with
  | nil => exact .inl ⟨hc, List.not_mem_nil⟩
  | @loaded load transitions _ _ ih =>
      rcases ih hc with ⟨hafter, hkeep⟩ | ⟨before, other, between, text, rfl, hother⟩
      · rw [load.getElem?_cache_after] at hafter
        cases hbefore : load.engine.memory.cache[path]? with
        | some node' =>
            rw [hbefore, Option.some_or] at hafter
            exact .inl ⟨hafter, by simp [hkeep]⟩
        | none =>
            rw [hbefore, Option.none_or] at hafter
            split at hafter
            · next hload =>
                obtain ⟨rfl, -⟩ := hload
                have hresult : load.result = .ok node := by
                  cases hr : load.result with
                  | error e =>
                      rw [hr] at hafter
                      cases hafter
                  | ok node' =>
                      rw [hr] at hafter
                      exact congrArg Except.ok (Option.some.inj hafter)
                obtain ⟨text, hfinds, hcompile⟩ := load.exists_finds hbefore hresult
                exact .inr ⟨[], load, transitions, text, rfl, hkeep, rfl, hfinds, hcompile⟩
            · cases hafter
      · exact .inr ⟨.loaded load :: before, other, between, text, rfl, hother⟩
  | @lookedUp _ path' _ _ _ ih =>
      rcases ih hc with ⟨hfirst, hkeep⟩ | ⟨before, other, between, text, rfl, hother⟩
      · rw [text_eq] at hfirst
        exact .inl ⟨hfirst, by simp [hkeep]⟩
      · exact .inr ⟨.lookedUp path' :: before, other, between, text, rfl, hother⟩
  | cleared _ ih =>
      rcases ih hc with ⟨hfirst, -⟩ | ⟨before, other, between, text, rfl, hother⟩
      · exact absurd hfirst (by simp [clearCache, Memory.forget])
      · exact .inr ⟨.cleared :: before, other, between, text, rfl, hother⟩
  | @changed _ store _ _ _ ih =>
      rcases ih hc with ⟨hfirst, hkeep⟩ | ⟨before, other, between, text, rfl, hother⟩
      · exact .inl ⟨hfirst, by simp [hkeep]⟩
      · exact .inr ⟨.changed store :: before, other, between, text, rfl, hother⟩

end Leads

end Engine

/-! ## Sessions -/

namespace Session

/-- What happens to the engine in a step. -/
def transitions (session : Session) : Action → List (Engine.Transition Texts)
  | .set path text => [.changed (session.engine.store.set path text)]
  | .remove path => [.changed (session.engine.store.remove path)]
  | .clearCache => [.cleared]
  | .source path => [.lookedUp path]
  | .render path data => (session.engine.loads (.stored path) data).map .loaded
  | .compile _ _ => []
  | .call slot data =>
      match session.slots[slot]? with
      | none => []
      | some node => (session.engine.loads (.template node) data).map .loaded
  | .options => []

/-- What happens to the engine in some steps. -/
def history (session : Session) : List Action → List (Engine.Transition Texts)
  | [] => []
  | action :: actions => session.transitions action ++ (session.step action).2.history actions

/-- A step does to the engine what its transitions say. -/
theorem leads_step (session : Session) (action : Action) :
    Engine.Leads session.engine (session.transitions action) (session.step action).2.engine := by
  cases action with
  | set path text => exact .changed .nil
  | remove path => exact .changed .nil
  | clearCache => exact .cleared .nil
  | source path => exact .lookedUp .nil
  | render path data => exact session.engine.leads_loads (.stored path) data
  | compile slot template =>
      rw [step]
      split <;> exact .nil
  | call slot data =>
      rw [step, transitions]
      cases session.slots[slot]? with
      | none => exact .nil
      | some node => exact session.engine.leads_loads (.template node) data
  | options => exact .nil

/-- Some steps do to the engine what the history says. -/
theorem leads_run (session : Session) (actions : List Action) :
    Engine.Leads session.engine (session.history actions) (session.run actions).2.engine := by
  induction actions generalizing session with
  | nil => exact .nil
  | cons action actions ih => exact (session.leads_step action).append (ih _)

end Session

end SqlTemplates
