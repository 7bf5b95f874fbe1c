import Mathlib
import SqlTemplates.Proofs.History

/-!
# The cache holds snapshots

A session that uses its cache looks a path up until it finds a text that compiles.  From then
on it uses the template of this text, whatever happens to the text, until the cache is cleared
(`Session.Snapshots`).  A load that fails leaves nothing behind, so the next one tries again.
A session without a cache looks a path up for every load.

Loads happen deep inside evaluations, which may fail later and may load a path while it is
being evaluated.  None of this matters here: the laws of histories speak of any loads that
follow each other.
-/

namespace SqlTemplates

namespace Engine.Leads

variable {S : Type} [Source S] {engine last : Engine S}
  {before between after : List (Transition S)} {first second load : Load S}

/-- A template that was looked up once is used until the cache is cleared. -/
theorem kept_of_finds
    (h : Leads engine (before ++ .loaded first :: (between ++ .loaded second :: after)) last)
    (hcache : engine.options.cache = true) {text : String} {node : Node}
    (hfinds : first.Finds text) (hcompile : compile text = .ok node)
    (hkeep : .cleared ∉ between) (hpath : second.path = first.path) :
    second.lookups = [] ∧ second.result = .ok node := by
  obtain ⟨hbefore, hrest⟩ := h.at_load
  have hmiss := Load.miss_of_lookups hfinds.lookups
  have hresult : first.result = .ok node := by
    rw [(Load.of_miss hmiss).1, compileStored, hfinds.source]
    exact hcompile
  have hoptions : first.engine.options.cache = true := by rw [hbefore.options_eq, hcache]
  have hremembered : first.after.memory.cache[second.path]? = some node := by
    rw [first.getElem?_cache_after, hpath, hmiss, if_pos ⟨rfl, hoptions⟩, hresult]
    rfl
  obtain ⟨hresult', -, hlookups⟩ :=
    Load.of_hit (hrest.at_load.1.remembers hkeep hremembered)
  exact ⟨hlookups, hresult'⟩

/-- After a load that failed the path is looked up again. -/
theorem retried_of_error
    (h : Leads engine (before ++ .loaded first :: (between ++ .loaded second :: after)) last)
    {e : Error} (hfailed : first.result = .error e) (hpath : second.path = first.path)
    (hother : ∀ load, .loaded load ∈ between → load.path ≠ first.path) :
    second.lookups = [second.path] := by
  have hmiss := first.miss_of_error hfailed
  have hforgotten : first.after.memory.cache[second.path]? = none := by
    rw [Load.cache_after_of_error hfailed, hpath, hmiss]
  rw [← hpath] at hother
  exact (Load.of_miss (h.at_load.2.at_load.1.forgets hother hforgotten)).2

/-- A load looks its path up, or it goes back to a load that did. -/
theorem looked_up_or_goes_back (h : Leads engine (before ++ .loaded load :: after) last)
    (hempty : engine.memory.cache = ∅) :
    load.lookups = [load.path] ∨
      load.lookups = [] ∧ ∃ earlier first between text node,
        before = earlier ++ .loaded first :: between ∧ .cleared ∉ between ∧
          first.path = load.path ∧ first.Finds text ∧ compile text = .ok node ∧
          load.result = .ok node := by
  cases hc : load.engine.memory.cache[load.path]? with
  | none => exact .inl (Load.of_miss hc).2
  | some node =>
      obtain ⟨hresult, -, hlookups⟩ := Load.of_hit hc
      rcases h.at_load.1.goes_back hc with
        ⟨hfirst, -⟩ | ⟨earlier, first, between, text, hsplit, hkeep, hpath, hfinds, hcompile⟩
      · rw [hempty] at hfirst
        simp at hfirst
      · exact .inr ⟨hlookups, earlier, first, between, text, node, hsplit, hkeep, hpath, hfinds,
          hcompile, hresult⟩

end Engine.Leads

namespace Session

/-- In this history the cache holds the template of the first text that was found to compile,
for every path and since it was cleared last. -/
structure Snapshots (history : List (Engine.Transition Texts)) : Prop where
  /-- Once a text was found that compiles, nothing is looked up and its template is used, until
  the cache is cleared. -/
  kept : ∀ before first between second after text node,
    history = before ++ .loaded first :: (between ++ .loaded second :: after) →
    first.Finds text → compile text = .ok node → .cleared ∉ between →
    second.path = first.path → second.lookups = [] ∧ second.result = .ok node
  /-- A load that fails looks its path up and leaves the cache as it was. -/
  failed : ∀ load e, .loaded load ∈ history → load.result = .error e →
    load.lookups = [load.path] ∧ load.after.memory.cache = load.engine.memory.cache
  /-- After a load that fails the next load of the path looks it up again. -/
  retried : ∀ before first between second after e,
    history = before ++ .loaded first :: (between ++ .loaded second :: after) →
    first.result = .error e → second.path = first.path →
    (∀ load, .loaded load ∈ between → load.path ≠ first.path) →
    second.lookups = [second.path]
  /-- A load looks its path up, or it goes back to the load that did, and the cache was not
  cleared in between. -/
  goes_back : ∀ before load after, history = before ++ .loaded load :: after →
    load.lookups = [load.path] ∨
      load.lookups = [] ∧ ∃ earlier first between text node,
        before = earlier ++ .loaded first :: between ∧ .cleared ∉ between ∧
          first.path = load.path ∧ first.Finds text ∧ compile text = .ok node ∧
          load.result = .ok node

/-- The history of a new session that uses its cache. -/
theorem snapshots_history (store : Texts) (maxDepth : Nat) (actions : List Action) :
    Snapshots ((start store { maxDepth, cache := true }).history actions) := by
  have hleads := (start store { maxDepth, cache := true }).leads_run actions
  refine ⟨?_, ?_, ?_, ?_⟩
  · intro before first between second after text node hsplit hfinds hcompile hkeep hpath
    rw [hsplit] at hleads
    exact hleads.kept_of_finds rfl hfinds hcompile hkeep hpath
  · intro load e _ hfailed
    exact ⟨(Load.of_miss (load.miss_of_error hfailed)).2, Load.cache_after_of_error hfailed⟩
  · intro before first between second after e hsplit hfailed hpath hother
    rw [hsplit] at hleads
    exact hleads.retried_of_error hfailed hpath hother
  · intro before load after hsplit
    rw [hsplit] at hleads
    exact hleads.looked_up_or_goes_back rfl

/-- A session that does not use its cache looks up a path for every load. -/
theorem lookups_of_uncached (store : Texts) (maxDepth : Nat) (actions : List Action)
    (load : Load Texts)
    (hload : .loaded load ∈ (start store { maxDepth, cache := false }).history actions) :
    load.lookups = [load.path] := by
  have hleads := (start store { maxDepth, cache := false }).leads_run actions
  obtain ⟨before, after, hsplit⟩ := List.append_of_mem hload
  rw [hsplit] at hleads
  have hempty := hleads.at_load.1.cache_eq_empty rfl rfl
  refine (Load.of_miss ?_).2
  rw [hempty]
  exact Std.ExtTreeMap.getElem?_empty

/-- In any run of a session that uses its cache, a path is looked up until a text is found that
compiles, and the template of this text is used from then on, until the cache is cleared; a
load that fails leaves the cache as it was, and the next load of the path tries again.  In a
session that does not use its cache, the cache stays empty and every load looks its path up
once.  The engine takes down the look-ups of the history and no others.  Compiling a text
does nothing to the engine. -/
theorem loads_of_run (store : Texts) (maxDepth : Nat) (actions : List Action) :
    Snapshots ((start store { maxDepth, cache := true }).history actions) ∧
      ((∀ load, .loaded load ∈ (start store { maxDepth, cache := false }).history actions →
          load.lookups = [load.path]) ∧
        ((start store { maxDepth, cache := false }).run actions).2.engine.memory.cache = ∅) ∧
      (∀ cache, ((start store { maxDepth, cache }).run actions).2.engine.memory.lookups =
        (((start store { maxDepth, cache }).history actions).flatMap
          Engine.Transition.lookups).reverse) ∧
      ∀ (session : Session) (slot template : String),
        (session.step (.compile slot template)).2.engine = session.engine := by
  refine ⟨snapshots_history store maxDepth actions,
    ⟨lookups_of_uncached store maxDepth actions, ?_⟩, fun cache => ?_,
    fun session slot template => ?_⟩
  · exact ((start store { maxDepth, cache := false }).leads_run actions).cache_eq_empty rfl rfl
  · have hlookups := ((start store { maxDepth, cache }).leads_run actions).lookups_eq
    rwa [start, List.append_nil] at hlookups
  · rw [step]
    split <;> rfl

/-- A text is changed after it was rendered, and the second render still uses the template of
the first text. -/
theorem loads_of_run_changed :
    ∃ (actions : List Action) (before between after : List (Engine.Transition Texts))
      (first second : Load Texts),
      (start {} { maxDepth := 1, cache := true }).history actions =
        before ++ .loaded first :: (between ++ .loaded second :: after) ∧
      first.Finds "x" ∧ compile "x" = .ok (.sequence [.content "x"]) ∧
      .cleared ∉ between ∧ second.path = first.path ∧
      source second.engine.store second.path = .ok "y" ∧
      second.lookups = [] ∧ second.result = .ok (.sequence [.content "x"]) := by
  let store : Texts := Texts.set {} "a" "x"
  let node : Node := .sequence [.content "x"]
  let cache : Std.ExtTreeMap String Node := Std.ExtTreeMap.insert ∅ "a" node
  let memory : Memory := { cache, lookups := ["a"] }
  let first : Load Texts := { engine := { store, options := { maxDepth := 1 } }, path := "a" }
  let second : Load Texts :=
    { engine := { store := store.set "a" "y", options := { maxDepth := 1 }, memory }, path := "a" }
  let actions : List Action := [.set "a" "x", .render "a" ∅, .set "a" "y", .render "a" ∅]
  have hhistory : (start {} { maxDepth := 1, cache := true }).history actions =
      [.changed store] ++
        .loaded first :: ([.changed (store.set "a" "y")] ++ .loaded second :: []) := by
    cbv
  have hfinds : first.Finds "x" := ⟨by cbv, by cbv⟩
  have hcompile : compile "x" = .ok node := by cbv
  have hkeep : .cleared ∉ [Engine.Transition.changed (store.set "a" "y")] := by simp
  obtain ⟨hlookups, hresult⟩ := (loads_of_run {} 1 actions).1.kept _ first _ second _ "x" node
    hhistory hfinds hcompile hkeep rfl
  refine ⟨actions, _, _, _, first, second, hhistory, hfinds, hcompile, hkeep, rfl, ?_, hlookups,
    hresult⟩
  cbv

end Session

end SqlTemplates
