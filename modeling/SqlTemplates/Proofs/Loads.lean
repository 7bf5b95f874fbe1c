import SqlTemplates.Proofs.Journal
import SqlTemplates.Proofs.Faithful

/-!
# Loads

Whether a template is looked up or was remembered is not to be seen in the outcome of an
evaluation, and neither is which template asked for it.  A `Load` is the engine as it was
when a path was loaded, so what the load gives and what it looks up can be said of it
afterwards.

`Engine.loads` are the loads of a call or of a render, in their order.  They are taken from
an evaluation that takes down every load and does the same otherwise.  They account for
everything that an evaluation does to an engine (`Engine.leads_loads`), and a path is loaded
only for a template that is open then: it was called, or it is the result of an earlier load
(`Engine.requested_loads`).
-/

namespace SqlTemplates

/-! ## A single load -/

/-- An engine, and a path that it loads. -/
structure Load (S : Type) where
  engine : Engine S
  path : String

namespace Load

variable {S : Type} [Source S] (load : Load S)

/-- What the load gives. -/
def result : Except Error Node :=
  (load.engine.perform (Engine.load load.engine.store load.engine.options load.path)).1

/-- The engine after the load. -/
def after : Engine S :=
  (load.engine.perform (Engine.load load.engine.store load.engine.options load.path)).2

/-- The paths that are looked up in the load, which are those it takes down. -/
def lookups : List String :=
  load.after.memory.lookups.take
    (load.after.memory.lookups.length - load.engine.memory.lookups.length)

/-- The load looks its path up, and there is a text. -/
structure Finds (text : String) : Prop where
  lookups : load.lookups = [load.path]
  source : source load.engine.store load.path = .ok text

/-- A template that is remembered is given, and nothing else is done. -/
theorem of_hit {load : Load S} {node : Node}
    (h : load.engine.memory.cache[load.path]? = some node) :
    load.result = .ok node ∧ load.after = load.engine ∧ load.lookups = [] := by
  have hexec : (Engine.load load.engine.store load.engine.options load.path).exec
      load.engine.memory = (.ok node, load.engine.memory) := Engine.exec_load_of_hit h
  have hresult : load.result = .ok node := congrArg Prod.fst hexec
  have hmemory : load.after.memory = load.engine.memory := congrArg Prod.snd hexec
  refine ⟨hresult, congrArg (Engine.mk load.engine.store load.engine.options) hmemory, ?_⟩
  rw [lookups, hmemory, Nat.sub_self]
  rfl

theorem after_of_miss {load : Load S} (h : load.engine.memory.cache[load.path]? = none) :
    load.after.memory = load.engine.memory.afterMiss load.engine.options load.path
      (compileStored load.engine.store load.path) :=
  congrArg Prod.snd (Engine.exec_load_of_miss h)

end Load

/-- A miss is taken down. -/
theorem Memory.lookups_afterMiss (memory : Memory) (options : Options) (path : String)
    (result : Except Error Node) :
    (memory.afterMiss options path result).lookups = path :: memory.lookups := by
  cases result with
  | error e => rfl
  | ok node =>
      rw [afterMiss]
      split <;> rfl

namespace Load

variable {S : Type} [Source S] {load : Load S}

/-- A template that is not remembered is looked up once and compiled. -/
theorem of_miss (h : load.engine.memory.cache[load.path]? = none) :
    load.result = compileStored load.engine.store load.path ∧ load.lookups = [load.path] := by
  refine ⟨congrArg Prod.fst (Engine.exec_load_of_miss h), ?_⟩
  rw [lookups, after_of_miss h, Memory.lookups_afterMiss, List.length_cons, Nat.add_sub_cancel_left]
  rfl

/-- A load that looks something up does so because nothing is remembered. -/
theorem miss_of_lookups (h : load.lookups = [load.path]) :
    load.engine.memory.cache[load.path]? = none := by
  cases hc : load.engine.memory.cache[load.path]? with
  | none => rfl
  | some node =>
      rw [(of_hit hc).2.2] at h
      cases h

/-- A load that fails does so because nothing is remembered. -/
theorem miss_of_error {e : Error} (h : load.result = .error e) :
    load.engine.memory.cache[load.path]? = none := by
  cases hc : load.engine.memory.cache[load.path]? with
  | none => rfl
  | some node =>
      rw [(of_hit hc).1] at h
      cases h

/-- Under every path there is what was remembered before.  If the options say so, what is
loaded is remembered too. -/
theorem getElem?_cache_after (load : Load S) (path : String) :
    load.after.memory.cache[path]? =
      load.engine.memory.cache[path]?.or
        (if load.path = path ∧ load.engine.options.cache = true then load.result.toOption
          else none) := by
  cases hc : load.engine.memory.cache[load.path]? with
  | some node =>
      rw [(of_hit hc).2.1]
      split
      · next h => rw [← h.1, hc, Option.some_or]
      · rw [Option.or_none]
  | none =>
      rw [after_of_miss hc, (of_miss hc).1]
      cases compileStored load.engine.store load.path with
      | error e =>
          rw [Except.toOption, ite_self, Option.or_none]
          rfl
      | ok node =>
          rw [Memory.afterMiss, Except.toOption]
          by_cases hcache : load.engine.options.cache = true
          · rw [if_pos hcache, Memory.remember, Std.ExtTreeMap.getElem?_insert]
            by_cases hpath : load.path = path
            · subst hpath
              simp [hc, hcache]
            · simp [hpath, Memory.record]
          · rw [if_neg hcache, if_neg fun h => hcache h.2, Option.or_none]
            rfl

/-- A load that fails leaves the cache as it was. -/
theorem cache_after_of_error {e : Error} (h : load.result = .error e) :
    load.after.memory.cache = load.engine.memory.cache := by
  apply Std.ExtTreeMap.ext_getElem?
  intro path
  rw [getElem?_cache_after, h, Except.toOption, ite_self, Option.or_none]

/-- A template that is loaded and was not remembered is that of the text under the path. -/
theorem exists_finds (h : load.engine.memory.cache[load.path]? = none) {node : Node}
    (hnode : load.result = .ok node) : ∃ text, load.Finds text ∧ compile text = .ok node := by
  obtain ⟨hresult, hlookups⟩ := of_miss h
  rw [hresult, compileStored] at hnode
  cases hsource : source load.engine.store load.path with
  | error e =>
      rw [hsource] at hnode
      cases hnode
  | ok text =>
      rw [hsource] at hnode
      exact ⟨text, ⟨hlookups, hsource⟩, hnode⟩

/-- The look-ups of a load come on top. -/
theorem lookups_after (load : Load S) :
    load.after.memory.lookups = load.lookups ++ load.engine.memory.lookups := by
  cases hc : load.engine.memory.cache[load.path]? with
  | some node =>
      rw [(of_hit hc).2.1, (of_hit hc).2.2]
      rfl
  | none =>
      rw [after_of_miss hc, Memory.lookups_afterMiss, (of_miss hc).2]
      rfl

/-- A load looks up its own path at most, and once. -/
theorem lookups_eq_or (load : Load S) : load.lookups = [] ∨ load.lookups = [load.path] := by
  cases hc : load.engine.memory.cache[load.path]? with
  | some node => exact .inl (of_hit hc).2.2
  | none => exact .inr (of_miss hc).2

theorem reverse_lookups (load : Load S) : load.lookups.reverse = load.lookups := by
  rcases load.lookups_eq_or with h | h <;> rw [h] <;> rfl

theorem eq_of_mem_lookups {load : Load S} {path : String} (h : path ∈ load.lookups) :
    load.path = path ∧ load.lookups = [load.path] := by
  rcases load.lookups_eq_or with hnil | hone
  · rw [hnil] at h
    cases h
  · rw [hone, List.mem_singleton] at h
    exact ⟨h.symm, hone⟩

end Load

/-! ## What happens to an engine -/

namespace Engine

variable {S : Type} [Source S]

/-- What can happen to an engine. -/
inductive Transition (S : Type)
  | loaded (load : Load S)
  /-- A path is looked up, but not to be compiled. -/
  | lookedUp (path : String)
  | cleared
  /-- The texts are others from now on. -/
  | changed (store : S)

/-- The transitions lead from one engine to another. -/
inductive Leads : Engine S → List (Transition S) → Engine S → Prop
  | nil {engine} : Leads engine [] engine
  | loaded {load transitions last} :
      Leads load.after transitions last → Leads load.engine (.loaded load :: transitions) last
  | lookedUp {engine path transitions last} :
      Leads (engine.text path).2 transitions last →
      Leads engine (.lookedUp path :: transitions) last
  | cleared {engine transitions last} :
      Leads engine.clearCache transitions last → Leads engine (.cleared :: transitions) last
  | changed {engine store transitions last} :
      Leads { engine with store } transitions last →
      Leads engine (.changed store :: transitions) last

namespace Leads

variable {first middle last : Engine S} {transitions more : List (Transition S)}

theorem append (h : Leads first transitions middle) (hmore : Leads middle more last) :
    Leads first (transitions ++ more) last := by
  induction h with
  | nil => exact hmore
  | loaded _ ih => exact .loaded (ih hmore)
  | lookedUp _ ih => exact .lookedUp (ih hmore)
  | cleared _ ih => exact .cleared (ih hmore)
  | changed _ ih => exact .changed (ih hmore)

theorem exists_of_append (h : Leads first (transitions ++ more) last) :
    ∃ middle, Leads first transitions middle ∧ Leads middle more last := by
  induction transitions generalizing first with
  | nil => exact ⟨first, .nil, h⟩
  | cons transition transitions ih =>
      cases h with
      | loaded h => exact (ih h).imp fun _ => And.imp_left .loaded
      | lookedUp h => exact (ih h).imp fun _ => And.imp_left .lookedUp
      | cleared h => exact (ih h).imp fun _ => And.imp_left .cleared
      | changed h => exact (ih h).imp fun _ => And.imp_left .changed

/-- What happens before a load leads to its engine, and what happens after it goes on from
there. -/
theorem at_load {load : Load S} (h : Leads first (transitions ++ .loaded load :: more) last) :
    Leads first transitions load.engine ∧ Leads load.after more last := by
  obtain ⟨middle, hbefore, hafter⟩ := h.exists_of_append
  cases hafter with
  | loaded hafter => exact ⟨hbefore, hafter⟩

end Leads

/-! ## Requests -/

/-- The template is evaluated by now: it was called, or it is the result of one of these
loads. -/
inductive Start.Open (start : Start) (loads : List (Load S)) : Node → Prop
  | called {node : Node} : start = .template node → Open start loads node
  | loaded {load : Load S} {node : Node} :
      load ∈ loads → load.result = .ok node → Open start loads node

/-- After these loads the path may be loaded: it is rendered, and nothing was loaded before,
or an open template includes it. -/
inductive Start.Request (start : Start) (loads : List (Load S)) (path : String) : Prop
  | rendered : start = .stored path → loads = [] → Request start loads path
  | included {node : Node} :
      start.Open loads node → .partialCall path ∈ node.demands → Request start loads path

/-- All paths of more loads may be loaded, one after the other. -/
def Start.Requested (start : Start) : List (Load S) → List (Load S) → Prop
  | _, [] => True
  | loads, load :: more => start.Request loads load.path ∧ start.Requested (loads ++ [load]) more

theorem Start.Open.append {start : Start} {loads : List (Load S)} {node : Node}
    (h : start.Open loads node) (more : List (Load S)) : start.Open (loads ++ more) node := by
  cases h with
  | called hstart => exact .called hstart
  | loaded hmem hresult => exact .loaded (List.mem_append_left more hmem) hresult

theorem Start.requested_append {start : Start} {loads more rest : List (Load S)} :
    start.Requested loads (more ++ rest) ↔
      start.Requested loads more ∧ start.Requested (loads ++ more) rest := by
  induction more generalizing loads with
  | nil => simp [Requested]
  | cons load more ih => simp [Requested, ih, and_assoc]

/-! ## Evaluations that take down their loads -/

/-- A load that is taken down. -/
def loadNoted (store : S) (options : Options) (path : String) :
    Run (Memory × List (Load S)) Node :=
  ExceptT.mk fun (memory, loads) =>
    let load : Load S := { engine := { store, options, memory }, path }
    (load.result, (load.after.memory, loads ++ [load]))

/-- A call or a render that takes down its loads. -/
def traced (store : S) (options : Options) (start : Start) (data : Bindings) :
    Run (Memory × List (Load S)) String := do
  let node ← match start with
    | .template node => pure node
    | .stored path => loadNoted store options path
  node.call (loadNoted store options) options.maxDepth data

/-- The loads of a call or of a render, in their order. -/
def loads (engine : Engine S) (start : Start) (data : Bindings) : List (Load S) :=
  ((traced engine.store engine.options start data).exec (engine.memory, [])).2.2

/-- The engine after a call or a render. -/
def afterward (engine : Engine S) (start : Start) (data : Bindings) : Engine S :=
  match start with
  | .template node => (engine.call node data).2
  | .stored path => (engine.render path data).2

end Engine

namespace Run

variable {S : Type} [Source S] {α β : Type}

/-- After these loads the second run does what the first does and takes down more loads, which
are requested and account for what is done to the memory. -/
def Traces (store : S) (options : Options) (start : Engine.Start) (x : Run Memory α)
    (y : Run (Memory × List (Load S)) α) (memory : Memory) (loads : List (Load S)) : Prop :=
  ∃ more, y.exec (memory, loads) = ((x.exec memory).1, ((x.exec memory).2, loads ++ more)) ∧
    Engine.Leads { store, options, memory } (more.map .loaded)
      { store, options, memory := (x.exec memory).2 } ∧
    start.Requested loads more

variable {store : S} {options : Options} {start : Engine.Start}

/-- Runs that do nothing more have no loads. -/
theorem Traces.of_exec_eq {x : Run Memory α} {y : Run (Memory × List (Load S)) α}
    {memory : Memory} {loads : List (Load S)} {r : Except Error α}
    (hx : x.exec memory = (r, memory)) (hy : y.exec (memory, loads) = (r, (memory, loads))) :
    Traces store options start x y memory loads := by
  refine ⟨[], ?_, ?_, trivial⟩
  · rw [hx, hy, List.append_nil]
  · rw [hx]
    exact .nil

theorem Traces.bind {x : Run Memory α} {y : Run (Memory × List (Load S)) α}
    {f : α → Run Memory β} {g : α → Run (Memory × List (Load S)) β} {memory : Memory}
    {loads : List (Load S)} (h : Traces store options start x y memory loads)
    (hfg : ∀ a t more, y.exec (memory, loads) = (.ok a, (t, loads ++ more)) →
      Traces store options start (f a) (g a) t (loads ++ more)) :
    Traces store options start (x >>= f) (y >>= g) memory loads := by
  obtain ⟨more, hy, hleads, hrequested⟩ := h
  cases hx : x.exec memory with
  | mk r t =>
      rw [hx] at hy hleads
      cases r with
      | error e =>
          refine ⟨more, ?_, ?_, hrequested⟩
          · rw [exec_bind_of_error hx, exec_bind_of_error hy]
          · rwa [exec_bind_of_error hx]
      | ok a =>
          -- The second part starts from the loads of the first, so its loads come after them.
          obtain ⟨rest, hg, hleads', hrequested'⟩ := hfg a t more hy
          refine ⟨more ++ rest, ?_, ?_, Engine.Start.requested_append.2 ⟨hrequested, hrequested'⟩⟩
          · rw [exec_bind_of_ok hx, exec_bind_of_ok hy, hg, List.append_assoc]
          · rw [exec_bind_of_ok hx, List.map_append]
            exact hleads.append hleads'

/-- As long as the template is open the second run takes down the loads of the first. -/
def tracing (store : S) (options : Options) (start : Engine.Start) (node : Node) :
    Relation Memory (Memory × List (Load S)) where
  rel x y := ∀ memory loads, start.Open loads node → Traces store options start x y memory loads
  pure _ _ _ _ := .of_exec_eq rfl rfl
  bind hxy hfg memory loads hopen :=
    (hxy memory loads hopen).bind fun a t more _ => hfg a t (loads ++ more) (hopen.append more)

theorem tracing_relatesErrors (store : S) (options : Options) (start : Engine.Start)
    (node : Node) : (tracing store options start node).RelatesErrors :=
  fun _ _ _ _ _ => .of_exec_eq rfl rfl

end Run

namespace Engine

variable {S : Type} [Source S] {store : S} {options : Options} {start : Start}

/-- A load that is requested is taken down. -/
theorem load_traces {loads : List (Load S)} {path : String} (h : start.Request loads path)
    (memory : Memory) :
    Run.Traces store options start (load store options path) (loadNoted store options path)
      memory loads := by
  let load : Load S := { engine := { store, options, memory }, path }
  have hleads : Leads load.engine [.loaded load] load.after := .loaded .nil
  exact ⟨[load], rfl, hleads, h, trivial⟩

/-- A template is open once it was loaded. -/
theorem open_of_loadNoted {path : String} {memory t : Memory} {loads more : List (Load S)}
    {node : Node}
    (h : (loadNoted store options path).exec (memory, loads) = (.ok node, (t, more))) :
    start.Open more node := by
  obtain ⟨hresult, hstate⟩ := Prod.mk.inj h
  obtain ⟨-, rfl⟩ := Prod.mk.inj hstate
  exact .loaded (List.mem_append_right loads (List.mem_singleton.2 rfl)) hresult

/-- The loads of an open template are taken down if those of its calls are. -/
theorem evaluate_tracing {resolve : Resolver Memory} {resolve' : Resolver (Memory × List (Load S))}
    {ctx : Context} {node : Node}
    (hcall : ∀ path, .partialCall path ∈ node.demands → ∀ params,
      (Run.tracing store options start node).rel (resolve.call ctx path params)
        (resolve'.call ctx path params)) :
    (Run.tracing store options start node).rel (node.evaluate resolve ctx)
      (node.evaluate resolve' ctx) :=
  Run.Relation.Alike.evaluate
    { value := fun _ _ => rfl
      filter := fun _ _ _ => (Run.tracing_relatesErrors store options start node).ofExcept _
      call := hcall }

/-- Calls from an open template are taken down.  The induction is on the levels that are
left. -/
theorem call_tracing : ∀ (n : Nat) (ctx : Context) {node : Node} (path : String),
    .partialCall path ∈ node.demands → ∀ params,
      (Run.tracing store options start node).rel
        ((Resolver.nest (load store options) n).call ctx path params)
        ((Resolver.nest (loadNoted store options) n).call ctx path params) := by
  intro n
  induction n with
  | zero =>
      intro ctx node path _ params
      rw [Resolver.call, Resolver.call]
      split <;> exact Run.tracing_relatesErrors store options start node _ _
  | succ n ih =>
      intro ctx node path hpath params
      rw [Resolver.call, Resolver.call]
      split
      · intro memory loads hopen
        -- The partial is loaded for `node`, and from then on `stored` is the template that asks.
        refine (load_traces (.included hopen hpath) memory).bind fun stored t more hload => ?_
        exact evaluate_tracing (fun inner hinner => ih (ctx.child params) inner hinner) t
          (loads ++ more) (open_of_loadNoted hload)
      · exact Run.tracing_relatesErrors store options start node _ _

/-- Evaluating a template that is open is taken down. -/
theorem callNode_tracing (node : Node) (data : Bindings) :
    (Run.tracing store options start node).rel (callNode store options node data)
      (node.call (loadNoted store options) options.maxDepth data) :=
  evaluate_tracing fun path hpath => call_tracing options.maxDepth _ path hpath

/-- An evaluation that takes down its loads does the same as one that does not. -/
theorem traced_traces (engine : Engine S) (start : Start) (data : Bindings) :
    Run.Traces engine.store engine.options start
      (start.load engine.store engine.options >>= fun node =>
        callNode engine.store engine.options node data)
      (traced engine.store engine.options start data) engine.memory [] := by
  cases start with
  | template node => exact callNode_tracing node data engine.memory [] (.called rfl)
  | stored path =>
      refine (load_traces (.rendered rfl rfl) engine.memory).bind fun node t more hload => ?_
      exact callNode_tracing node data t ([] ++ more) (open_of_loadNoted hload)

/-- The loads are those of a run with the same outcome. -/
theorem result_traced (engine : Engine S) (start : Start) (data : Bindings) :
    (traced engine.store engine.options start data).result (engine.memory, []) =
      engine.outcome start data := by
  obtain ⟨more, hexec, -, -⟩ := engine.traced_traces start data
  rw [outcome_eq, Run.result, hexec, Run.result]

theorem afterward_eq (engine : Engine S) (start : Start) (data : Bindings) :
    engine.afterward start data =
      { engine with
        memory := ((start.load engine.store engine.options >>= fun node =>
          callNode engine.store engine.options node data).exec engine.memory).2 } := by
  cases start <;> rfl

/-- The loads account for all that an evaluation does to an engine. -/
theorem leads_loads (engine : Engine S) (start : Start) (data : Bindings) :
    Leads engine ((engine.loads start data).map .loaded) (engine.afterward start data) := by
  obtain ⟨more, hexec, hleads, -⟩ := engine.traced_traces start data
  rw [afterward_eq, loads, hexec]
  exact hleads

/-- Every load of an evaluation is requested. -/
theorem requested_loads (engine : Engine S) (start : Start) (data : Bindings) :
    start.Requested [] (engine.loads start data) := by
  obtain ⟨more, hexec, -, hrequested⟩ := engine.traced_traces start data
  rw [loads, hexec]
  exact hrequested

/-- What a load is requested by, among the loads before it. -/
theorem request_of_loads_eq {engine : Engine S} {data : Bindings} {before after : List (Load S)}
    {load : Load S} (h : engine.loads start data = before ++ load :: after) :
    start.Request before load.path := by
  have hrequested := engine.requested_loads start data
  rw [h, Start.requested_append] at hrequested
  exact hrequested.2.1

end Engine

end SqlTemplates
