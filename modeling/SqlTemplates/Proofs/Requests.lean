import Mathlib
import SqlTemplates.Proofs.History
import SqlTemplates.Proofs.WellFormed

/-!
# What a template can ask for

A path reaches the store in two ways: someone renders it, or a template that is evaluated
includes it.  What is included was checked when the template was compiled, so it is a dot
path, whatever the data are (`Session.lookups_of_step`).

Three things come together.  Compiling checks the paths of partials
(`compile_isDotPath`).  An evaluation asks only for partials of templates that are open
(`Engine.requested_loads`).  And all templates of a session come from compiling, those that
its cache remembers and those that are kept in slots (`Session.Compiled`), even when the
texts are others by now.
-/

namespace SqlTemplates

/-! ## Dot paths -/

/-- Texts around a separator are split apart there. -/
theorem Text.splitOn_append_sep (sep : Char) (s t : List Char) :
    splitOn sep (s ++ sep :: t) = splitOn sep s ++ splitOn sep t := by
  induction s with
  | nil => simp [splitOn]
  | cons c s ih =>
      rw [List.cons_append, splitOn, splitOn, ih]
      split
      · rfl
      · cases hs : splitOn sep s with
        | nil => exact absurd hs (splitOn_ne_nil sep s)
        | cons part parts => rfl

/-- No two dots follow each other in a dot path. -/
theorem Name.not_dots_infix_of_isDotPath {s : List Char} (h : isDotPath s = true) :
    ¬ ['.', '.'] <:+: s := by
  rintro ⟨before, after, rfl⟩
  have hsplit : before ++ ['.', '.'] ++ after = before ++ '.' :: ([] ++ '.' :: after) := by simp
  have hempty : [] ∈ Text.splitOn '.' (before ++ ['.', '.'] ++ after) := by
    rw [hsplit, Text.splitOn_append_sep, Text.splitOn_append_sep]
    exact List.mem_append_right _ (List.mem_append_left _ (List.mem_singleton.2 rfl))
  have hsegment : isSegment [] = true := List.all_eq_true.1 h [] hempty
  cases hsegment

/-! ## Paths of compiled templates -/

namespace Node

/-- The values of parameters of compiled partials call no partials. -/
theorem not_mem_demands_of_isArgument {node : Node} (h : node.IsArgument) (path : String) :
    .partialCall path ∉ node.demands := by
  cases h <;> simp [demands]

theorem not_mem_paramDemands {params : List (String × Node)}
    (h : ∀ param ∈ params, param.2.IsArgument) (path : String) :
    .partialCall path ∉ paramDemands params := by
  induction params with
  | nil => exact List.not_mem_nil
  | cons param params ih =>
      obtain ⟨hparam, hparams⟩ := List.forall_mem_cons.1 h
      rw [paramDemands, List.mem_append]
      rintro (hm | hm)
      · exact not_mem_demands_of_isArgument hparam path hm
      · exact ih hparams hm

mutual

/-- The partials of a well-formed node have dot paths. -/
theorem isDotPath_of_mem_demands {path : String} :
    ∀ {node : Node}, node.WellFormed → .partialCall path ∈ node.demands →
      Name.isDotPath path.toList = true
  | .content _, _, hm | .literal _, _, hm => by
      rw [demands] at hm
      cases hm
  | .value _, _, hm | .filter _ _, _, hm => by
      rw [demands, List.mem_singleton] at hm
      cases hm
  | .partialCall _ _ _, .partialCall hpath hparams, hm => by
      rw [demands, List.mem_append, List.mem_singleton] at hm
      rcases hm with hm | hm
      · exact absurd hm (not_mem_paramDemands (fun param hparam => (hparams param hparam).2) path)
      · cases hm
        exact hpath
  | .ifBlock _ _ _, .ifBlock _ hbody, hm => by
      rw [demands, List.mem_cons] at hm
      rcases hm with hm | hm
      · cases hm
      · exact isDotPath_of_mem_demandsAll hbody hm
  | .ifElse _ _ _ _, .ifElse _ hbody helse, hm => by
      rw [demands, List.mem_cons, List.mem_append] at hm
      rcases hm with hm | hm | hm
      · cases hm
      · exact isDotPath_of_mem_demandsAll hbody hm
      · exact isDotPath_of_mem_demandsAll helse hm
  | .block _ _, .block hbody, hm => by
      rw [demands] at hm
      exact isDotPath_of_mem_demandsAll hbody hm

/-- The partials of well-formed nodes have dot paths. -/
theorem isDotPath_of_mem_demandsAll {path : String} :
    ∀ {nodes : List Node}, (∀ node ∈ nodes, node.WellFormed) →
      .partialCall path ∈ demandsAll nodes → Name.isDotPath path.toList = true
  | [], _, hm => by
      rw [demandsAll] at hm
      cases hm
  | _ :: _, h, hm => by
      obtain ⟨hnode, hnodes⟩ := List.forall_mem_cons.1 h
      rw [demandsAll, List.mem_append] at hm
      rcases hm with hm | hm
      · exact isDotPath_of_mem_demands hnode hm
      · exact isDotPath_of_mem_demandsAll hnodes hm

end

end Node

/-- The partials of what compiles have dot paths. -/
theorem compile_isDotPath {template path : String} {node : Node}
    (h : compile template = .ok node) (hm : .partialCall path ∈ node.demands) :
    Name.isDotPath path.toList = true := by
  obtain ⟨items, rfl, hitems⟩ := compile_wellFormed h
  rw [Node.demands] at hm
  exact Node.isDotPath_of_mem_demandsAll hitems hm

/-! ## Templates that were compiled -/

/-- All templates that are remembered come from compiling some text. -/
def Memory.Compiled (memory : Memory) : Prop :=
  ∀ (path : String) node, memory.cache[path]? = some node → ∃ text, compile text = .ok node

section

variable {S : Type} [Source S]

theorem Engine.Leads.compiled {first last : Engine S} {transitions : List (Transition S)}
    (h : Leads first transitions last) (hfirst : first.memory.Compiled) : last.memory.Compiled := by
  intro path node hc
  rcases h.goes_back hc with ⟨hbefore, -⟩ | ⟨_, _, _, text, -, -, -, -, hcompile⟩
  · exact hfirst path node hbefore
  · exact ⟨text, hcompile⟩

/-- What is loaded comes from compiling, now or earlier. -/
theorem Load.compiled {load : Load S} (h : load.engine.memory.Compiled) {node : Node}
    (hnode : load.result = .ok node) : ∃ text, compile text = .ok node := by
  cases hc : load.engine.memory.cache[load.path]? with
  | some node' =>
      rw [(of_hit hc).1] at hnode
      cases hnode
      exact h load.path node hc
  | none =>
      obtain ⟨text, -, hcompile⟩ := exists_finds hc hnode
      exact ⟨text, hcompile⟩

end

namespace Session

/-- All templates of the session come from compiling some text. -/
structure Compiled (session : Session) : Prop where
  memory : session.engine.memory.Compiled
  slots : ∀ (slot : String) node, session.slots[slot]? = some node →
    ∃ text, compile text = .ok node

theorem compiled_start (store : Texts) (options : Options) : (start store options).Compiled where
  memory _ _ h := by simp [start] at h
  slots _ _ h := by simp [start] at h

theorem Compiled.step {session : Session} (h : session.Compiled) (action : Action) :
    (session.step action).2.Compiled where
  memory := (session.leads_step action).compiled h.memory
  slots := by
    cases action with
    | compile slot template =>
        rw [Session.step]
        split
        · exact h.slots
        · next node hnode =>
            intro other node' hother
            rw [Std.ExtTreeMap.getElem?_insert] at hother
            split at hother
            · cases hother
              exact ⟨template, hnode⟩
            · exact h.slots other node' hother
    | call slot data =>
        rw [Session.step]
        split <;> exact h.slots
    | set | remove | clearCache | source | render | options => exact h.slots

theorem Compiled.run {session : Session} (h : session.Compiled) (actions : List Action) :
    (session.run actions).2.Compiled := by
  induction actions generalizing session with
  | nil => exact h
  | cons action actions ih => exact ih (h.step action)

/-! ## Requests -/

/-- In this step the template is evaluated by now: it is the one that the step calls, or the
result of a load that the step has made. -/
inductive Open (session : Session) (action : Action)
    (before : List (Engine.Transition Texts)) : Node → Prop
  | called {slot : String} {data : Bindings} {node : Node} :
      action = .call slot data → session.slots[slot]? = some node →
      Open session action before node
  | loaded {load : Load Texts} {node : Node} :
      .loaded load ∈ before → load.result = .ok node → Open session action before node

/-- A template that is open was compiled. -/
theorem Compiled.of_open {session : Session} (h : session.Compiled) {action : Action}
    {before after : List (Engine.Transition Texts)}
    (hsplit : session.transitions action = before ++ after) {node : Node}
    (hopen : session.Open action before node) : ∃ text, compile text = .ok node := by
  cases hopen with
  | called _ hslot => exact h.slots _ node hslot
  | @loaded load _ hmem hresult =>
      obtain ⟨earlier, between, rfl⟩ := List.append_of_mem hmem
      have hleads := session.leads_step action
      rw [hsplit, List.append_assoc, List.cons_append] at hleads
      exact Load.compiled (hleads.at_load.1.compiled h.memory) hresult

/-- A load of a step is that of the path that the step renders, or of a partial of a template
that is open. -/
theorem request_of_transitions {session : Session} {action : Action}
    {before after : List (Engine.Transition Texts)} {load : Load Texts}
    (h : session.transitions action = before ++ .loaded load :: after) :
    (∃ data, action = .render load.path data ∧ before = []) ∨
      ∃ node, session.Open action before node ∧ .partialCall load.path ∈ node.demands := by
  have hloads : ∀ {start : Engine.Start} {data : Bindings},
      (session.engine.loads start data).map .loaded = before ++ .loaded load :: after →
        ∃ loads, before = loads.map .loaded ∧ start.Request loads load.path := by
    intro start data h
    obtain ⟨loads, rest, hsplit, rfl, hrest⟩ := List.map_eq_append_iff.1 h
    obtain ⟨other, more, rfl, hload, -⟩ := List.map_eq_cons_iff.1 hrest
    cases hload
    exact ⟨loads, rfl, Engine.request_of_loads_eq hsplit⟩
  cases action with
  | render path data =>
      obtain ⟨loads, rfl, hrequest⟩ := hloads h
      cases hrequest with
      | rendered hstart hnil =>
          cases hstart
          exact .inl ⟨data, rfl, by rw [hnil]; rfl⟩
      | included hopen hm =>
          cases hopen with
          | called hstart => cases hstart
          | loaded hmem hresult =>
              exact .inr ⟨_, .loaded (List.mem_map_of_mem hmem) hresult, hm⟩
  | call slot data =>
      rw [transitions] at h
      split at h
      · simp at h
      · next node hslot =>
          obtain ⟨loads, rfl, hrequest⟩ := hloads h
          cases hrequest with
          | rendered hstart => cases hstart
          | included hopen hm =>
              cases hopen with
              | called hstart =>
                  cases hstart
                  exact .inr ⟨_, .called rfl hslot, hm⟩
              | loaded hmem hresult =>
                  exact .inr ⟨_, .loaded (List.mem_map_of_mem hmem) hresult, hm⟩
  | set | remove | clearCache | source | compile | options =>
      cases before <;> simp [transitions] at h

/-- Only a look-up step looks up a path that is not loaded. -/
theorem eq_source_of_lookedUp {session : Session} {action : Action} {path : String}
    (h : .lookedUp path ∈ session.transitions action) : action = .source path := by
  cases action with
  | source other =>
      cases List.mem_singleton.1 h
      rfl
  | call slot data =>
      rw [transitions] at h
      split at h <;> simp at h
  | set | remove | clearCache | render | compile | options => simp [transitions] at h

/-- What a step of a session looks up is what it was asked to look up, or it is the path of a
load.  A load is that of the path that the step renders, and it is the first one then; or it
is that of a partial in a template that the step calls or has loaded.  In this case the path
is a dot path, so neither a slash is in it nor two dots in a row. -/
theorem lookups_of_step (store : Texts) (options : Options) (actions : List Action)
    (action : Action) :
    let session := ((start store options).run actions).2
    ∃ made, (session.step action).2.engine.memory.lookups =
        made ++ session.engine.memory.lookups ∧
      ∀ path ∈ made, action = .source path ∨ ∃ before load after,
        session.transitions action = before ++ .loaded load :: after ∧
        load.path = path ∧ load.lookups = [path] ∧
        ((∃ data, action = .render path data ∧ before = []) ∨
          (∃ node, session.Open action before node ∧ .partialCall path ∈ node.demands) ∧
          Name.isDotPath path.toList = true ∧ '/' ∉ path.toList ∧
          ¬ ['.', '.'] <:+: path.toList) := by
  intro session
  have hsession : session.Compiled := (compiled_start store options).run actions
  refine ⟨_, (session.leads_step action).lookups_eq, fun path hmade => ?_⟩
  obtain ⟨transition, hmem, hpath⟩ := List.mem_flatMap.1 (List.mem_reverse.1 hmade)
  cases transition with
  | loaded load =>
      obtain ⟨before, after, hsplit⟩ := List.append_of_mem hmem
      obtain ⟨rfl, hlookups⟩ := load.eq_of_mem_lookups hpath
      refine .inr ⟨before, load, after, hsplit, rfl, hlookups, ?_⟩
      refine (request_of_transitions hsplit).imp_right fun ⟨node, hopen, hm⟩ => ?_
      obtain ⟨text, hcompile⟩ := hsession.of_open hsplit hopen
      have hdot := compile_isDotPath hcompile hm
      exact ⟨⟨node, hopen, hm⟩, hdot, Name.not_mem_of_isDotPath hdot (by decide) (by decide),
        Name.not_dots_infix_of_isDotPath hdot⟩
  | lookedUp other =>
      obtain rfl := List.mem_singleton.1 hpath
      exact .inl (eq_source_of_lookedUp hmem)
  | cleared | changed => cases hpath

/-- The rendered path is no dot path.  The template there includes another one, so the second
look-up is that of a partial. -/
theorem lookups_of_step_included :
    ∃ (store : Texts) (action : Action) (before : List (Engine.Transition Texts)) (node : Node),
      ((start store {}).step action).2.engine.memory.lookups = ["b.c", "../a"] ∧
      (start store {}).Open action before node ∧ .partialCall "b.c" ∈ node.demands ∧
      Name.isDotPath "b.c".toList = true := by
  let store := Texts.ofList [("../a", "\x7b\x7b> include 'b.c'\x7d\x7d"), ("b.c", "x")]
  let action : Action := .render "../a" ∅
  have hlookups : ((start store {}).step action).2.engine.memory.lookups = ["b.c", "../a"] := by
    cbv
  obtain ⟨made, hmade, hpaths⟩ := lookups_of_step store {} [] action
  have hmem : "b.c" ∈ made := by
    have hstart : ((start store {}).run []).2.engine.memory.lookups = [] := rfl
    rw [hstart, List.append_nil] at hmade
    rw [hmade.symm.trans hlookups]
    exact List.mem_cons_self ..
  rcases hpaths "b.c" hmem with hsource | ⟨before, load, after, -, -, -, hrender | hincluded⟩
  · simp [action] at hsource
  · obtain ⟨data, hrender, -⟩ := hrender
    simp [action] at hrender
  · obtain ⟨⟨node, hopen, hm⟩, hdot, -, -⟩ := hincluded
    exact ⟨store, action, before, node, hlookups, hopen, hm, hdot⟩

end Session

end SqlTemplates
