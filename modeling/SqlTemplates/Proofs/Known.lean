import SqlTemplates.Proofs.Faithful

/-!
# What an engine knows

An engine takes what it remembers under a path, and else what compiling the stored text
gives.  Both together are what it knows (`Memory.known`).  The memory may be out of date:
then the engine knows something that the store no longer says.

A load fills the memory, but only with what was known already.  So evaluations leave what
an engine knows as it is, and they answer alike if as much is known (`Run.settled`).  A call
is a function of what is known (`Engine.call_eq_knownCall`), and what was called before does
not show in it (`Engine.call_after_call`).
-/

namespace SqlTemplates

section

variable {S : Type} [Source S]

/-- The compiled template that an engine with this memory uses under a path. -/
def Memory.known (store : S) (memory : Memory) (path : String) : Except Error Node :=
  match memory.cache[path]? with
  | some node => .ok node
  | none => compileStored store path

/-- A faithful memory knows what the store says. -/
theorem Memory.Faithful.known_eq {store : S} {memory : Memory} (h : memory.Faithful store) :
    memory.known store = compileStored store := by
  funext path
  rw [known]
  cases hc : memory.cache[path]? with
  | none => rfl
  | some node => exact (h path node hc).symm

/-- Taking down a look-up and its result adds nothing to what is known. -/
theorem Memory.known_afterMiss {store : S} {memory : Memory} {path : String}
    (h : memory.cache[path]? = none) (options : Options) :
    (memory.afterMiss options path (compileStored store path)).known store =
      memory.known store := by
  funext other
  cases hc : compileStored store path with
  | error e => rfl
  | ok node =>
      rw [afterMiss]
      split
      · rw [known, known, remember, Std.ExtTreeMap.getElem?_insert]
        by_cases heq : path = other
        · subst heq
          simp [h, hc]
        · simp [heq, record]
      · rfl

/-- Loads what is known under a path, in a run that has no state. -/
def knownLoad (known : String → Except Error Node) (path : String) : Run Unit Node :=
  Run.ofExcept (known path)

/-- The text of a template with these bindings, given what is known under every path. -/
def Node.knownCall (known : String → Except Error Node) (maxDepth : Nat) (node : Node)
    (data : Bindings) : Except Error String :=
  (node.call (knownLoad known) maxDepth data).result ()

/-- Runs from memories that know the same give the same, and leave what is known. -/
def Run.settled (store : S) : Run.Relation Memory Memory where
  rel x y := ∀ memory memory' : Memory, memory.known store = memory'.known store →
    x.result memory = y.result memory' ∧
      (x.exec memory).2.known store = memory.known store ∧
      (y.exec memory').2.known store = memory'.known store
  pure _ _ _ _ := ⟨rfl, rfl, rfl⟩
  bind hxy hfg memory memory' h := by
    obtain ⟨hresult, hafter⟩ := hxy memory memory' h
    refine result_bind_congr (P := fun t t' =>
      t.known store = memory.known store ∧ t'.known store = memory'.known store)
      hresult hafter fun a t t' ⟨ht, ht'⟩ => ?_
    obtain ⟨hresult, hf, hg⟩ := hfg a t t' (ht.trans (h.trans ht'.symm))
    exact ⟨hresult, hf.trans ht, hg.trans ht'⟩

theorem Run.settled_relatesErrors (store : S) : (Run.settled store).RelatesErrors :=
  fun _ _ _ _ _ => ⟨rfl, rfl, rfl⟩

namespace Engine

/-- A load gives what is known, and leaves what is known. -/
theorem load_known (store : S) (options : Options) (path : String) (memory : Memory) :
    (load store options path).result memory = memory.known store path ∧
      ((load store options path).exec memory).2.known store = memory.known store := by
  rw [Run.result, Memory.known]
  cases hc : memory.cache[path]? with
  | some node =>
      rw [exec_load_of_hit hc]
      exact ⟨rfl, rfl⟩
  | none =>
      rw [exec_load_of_miss hc]
      exact ⟨rfl, Memory.known_afterMiss hc options⟩

/-- As long as the same is known, a load is steady. -/
theorem load_steady (store : S) (options : Options) (known : String → Except Error Node)
    (path : String) :
    (Run.steady fun memory : Memory => memory.known store = known).rel
      (load store options path) (knownLoad known path) := by
  intro memory h
  obtain ⟨hresult, hafter⟩ := load_known store options path memory
  refine ⟨?_, hafter.trans h⟩
  rw [hresult, h, Run.result, knownLoad, Run.exec_ofExcept]

theorem load_settled (store : S) (options : Options) (path : String) :
    (Run.settled store).rel (load store options path) (load store options path) := by
  intro memory memory' h
  obtain ⟨hresult, hafter⟩ := load_known store options path memory
  obtain ⟨hresult', hafter'⟩ := load_known store options path memory'
  exact ⟨by rw [hresult, hresult', h], hafter, hafter'⟩

theorem callNode_settled (store : S) (options : Options) (node : Node) (data : Bindings) :
    (Run.settled store).rel (callNode store options node data)
      (callNode store options node data) := by
  rw [callNode, Node.call, Resolver.nest_eq]
  exact ((Run.settled_relatesErrors store).alike (Resolver.nestWith_related
    (Run.settled_relatesErrors store) (fun path _ => load_settled store options path)
    options.maxDepth) _ _).evaluate

/-- What an engine answers depends on what it knows, and not on how it knows it. -/
theorem call_eq_knownCall (engine : Engine S) (node : Node) (data : Bindings) :
    (engine.call node data).1 =
      node.knownCall (engine.memory.known engine.store) engine.options.maxDepth data :=
  (Node.call_steady (load_steady engine.store engine.options _) engine.options.maxDepth node data
    engine.memory rfl).1

/-- What was called before does not show in a call, whether or not the first call gave a
text. -/
theorem call_after_call (engine : Engine S) (node node' : Node) (data data' : Bindings) :
    ((engine.call node data).2.call node' data').1 = (engine.call node' data').1 := by
  have hknown := (callNode_settled engine.store engine.options node data
    engine.memory engine.memory rfl).2.1
  exact (callNode_settled engine.store engine.options node' data' _ _ hknown).1

end Engine

end

end SqlTemplates
