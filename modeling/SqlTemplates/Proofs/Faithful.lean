import SqlTemplates.Proofs.Steady

/-!
# Faithful memories

A memory is faithful to a store if every template it remembers is what compiling the
stored text would give.  A new engine's memory is faithful, and as long as the store
stays as it is, loading keeps it so, whether or not the load succeeds and whether or
not it is remembered.

From a faithful memory, evaluation cannot be told from evaluation without any memory,
in which every partial is compiled where it is used (`Engine.callNode_recalling`).  What
an engine answers is then a function of the store, the limit, the template and the
data (`Node.plainCall`).
-/

namespace SqlTemplates

/-! ## Loading without a memory -/

section

variable {S : Type} [Source S]

/-- The compiled template of the text under a path. -/
def compileStored (store : S) (path : String) : Except Error Node :=
  source store path >>= compile

/-- Compiles the text under a path, in a run that has no state. -/
def plainLoad (store : S) (path : String) : Run Unit Node :=
  Run.ofExcept (compileStored store path)

/-- The text of a template with these bindings, if every partial is compiled where it is
used. -/
def Node.plainCall (store : S) (maxDepth : Nat) (node : Node) (data : Bindings) :
    Except Error String :=
  (node.call (plainLoad store) maxDepth data).result ()

/-- The memory of an engine after a path was looked up and its text was compiled. -/
def Memory.afterMiss (memory : Memory) (options : Options) (path : String) :
    Except Error Node → Memory
  | .ok node =>
      if options.cache then (memory.record path).remember path node else memory.record path
  | .error _ => memory.record path

/-- A remembered template is used as it is. -/
theorem Engine.exec_load_of_hit {store : S} {options : Options} {path : String}
    {memory : Memory} {node : Node} (h : memory.cache[path]? = some node) :
    (load store options path).exec memory = (.ok node, memory) := by
  rw [load, Run.exec_bind, Run.exec_get]
  simp [h]

/-- A template that is not remembered is looked up and compiled. -/
theorem Engine.exec_load_of_miss {store : S} {options : Options} {path : String}
    {memory : Memory} (h : memory.cache[path]? = none) :
    (load store options path).exec memory =
      (compileStored store path, memory.afterMiss options path (compileStored store path)) := by
  rw [load, Run.exec_bind, Run.exec_get]
  simp only [h]
  rw [lookup, bind_assoc, Run.exec_bind, Run.exec_modify, compileStored]
  cases source store path with
  | error e => rfl
  | ok text =>
      show Run.exec (Run.ofExcept (compile text) >>= _) (memory.record path) =
        (compile text, memory.afterMiss options path (compile text))
      rw [Run.exec_bind, Run.exec_ofExcept]
      cases compile text with
      | error e => rfl
      | ok node =>
          rw [Memory.afterMiss]
          cases options.cache <;> rfl

/-! ## Faithful memories -/

/-- Everything the memory remembers is what compiling the stored text would give. -/
def Memory.Faithful (store : S) (memory : Memory) : Prop :=
  ∀ path node, memory.cache[path]? = some node → compileStored store path = .ok node

namespace Memory.Faithful

variable {store : S} {memory : Memory}

/-- Nothing is remembered that could be wrong. -/
theorem of_cache_eq_empty (h : memory.cache = ∅) : memory.Faithful store := by
  intro path node hnode
  rw [h] at hnode
  simp at hnode

/-- A miss leaves a faithful memory. -/
theorem afterMiss (h : memory.Faithful store) (options : Options) (path : String) :
    (memory.afterMiss options path (compileStored store path)).Faithful store := by
  cases hc : compileStored store path with
  | error e => exact h
  | ok node =>
      rw [Memory.afterMiss]
      split
      · intro other node' hnode'
        rw [remember, Std.ExtTreeMap.getElem?_insert] at hnode'
        split at hnode'
        · next heq =>
            cases hnode'
            obtain rfl : path = other := by simpa using heq
            exact hc
        · exact h other node' hnode'
      · exact h

end Memory.Faithful

/-- Running from a faithful memory gives the result that running without a memory gives,
and leaves a faithful memory. -/
def Run.recalling (store : S) : Run.Relation Memory Unit where
  rel x y := ∀ memory : Memory, memory.Faithful store →
    x.result memory = y.result () ∧ (x.exec memory).2.Faithful store
  pure := (steady (Memory.Faithful store)).pure
  bind := (steady (Memory.Faithful store)).bind

namespace Engine

/-- A load gives what compiling the stored text gives. -/
theorem load_recalling (store : S) (options : Options) (path : String) :
    (Run.recalling store).rel (load store options path) (plainLoad store path) := by
  intro memory h
  rw [Run.result, Run.result, plainLoad, Run.exec_ofExcept]
  cases hc : memory.cache[path]? with
  | some node =>
      rw [exec_load_of_hit hc, h path node hc]
      exact ⟨rfl, h⟩
  | none =>
      rw [exec_load_of_miss hc]
      exact ⟨rfl, h.afterMiss options path⟩

/-- A call gives what a call without a memory gives. -/
theorem callNode_recalling (store : S) (options : Options) (node : Node) (data : Bindings) :
    (Run.recalling store).rel (callNode store options node data)
      (node.call (plainLoad store) options.maxDepth data) :=
  Node.call_steady (load_recalling store options) options.maxDepth node data

/-- A render gives what compiling the stored text and calling it without a memory give. -/
theorem renderPath_recalling (store : S) (options : Options) (path : String) (data : Bindings) :
    (Run.recalling store).rel (renderPath store options path data)
      (plainLoad store path >>= fun node => node.call (plainLoad store) options.maxDepth data) :=
  (Run.recalling store).bind (load_recalling store options path) fun node =>
    callNode_recalling store options node data

end Engine

end

end SqlTemplates
