import Mathlib
import SqlTemplates.Proofs.Related

/-!
# Scoping

A partial sees what its callers see, but for its parameters, and so on through all
partials that enclose it.  `Context.get_nested` says what a name is in the innermost
context: the parameter of the last call that has one of this name, even if it is bound to
nothing, or else what the outermost context says.  Every level copies all bindings into new
data, so the order of covering has to be the same at each.

`Context.watched` calls partials inside one another and looks at every context right before
it calls and right after.  A context is the same on both sides of a call, whether or not the
call gives a text.
-/

namespace SqlTemplates

variable {σ α : Type}

/-- The run, and then a change of the state, whether or not the run gives a value. -/
def Run.thenModify (run : Run σ α) (f : σ → σ) : Run σ α :=
  ExceptT.mk fun s => ((run.exec s).1, f (run.exec s).2)

@[simp] theorem Run.exec_thenModify (run : Run σ α) (f : σ → σ) (s : σ) :
    (run.thenModify f).exec s = ((run.exec s).1, f (run.exec s).2) := rfl

/-! ## Adding to the locals -/

namespace Context

/-- A way to add locals to a context. -/
inductive Addition
  | one (name : String) (value : Value)
  | many (items : List (String × Value))

/-- What is bound in turn. -/
def Addition.bound : Addition → List (String × Value)
  | .one name value => [(name, value)]
  | .many items => items

/-- Adds some locals. -/
def add (ctx : Context) : Addition → Context
  | .one name value => ctx.bind name value
  | .many items => ctx.bindAll items

/-- Adds locals in turn. -/
def addAll (ctx : Context) (additions : List Addition) : Context := additions.foldl add ctx

theorem add_eq_bindAll (ctx : Context) (addition : Addition) :
    ctx.add addition = ctx.bindAll addition.bound := by
  cases addition <;> rfl

/-- Adding locals in turn binds all of them in turn. -/
theorem addAll_eq_bindAll (ctx : Context) (additions : List Addition) :
    ctx.addAll additions = ctx.bindAll (additions.flatMap Addition.bound) := by
  induction additions generalizing ctx with
  | nil => rfl
  | cons addition additions ih =>
      rw [addAll, List.foldl_cons, ← addAll, ih, add_eq_bindAll, bindAll, bindAll, bindAll,
        List.flatMap_cons, Bindings.bindAll_append]

/-! ## Nested calls -/

/-- The context of the innermost of some partials that are called inside one another with
these parameters. -/
def nested (ctx : Context) (params : List Bindings) : Context := params.foldl child ctx

/-- The contexts that call them, the outermost first. -/
def enclosing (ctx : Context) : List Bindings → List Context
  | [] => []
  | params :: inner => ctx :: (ctx.child params).enclosing inner

@[simp] theorem nested_nil (ctx : Context) : ctx.nested [] = ctx := rfl

@[simp] theorem nested_cons (ctx : Context) (params : Bindings) (inner : List Bindings) :
    ctx.nested (params :: inner) = (ctx.child params).nested inner := rfl

theorem getElem?_bindings_child (ctx : Context) (params : Bindings) (name : String) :
    (ctx.child params).bindings[name]? = params[name]?.or ctx.bindings[name]? :=
  Bindings.getElem?_overlay _ _ _

/-- What is bound in the innermost context is bound by the last call that binds it, or else
in the outermost context. -/
theorem getElem?_bindings_nested (ctx : Context) (params : List Bindings) (name : String) :
    (ctx.nested params).bindings[name]? =
      (params.reverse.findSome? (·[name]?)).or ctx.bindings[name]? := by
  induction params generalizing ctx with
  | nil => rfl
  | cons first inner ih =>
      rw [nested_cons, ih, getElem?_bindings_child, List.reverse_cons, List.findSome?_append,
        Option.or_assoc]
      simp

theorem mem_bindings_nested (ctx : Context) (params : List Bindings) (name : String) :
    name ∈ (ctx.nested params).bindings ↔
      (∃ bound ∈ params, name ∈ bound) ∨ name ∈ ctx.bindings := by
  induction params generalizing ctx with
  | nil => simp
  | cons first inner ih =>
      have hchild : name ∈ (ctx.child first).bindings ↔ name ∈ ctx.bindings ∨ name ∈ first :=
        Std.ExtTreeMap.mem_union_iff
      rw [nested_cons, ih, hchild, List.exists_mem_cons_iff]
      grind

theorem depth_nested (ctx : Context) (params : List Bindings) :
    (ctx.nested params).depth = ctx.depth + params.length := by
  induction params generalizing ctx with
  | nil => rfl
  | cons first inner ih =>
      rw [nested_cons, ih, List.length_cons]
      show ctx.depth + 1 + inner.length = _
      omega

/-- Calls partials inside one another, and gives what the innermost context gives to
`visit`.  Every context takes down all its values right before it calls a partial and right
after. -/
def watched (visit : Context → Except Error String) :
    List (String × Bindings) → Context → Run (List (String → Value)) String
  | [], ctx => Run.ofExcept (visit ctx)
  | (path, params) :: calls, ctx => do
      modify (· ++ [ctx.get])
      (Resolver.call (fun _ child => watched visit calls child) ctx path params).thenModify
        (· ++ [ctx.get])

/-- Within the limit the innermost context is visited, and every context has the same values
after a call as before. -/
theorem exec_watched (visit : Context → Except Error String) :
    ∀ (calls : List (String × Bindings)) (ctx : Context) (notes : List (String → Value)),
      ctx.depth + calls.length ≤ ctx.maxDepth →
        (watched visit calls ctx).exec notes =
          (visit (ctx.nested (calls.map Prod.snd)),
            notes ++ (ctx.enclosing (calls.map Prod.snd)).map get ++
              ((ctx.enclosing (calls.map Prod.snd)).map get).reverse)
  | [], ctx, notes, _ => by
      simp [watched, enclosing]
  | (path, params) :: calls, ctx, notes, h => by
      rw [List.length_cons] at h
      have hbelow : ctx.depth < ctx.maxDepth := by omega
      have hinner : (ctx.child params).depth + calls.length ≤ (ctx.child params).maxDepth := by
        show ctx.depth + 1 + calls.length ≤ ctx.maxDepth
        omega
      rw [watched, Run.exec_bind, Run.exec_modify]
      dsimp only
      rw [Run.exec_thenModify, Resolver.call, if_pos hbelow,
        exec_watched visit calls (ctx.child params) _ hinner]
      simp [enclosing]

/-! ## The law -/

/-- A context that nothing encloses, with some locals added. -/
def root (data : Bindings) (maxDepth : Nat) (additions : List Addition) : Context :=
  addAll { data, maxDepth } additions

/-- A name is bound in a root context by the last addition of it, or else by the data. -/
theorem getElem?_bindings_root (data : Bindings) (maxDepth : Nat) (additions : List Addition)
    (name : String) :
    (root data maxDepth additions).bindings[name]? =
      ((additions.flatMap Addition.bound).reverse.lookup name).or data[name]? := by
  rw [root, addAll_eq_bindAll]
  show (data.overlay (Bindings.bindAll ∅ _))[name]? = _
  rw [Bindings.getElem?_overlay, Bindings.getElem?_bindAll]
  simp

theorem mem_bindings_root (data : Bindings) (maxDepth : Nat) (additions : List Addition)
    (name : String) :
    name ∈ (root data maxDepth additions).bindings ↔
      (∃ item ∈ additions.flatMap Addition.bound, item.1 = name) ∨ name ∈ data := by
  rw [root, addAll_eq_bindAll]
  show name ∈ data ∪ Bindings.bindAll ∅ _ ↔ _
  rw [Std.ExtTreeMap.mem_union_iff, Bindings.mem_bindAll, or_comm]
  simp

theorem depth_root (data : Bindings) (maxDepth : Nat) (additions : List Addition) :
    (root data maxDepth additions).depth = 0 := by
  rw [root, addAll_eq_bindAll, bindAll]

theorem maxDepth_root (data : Bindings) (maxDepth : Nat) (additions : List Addition) :
    (root data maxDepth additions).maxDepth = maxDepth := by
  rw [root, addAll_eq_bindAll, bindAll]

/-- What binds a name in a context gives its value. -/
theorem getElem?_bindings_of_mem {ctx : Context} {name : String} (h : name ∈ ctx.bindings) :
    ctx.bindings[name]? = some (ctx.get name) := by
  rw [get_eq_bindings]
  cases hb : ctx.bindings[name]? with
  | none => exact absurd hb (by simpa using h)
  | some value => rfl

/-- In the innermost of some nested calls that stay within the limit, a name is the
parameter of the last call that has one of this name, even if it is bound to nothing, or
else the last local that was added under it, or else what the data say.  The names that are
bound there are the names that are bound anywhere on the way, and the depth is the number of
calls.  All contexts on the way have the same values after the calls as before, whatever the
innermost one gives. -/
theorem get_innermost (data : Bindings) (maxDepth : Nat) (additions : List Addition)
    (calls : List (String × Bindings)) (h : calls.length ≤ maxDepth) :
    let outer := root data maxDepth additions
    let inner := outer.nested (calls.map Prod.snd)
    let values := (outer.enclosing (calls.map Prod.snd)).map get
    (∀ visit, (watched visit calls outer).exec [] = (visit inner, values ++ values.reverse)) ∧
      (∀ name, inner.get name =
        (((calls.reverse.findSome? fun call => call.2[name]?).or
          ((additions.flatMap Addition.bound).reverse.lookup name)).or data[name]?).getD .absent) ∧
      (∀ name, name ∈ inner.bindings ↔ (∃ call ∈ calls, name ∈ call.2) ∨
        (∃ item ∈ additions.flatMap Addition.bound, item.1 = name) ∨ name ∈ data) ∧
      (∀ name ∈ inner.bindings, inner.bindings[name]? = some (inner.get name)) ∧
      inner.depth = calls.length := by
  intro outer inner values
  refine ⟨fun visit => ?_, fun name => ?_, fun name => ?_, fun name hm => ?_, ?_⟩
  · have hlimit : outer.depth + calls.length ≤ outer.maxDepth := by
      rw [depth_root, maxDepth_root]
      omega
    have hwatched := exec_watched visit calls outer [] hlimit
    rwa [List.nil_append] at hwatched
  · rw [get_eq_bindings, getElem?_bindings_nested, getElem?_bindings_root, ← List.map_reverse,
      List.findSome?_map, Option.or_assoc]
    rfl
  · rw [mem_bindings_nested, mem_bindings_root]
    simp only [List.mem_map, exists_exists_and_eq_and]
  · exact getElem?_bindings_of_mem hm
  · rw [depth_nested, List.length_map, depth_root]
    exact Nat.zero_add _

/-- A call that binds a name to nothing covers a local of this name, also two levels down. -/
theorem get_innermost_covered :
    ∃ (data : Bindings) (additions : List Addition) (calls : List (String × Bindings)),
      calls.length ≤ 2 ∧
      ((root data 2 additions).nested (calls.map Prod.snd)).get "x" = .absent ∧
      ((root data 2 additions).nested (calls.map Prod.snd)).get "y" = .text "local" ∧
      ((root data 2 additions).nested (calls.map Prod.snd)).get "z" = .text "data" ∧
      ((root data 2 additions).nested (calls.map Prod.snd)).depth = 2 ∧
      (watched (fun _ => .error (.partialNotFound "q")) calls (root data 2 additions)).exec [] =
        (.error (.partialNotFound "q"),
          ((root data 2 additions).enclosing (calls.map Prod.snd)).map get ++
            (((root data 2 additions).enclosing (calls.map Prod.snd)).map get).reverse) := by
  let data : Bindings := Bindings.bindAll ∅ [("x", .text "data"), ("z", .text "data")]
  let additions : List Addition := [.one "x" (.text "local"), .many [("y", .text "local")]]
  let calls : List (String × Bindings) :=
    [("p", Bindings.bindAll ∅ [("x", .absent)]), ("q", Bindings.bindAll ∅ [("w", .text "last")])]
  have hlimit : calls.length ≤ 2 := Nat.le_refl 2
  obtain ⟨hwatched, hget, -, -, hdepth⟩ := get_innermost data 2 additions calls hlimit
  exact ⟨data, additions, calls, hlimit, hget "x", hget "y", hget "z", hdepth, hwatched _⟩

end Context

end SqlTemplates
