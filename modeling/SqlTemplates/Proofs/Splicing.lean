import Mathlib
import SqlTemplates.Proofs.Related

/-!
# What writing leaves behind

`Node.write` puts the text of a node after what was written before.  All that is written goes to
one place, apart from the texts that a wrapper goes around or a parameter takes, which are
written on their own.  `Node.write_reference` says that nothing of it shows: writing leaves what
was there, followed by the text that the node has by recursion on the node alone, or it fails as
this text does.

Nodes in turn end with their texts in a row, or as the first of them that fails
(`Node.Ends`).  How they are put together does not matter to either, so the children of a
sequence or of a plain block can take its place anywhere in a template (`Node.Splice`).
-/

namespace SqlTemplates.Node

variable {σ : Type} {resolve : Resolver σ} {ctx : Context}

/-! ## Nodes in turn -/

/-- One after the other the nodes give these texts. -/
inductive InTurn (resolve : Resolver σ) (ctx : Context) :
    List Node → σ → List String → σ → Prop
  | nil {s : σ} : InTurn resolve ctx [] s [] s
  | cons {node : Node} {nodes : List Node} {s t u : σ} {text : String} {texts : List String} :
      (node.text resolve ctx).exec s = (.ok text, t) → InTurn resolve ctx nodes t texts u →
      InTurn resolve ctx (node :: nodes) s (text :: texts) u

/-- The nodes end with their texts in a row, or with the error of the first that fails. -/
inductive Ends (resolve : Resolver σ) (ctx : Context) (nodes : List Node) (s : σ) :
    Except Error String → σ → Prop
  | texts {texts : List String} {t : σ} :
      InTurn resolve ctx nodes s texts t → Ends resolve ctx nodes s (.ok (String.join texts)) t
  | error {before : List Node} {node : Node} {after : List Node} {texts : List String} {t u : σ}
      {e : Error} :
      nodes = before ++ node :: after → InTurn resolve ctx before s texts t →
      (node.text resolve ctx).exec t = (.error e, u) → Ends resolve ctx nodes s (.error e) u

/-- The text of nodes in a row is the text of the first and what the others give after it. -/
theorem textAll_cons (resolve : Resolver σ) (ctx : Context) (node : Node) (nodes : List Node) :
    textAll resolve ctx (node :: nodes) =
      node.text resolve ctx >>= fun first => (first ++ ·) <$> textAll resolve ctx nodes := by
  rw [textAll]
  simp only [map_eq_pure_bind]

/-- The texts of the first nodes stand before what the others give. -/
theorem InTurn.exec_textAll_append {before : List Node} {s t : σ} {texts : List String}
    (h : InTurn resolve ctx before s texts t) (after : List Node) :
    (textAll resolve ctx (before ++ after)).exec s =
      (((textAll resolve ctx after).exec t).1.map (String.join texts ++ ·),
        ((textAll resolve ctx after).exec t).2) := by
  induction h with
  | nil =>
      rw [List.nil_append, String.join_nil]
      rcases (textAll resolve ctx after).exec _ with ⟨_ | _, _⟩ <;> simp [Except.map]
  | @cons node nodes s t u text texts hnode _ ih =>
      rw [List.cons_append, textAll_cons, Run.exec_bind_of_ok hnode, Run.exec_map, ih]
      rcases (textAll resolve ctx after).exec u with ⟨_ | _, _⟩ <;>
        simp [Except.map, String.join_cons, String.append_assoc]

namespace Ends

theorem cons {node : Node} {nodes : List Node} {s t u : σ} {first : String}
    {r : Except Error String} (hnode : (node.text resolve ctx).exec s = (.ok first, t))
    (h : Ends resolve ctx nodes t r u) :
    Ends resolve ctx (node :: nodes) s (r.map (first ++ ·)) u := by
  cases h with
  | texts hturn =>
      rw [Except.map, ← String.join_cons]
      exact .texts (.cons hnode hturn)
  | error hnodes hturn hfails =>
      rw [hnodes]
      exact .error rfl (.cons hnode hturn) hfails

end Ends

/-- The text of nodes in a row is how they end in turn. -/
theorem exec_textAll_iff {nodes : List Node} {s t : σ} {r : Except Error String} :
    (textAll resolve ctx nodes).exec s = (r, t) ↔ Ends resolve ctx nodes s r t := by
  constructor
  · intro h
    induction nodes generalizing s r t with
    | nil =>
        cases h
        exact .texts .nil
    | cons node nodes ih =>
        rw [textAll_cons, Run.exec_bind_eq_iff] at h
        rcases h with ⟨first, u, hnode, hrest⟩ | ⟨e, hnode, rfl⟩
        · rw [Run.exec_map] at hrest
          cases hrest
          exact (ih rfl).cons hnode
        · exact .error (List.nil_append _).symm .nil hnode
  · rintro (@⟨texts, _, hturn⟩ | @⟨before, node, after, texts, u, _, e, rfl, hturn, hfails⟩)
    · have hall := hturn.exec_textAll_append []
      rw [List.append_nil, textAll, Run.exec_pure, Except.map, String.append_empty] at hall
      exact hall
    · rw [hturn.exec_textAll_append, textAll_cons, Run.exec_bind_of_error hfails]
      rfl

/-! ## Children in the place of their parent -/

mutual

/-- Somewhere in the node a nested sequence or a plain block gives way to its children. -/
inductive Splice : Node → Node → Prop
  | paramNode {inner inner' : Node} :
      Splice inner inner' → Splice (.paramNode inner) (.paramNode inner')
  | partialCall {kind : Wrapper} {path : String} {params params' : List (String × Node)} :
      SpliceParams params params' →
      Splice (.partialCall kind path params) (.partialCall kind path params')
  | ifBlock {kind : Branch} {condition : String} {body body' : List Node} :
      SpliceAll body body' → Splice (.ifBlock kind condition body) (.ifBlock kind condition body')
  | ifElse_body {kind : Branch} {condition : String} {body body' elseBody : List Node} :
      SpliceAll body body' →
      Splice (.ifElse kind condition body elseBody) (.ifElse kind condition body' elseBody)
  | ifElse_else {kind : Branch} {condition : String} {body elseBody elseBody' : List Node} :
      SpliceAll elseBody elseBody' →
      Splice (.ifElse kind condition body elseBody) (.ifElse kind condition body elseBody')
  | block {kind : Wrapper} {body body' : List Node} :
      SpliceAll body body' → Splice (.block kind body) (.block kind body')
  | sequence {items items' : List Node} :
      SpliceAll items items' → Splice (.sequence items) (.sequence items')

/-- One of the nodes gives way to its children, or it happens somewhere in one of them. -/
inductive SpliceAll : List Node → List Node → Prop
  | sequence {items nodes : List Node} : SpliceAll (.sequence items :: nodes) (items ++ nodes)
  | block {body nodes : List Node} : SpliceAll (.block .bare body :: nodes) (body ++ nodes)
  | head {node node' : Node} {nodes : List Node} :
      Splice node node' → SpliceAll (node :: nodes) (node' :: nodes)
  | tail {node : Node} {nodes nodes' : List Node} :
      SpliceAll nodes nodes' → SpliceAll (node :: nodes) (node :: nodes')

/-- It happens somewhere in one of the parameters. -/
inductive SpliceParams : List (String × Node) → List (String × Node) → Prop
  | head {key : String} {node node' : Node} {params : List (String × Node)} :
      Splice node node' → SpliceParams ((key, node) :: params) ((key, node') :: params)
  | tail {param : String × Node} {params params' : List (String × Node)} :
      SpliceParams params params' → SpliceParams (param :: params) (param :: params')

end

/-- A node that something can be spliced in passes no name on, and neither does the result. -/
theorem Splice.passedName?_eq_none {node node' : Node} (h : Splice node node') :
    node.passedName? = none ∧ node'.passedName? = none := by
  cases h <;> exact ⟨rfl, rfl⟩

mutual

/-- Splicing leaves the text of a node. -/
theorem Splice.text_eq (resolve : Resolver σ) (ctx : Context) {node node' : Node} :
    Splice node node' → node.text resolve ctx = node'.text resolve ctx
  | .paramNode h => by rw [text, text, h.text_eq resolve ctx]
  | .partialCall h => by rw [text, text, h.paramValues_eq resolve ctx]
  | .ifBlock h => by rw [text, text, h.textAll_eq resolve ctx]
  | .ifElse_body h => by rw [text, text, h.textAll_eq resolve ctx]
  | .ifElse_else h => by rw [text, text, h.textAll_eq resolve ctx]
  | .block h => by rw [text, text, h.textAll_eq resolve ctx]
  | .sequence h => by rw [text, text, h.textAll_eq resolve ctx]

theorem SpliceAll.textAll_eq (resolve : Resolver σ) (ctx : Context) {nodes nodes' : List Node} :
    SpliceAll nodes nodes' → textAll resolve ctx nodes = textAll resolve ctx nodes'
  | .sequence => by
      rw [textAll, text, textAll_append]
  | .block => by
      rw [textAll, text, textAll_append, bind_assoc]
      rfl
  | .head h => by rw [textAll, textAll, h.text_eq resolve ctx]
  | .tail h => by rw [textAll, textAll, h.textAll_eq resolve ctx]

theorem SpliceParams.paramValues_eq (resolve : Resolver σ) (ctx : Context)
    {params params' : List (String × Node)} :
    SpliceParams params params' → paramValues resolve ctx params = paramValues resolve ctx params'
  | .head h => by
      obtain ⟨hnode, hnode'⟩ := h.passedName?_eq_none
      rw [paramValues, paramValues, hnode, hnode', h.text_eq resolve ctx]
  | .tail h => by rw [paramValues, paramValues, h.paramValues_eq resolve ctx]

end

/-- However often it is done, splicing leaves the text of a node. -/
theorem text_eq_of_splices (resolve : Resolver σ) (ctx : Context) {node node' : Node}
    (h : Relation.ReflTransGen Splice node node') :
    node.text resolve ctx = node'.text resolve ctx := by
  induction h with
  | refl => rfl
  | tail _ hstep ih => rw [ih, hstep.text_eq resolve ctx]

/-! ## Writing -/

/-- Writing ends as the text does, after what was written before. -/
theorem exec_write (resolve : Resolver σ) (ctx : Context) (node : Node) (out : String) (s : σ) :
    (node.write resolve ctx out).exec s =
      (((node.text resolve ctx).exec s).1.map (out ++ ·), ((node.text resolve ctx).exec s).2) := by
  rw [write_eq, Run.exec_map]

theorem exec_writeAll_iff {nodes : List Node} {out : String} {s t : σ}
    {r : Except Error String} :
    (writeAll resolve ctx nodes out).exec s = (r, t) ↔
      ∃ own, Ends resolve ctx nodes s own t ∧ r = own.map (out ++ ·) := by
  rw [writeAll_eq, Run.exec_map_eq_iff]
  exact exists_congr fun own => and_congr_left fun _ => exec_textAll_iff

/-- The body of a block is written on its own, and its wrapper goes around nothing else. -/
theorem exec_write_block_iff {kind : Wrapper} {body : List Node} {out : String} {s t : σ}
    {r : Except Error String} :
    ((block kind body).write resolve ctx out).exec s = (r, t) ↔
      ∃ own, Ends resolve ctx body s own t ∧ r = own.map (out ++ kind.wrap ·) := by
  rw [write_eq, text, bind_pure_comp, Functor.map_map, Run.exec_map_eq_iff]
  exact exists_congr fun own => and_congr_left fun _ => exec_textAll_iff

/-- The wrapper of a partial goes around what the resolver gives and nothing else. -/
theorem write_partialCall (resolve : Resolver σ) (ctx : Context) (kind : Wrapper) (path : String)
    (params : List (String × Node)) (out : String) :
    (partialCall kind path params).write resolve ctx out =
      paramValues resolve ctx params >>= fun values =>
        (out ++ kind.wrap ·) <$> resolve.call ctx path (Bindings.bindAll ∅ values) := by
  rw [write_eq, ← evaluate_eq_text, evaluate_partialCall_eq, map_bind]
  simp only [Functor.map_map]

/-- Writing a node leaves what was written before, followed by the text of the node, or fails
with an error that does not depend on what was written before.  Nodes in turn are written as
their texts in a row or fail as the first of them that fails, a block as the wrapper around
the text of its body, and a partial as the wrapper around the text of the resolver.  The
children of nested sequences and plain blocks can take their places. -/
theorem write_reference (resolve : Resolver σ) (ctx : Context) (out : String) :
    (∀ (node : Node) s, (node.write resolve ctx out).exec s =
      (((node.text resolve ctx).exec s).1.map (out ++ ·), ((node.text resolve ctx).exec s).2)) ∧
    (∀ nodes s r t, (writeAll resolve ctx nodes out).exec s = (r, t) ↔
      ∃ own, Ends resolve ctx nodes s own t ∧ r = own.map (out ++ ·)) ∧
    (∀ kind body s r t, ((block kind body).write resolve ctx out).exec s = (r, t) ↔
      ∃ own, Ends resolve ctx body s own t ∧ r = own.map (out ++ kind.wrap ·)) ∧
    (∀ kind path params, (partialCall kind path params).write resolve ctx out =
      paramValues resolve ctx params >>= fun values =>
        (out ++ kind.wrap ·) <$> resolve.call ctx path (Bindings.bindAll ∅ values)) ∧
    ∀ node node' : Node, Relation.ReflTransGen Splice node node' →
      node.write resolve ctx out = node'.write resolve ctx out := by
  refine ⟨fun node s => exec_write resolve ctx node out s, fun _ _ _ _ => exec_writeAll_iff,
    fun _ _ _ _ _ => exec_write_block_iff,
    fun kind path params => write_partialCall resolve ctx kind path params out, ?_⟩
  intro node node' h
  rw [write_eq, write_eq, text_eq_of_splices resolve ctx h]

/-- A sequence in a plain block inside another block takes two steps, and the wrapper goes
around the same text. -/
theorem write_reference_nested :
    ∃ (resolve : Resolver Unit) (ctx : Context) (node node' : Node),
      node = .block .array [.content "b", .block .bare [.sequence [.filter .int "c"]]] ∧
      node' = .block .array [.content "b", .filter .int "c"] ∧
      Relation.ReflTransGen Splice node node' ∧
      node.write resolve ctx "x" = node'.write resolve ctx "x" ∧
      (node.write resolve ctx "x").exec () =
        (.ok ("x" ++ Wrapper.array.wrap (String.join ["b", "7"])), ()) := by
  let resolve : Resolver Unit := fun path _ => throw (.partialNotFound path)
  let ctx : Context := { data := Bindings.bindAll ∅ [("c", .integer 7)] }
  let node : Node := .block .array [.content "b", .block .bare [.sequence [.filter .int "c"]]]
  let node' : Node := .block .array [.content "b", .filter .int "c"]
  have hsplices : Relation.ReflTransGen Splice node node' :=
    .tail (.single (.block (.tail .block))) (.block (.tail .sequence))
  obtain ⟨-, -, hblock, -, hsame⟩ := write_reference resolve ctx "x"
  have hfilter : ((filter .int "c").text resolve ctx).exec () = (.ok "7", ()) := by cbv
  have hbody : Ends resolve ctx [.content "b", .filter .int "c"] ()
      (.ok (String.join ["b", "7"])) () := .texts (.cons rfl (.cons hfilter .nil))
  refine ⟨resolve, ctx, node, node', rfl, rfl, hsplices, hsame node node' hsplices, ?_⟩
  rw [hsame node node' hsplices]
  exact (hblock .array _ () _ ()).2 ⟨_, hbody, rfl⟩

end SqlTemplates.Node
