import Mathlib
import SqlTemplates.Proofs.Journal
import SqlTemplates.Store.Texts

/-!
# The depth limit

A limit on how deep partials may nest either does not show or ends the evaluation.
Under a higher limit an evaluation goes the same way, step by step, until the lower
limit ends the other one: `Run.upTo m` is this relation between a run under the limit
`m` and a run under a higher one that keeps a journal.  Either both have done the same
and no partial was deeper than `m`, or the first has failed at its limit and the other
has gone deeper.

So the deepest partial of an evaluation is the least limit under which it has this
outcome (`Engine.outcome_withMaxDepth`).
-/

namespace SqlTemplates

variable {σ α : Type}

/-! ## The deepest partial of a journal -/

namespace Journal

/-- No partial of the journal is deeper. -/
def Within (m : Nat) (journal : Journal) : Prop := ∀ entry ∈ journal, entry.2.depth ≤ m

/-- The depth of the deepest partial, or zero if there is none. -/
def deepest (journal : Journal) : Nat :=
  journal.foldr (fun entry depth => max entry.2.depth depth) 0

theorem within_nil (m : Nat) : Within m [] := fun _ h => nomatch h

theorem within_cons {m : Nat} {entry : String × Context} {journal : Journal} :
    Within m (entry :: journal) ↔ entry.2.depth ≤ m ∧ Within m journal :=
  List.forall_mem_cons

theorem deepest_le_iff {m : Nat} {journal : Journal} :
    journal.deepest ≤ m ↔ journal.Within m := by
  induction journal with
  | nil => exact ⟨fun _ => within_nil m, fun _ => Nat.zero_le m⟩
  | cons entry journal ih =>
      rw [within_cons, ← ih]
      exact Nat.max_le

end Journal

/-! ## Runs under two limits -/

namespace Run

/-- What a run beside a journal adds to it does not make the journal shallower. -/
def deepening (m : Nat) : Relation (σ × Journal) (σ × Journal) where
  rel x _ := ∀ s journal, ¬ Journal.Within m journal → ¬ Journal.Within m (x.exec (s, journal)).2.2
  pure _ _ _ h := h
  bind hx hf s journal h :=
    state_bind (P := fun t : σ × Journal => ¬ t.2.Within m) (hx s journal h) fun a t =>
      hf a t.1 t.2

theorem deepening_relatesErrors (m : Nat) :
    (deepening m : Relation (σ × Journal) (σ × Journal)).RelatesErrors :=
  fun _ _ _ _ h => h

/-- The first run is under the limit `m`, the second under a higher one.  Both do the
same as long as no partial is deeper than `m`. -/
def upTo (m : Nat) : Relation σ (σ × Journal) where
  rel x y :=
    (deepening m).rel y y ∧
    ∀ s journal, Journal.Within m journal →
      (∃ journal', y.exec (s, journal) = ((x.exec s).1, ((x.exec s).2, journal')) ∧
        journal'.Within m) ∨
      (∃ path, (x.exec s).1 = .error (.recursionLimit path m)) ∧
        ¬ Journal.Within m (y.exec (s, journal)).2.2
  pure a := ⟨(deepening m).pure a, fun _ journal h => .inl ⟨journal, rfl, h⟩⟩
  bind {_ _ x y f g} hxy hfg := by
    refine ⟨(deepening m).bind hxy.1 fun a => (hfg a).1, fun s journal h => ?_⟩
    rcases hxy.2 s journal h with ⟨journal', hy, hwithin⟩ | ⟨⟨path, hx⟩, hdeep⟩
    · cases hx : x.exec s with
      | mk r t =>
          rw [hx] at hy
          cases r with
          | error e =>
              rw [exec_bind_of_error hx, exec_bind_of_error hy]
              exact .inl ⟨journal', rfl, hwithin⟩
          | ok a =>
              rw [exec_bind_of_ok hx, exec_bind_of_ok hy]
              exact (hfg a).2 t journal' hwithin
    · -- The first run is over, and what the second still does only makes it deeper.
      refine .inr ⟨⟨path, ?_⟩, ?_⟩
      · rw [exec_bind_of_error (t := (x.exec s).2) (Prod.ext hx rfl)]
      · exact state_bind (P := fun t : σ × Journal => ¬ t.2.Within m) hdeep fun b t =>
          (hfg b).1 t.1 t.2

theorem upTo_relatesErrors (m : Nat) :
    (upTo m : Relation σ (σ × Journal)).RelatesErrors :=
  fun α e => ⟨deepening_relatesErrors m α e, fun _ journal h => .inl ⟨journal, rfl, h⟩⟩

theorem upTo_aside (m : Nat) (run : Run σ α) : (upTo m).rel run run.aside :=
  ⟨fun _ _ h => h, fun _ journal h => .inl ⟨journal, rfl, h⟩⟩

end Run

/-! ## Resolvers under two limits -/

namespace Resolver

theorem deepening_enterNoted (m : Nat) (load : String → Run σ Node) (path : String)
    (ctx : Context) : (Run.deepening m).rel (enterNoted load path ctx) (enterNoted load path ctx) :=
  fun _ _ h hwithin => h (Journal.within_cons.1 hwithin).2

theorem deepening_nestWith (m : Nat) (load : String → Run σ Node) (n : Nat) :
    ∀ path ctx, (Run.deepening m).rel (nestWith (enterNoted load) n path ctx)
      (nestWith (enterNoted load) n path ctx) :=
  nestWith_related (Run.deepening_relatesErrors m) (deepening_enterNoted m load) n

/-- A partial that is deeper than `m` is in the journal before anything else is done. -/
theorem not_within_of_deep {m : Nat} (load : String → Run σ Node) (n : Nat) (path : String)
    {ctx : Context} (h : m < ctx.depth) (s : σ) (journal : Journal) :
    ¬ Journal.Within m
      ((nestWith (enterNoted load) (n + 1) path ctx).exec (s, journal)).2.2 := by
  have hdeep : ¬ Journal.Within m ((path, ctx) :: journal) :=
    fun hwithin => absurd (Journal.within_cons.1 hwithin).1 (Nat.not_le_of_lt h)
  have hnode : ∀ node : Node, (Run.deepening m).rel
      (node.evaluate (nestWith (enterNoted load) n) ctx)
      (node.evaluate (nestWith (enterNoted load) n) ctx) := fun node =>
    ((Run.deepening_relatesErrors m).alike (deepening_nestWith m load n) ctx _).evaluate
  rw [nestWith]
  exact Run.state_bind (P := fun t : σ × Journal => ¬ t.2.Within m) hdeep fun node t =>
    hnode node t.1 t.2

/-- Calls from contexts that differ in the limit only go the same way up to the lower
limit.  The induction is on the levels that are left under the lower limit. -/
theorem call_upTo (load : String → Run σ Node) (k : Nat) :
    ∀ (n : Nat) {m : Nat} (ctx : Context), ctx.depth + n = m → ctx.maxDepth = m →
      ∀ path params, (Run.upTo m).rel ((nest load n).call ctx path params)
        ((nestWith (enterNoted load) (n + k)).call { ctx with maxDepth := m + k } path params)
  | 0, m, ctx, hdepth, hmax, path, params => by
      have hlow : ¬ ctx.depth < ctx.maxDepth := by omega
      rw [call, if_neg hlow, call]
      split
      · next hhigh =>
          obtain ⟨k, rfl⟩ : ∃ j, k = j + 1 := ⟨k - 1, by simp only at hhigh; omega⟩
          rw [Nat.zero_add]
          refine ⟨deepening_nestWith m load _ _ _, fun s journal _ => .inr ⟨⟨path, ?_⟩, ?_⟩⟩
          · rw [hmax]; rfl
          · refine not_within_of_deep load k path ?_ s journal
            show m < ctx.depth + 1
            omega
      · next hhigh =>
          simp only at hhigh ⊢
          obtain rfl : k = 0 := by omega
          rw [hmax]
          exact Run.upTo_relatesErrors m _ _
  | n + 1, m, ctx, hdepth, hmax, path, params => by
      have hlow : ctx.depth < ctx.maxDepth := by omega
      have hhigh : ctx.depth < m + k := by omega
      rw [call, if_pos hlow, call, if_pos hhigh, Nat.add_right_comm, nest, nestWith]
      refine (Run.upTo m).bind ?_ fun node => Run.Relation.Alike.evaluate ?_
      · refine ⟨deepening_enterNoted m load _ _, fun s journal hwithin => .inl ⟨_, rfl, ?_⟩⟩
        refine Journal.within_cons.2 ⟨?_, hwithin⟩
        show ctx.depth + 1 ≤ m
        omega
      · have hleft : (ctx.child params).depth + n = m := by
          show ctx.depth + 1 + n = m
          omega
        have hcall := call_upTo load k n (ctx.child params) hleft hmax
        exact (Run.upTo_relatesErrors m).alike_of_call hcall (fun _ => rfl) _

/-- Evaluations without an enclosing partial go the same way up to the lower limit. -/
theorem evaluate_upTo (load : String → Run σ Node) (m k : Nat) (node : Node)
    (data : Bindings) :
    (Run.upTo m).rel (node.call load m data)
      (node.evaluate (nestWith (enterNoted load) (m + k)) { data, maxDepth := m + k }) := by
  have hcall := call_upTo load k m { data, maxDepth := m } (Nat.zero_add m) rfl
  exact ((Run.upTo_relatesErrors m).alike_of_call hcall (fun _ => rfl) _).evaluate

end Resolver

/-! ## Engines under two limits -/

namespace Engine

variable {S : Type} [Source S]

/-- The engine with another limit. -/
def withMaxDepth (engine : Engine S) (maxDepth : Nat) : Engine S :=
  { engine with options := { engine.options with maxDepth } }

/-- The two cases of an evaluation under a limit and a higher one: the outcomes agree and
nothing was deeper than the lower limit, or the lower limit was exceeded. -/
theorem outcome_upTo (engine : Engine S) (start : Start) (data : Bindings) {m m' : Nat}
    (h : m ≤ m') :
    ((engine.withMaxDepth m').outcome start data = (engine.withMaxDepth m).outcome start data ∧
        ((engine.withMaxDepth m').journal start data).deepest ≤ m) ∨
      (∃ path, (engine.withMaxDepth m).outcome start data = .error (.recursionLimit path m)) ∧
        m < ((engine.withMaxDepth m').journal start data).deepest := by
  obtain ⟨k, rfl⟩ := Nat.exists_eq_add_of_le h
  have hrel : (Run.upTo m).rel
      (start.load engine.store { engine.options with maxDepth := m } >>= fun node =>
        callNode engine.store { engine.options with maxDepth := m } node data)
      (noted engine.store { engine.options with maxDepth := m + k } start data) := by
    refine (Run.upTo m).bind ?_ fun node => Resolver.evaluate_upTo _ m k node data
    cases start <;> exact Run.upTo_aside m _
  rw [← result_noted, outcome_eq]
  rcases hrel.2 engine.memory [] (Journal.within_nil m) with
    ⟨journal', he, hwithin⟩ | ⟨hlimit, hdeep⟩
  · refine .inl ⟨congrArg Prod.fst he, Journal.deepest_le_iff.2 ?_⟩
    rw [journal]
    exact (congrArg (fun p => p.2.2) he).symm ▸ hwithin
  · exact .inr ⟨hlimit, Nat.lt_of_not_le fun hle => hdeep (Journal.deepest_le_iff.1 hle)⟩

/-- A limit that is not exceeded does not show, and neither does a higher one.  Where an
evaluation gives a text, the depth of its deepest partial is the least such limit: under
a lower one it fails, at this very limit. -/
theorem outcome_withMaxDepth (engine : Engine S) (start : Start) (data : Bindings) {m m' : Nat}
    (h : m ≤ m') :
    ((∀ path limit,
          (engine.withMaxDepth m).outcome start data ≠ .error (.recursionLimit path limit)) →
        (engine.withMaxDepth m').outcome start data =
          (engine.withMaxDepth m).outcome start data) ∧
      ∀ text, (engine.withMaxDepth m').outcome start data = .ok text →
        (((engine.withMaxDepth m').journal start data).deepest ≤ m →
            (engine.withMaxDepth m).outcome start data = .ok text) ∧
          (m < ((engine.withMaxDepth m').journal start data).deepest →
            ∃ path, (engine.withMaxDepth m).outcome start data =
              .error (.recursionLimit path m)) := by
  rcases engine.outcome_upTo start data h with ⟨hsame, hle⟩ | ⟨⟨path, hlimit⟩, hlt⟩
  · refine ⟨fun _ => hsame, fun text ht => ⟨fun _ => hsame ▸ ht, fun hlt => ?_⟩⟩
    exact absurd hle (Nat.not_le_of_lt hlt)
  · refine ⟨fun hne => absurd hlimit (hne path m), fun text ht => ⟨fun hle => ?_, fun _ => ?_⟩⟩
    · exact absurd hle (Nat.not_le_of_lt hlt)
    · exact ⟨path, hlimit⟩

/-- A stored template that includes another one needs a limit of one. -/
theorem outcome_withMaxDepth_nested :
    ∃ engine : Engine Texts, 0 ≤ 1 ∧
      (engine.withMaxDepth 1).outcome (.stored "a") ∅ = .ok "xy" ∧
      ((engine.withMaxDepth 1).journal (.stored "a") ∅).deepest = 1 ∧
      ∃ path,
        (engine.withMaxDepth 0).outcome (.stored "a") ∅ = .error (.recursionLimit path 0) := by
  let engine : Engine Texts :=
    { store := .ofList [("a", "x\x7b\x7b> include 'b'\x7d\x7d"), ("b", "y")] }
  have htext : (engine.withMaxDepth 1).outcome (.stored "a") ∅ = .ok "xy" := by cbv
  have hdeepest : ((engine.withMaxDepth 1).journal (.stored "a") ∅).deepest = 1 := by cbv
  refine ⟨engine, Nat.zero_le 1, htext, hdeepest, ?_⟩
  refine ((engine.outcome_withMaxDepth (.stored "a") ∅ (Nat.zero_le 1)).2 "xy" htext).2 ?_
  rw [hdeepest]
  exact Nat.zero_lt_one

end Engine

end SqlTemplates
