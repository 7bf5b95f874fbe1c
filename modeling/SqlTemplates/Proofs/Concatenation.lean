import SqlTemplates.Proofs.Compiled
import SqlTemplates.Proofs.Known
import SqlTemplates.Store.Texts

/-!
# Templates one after the other

Two templates that are put together print what the first prints and then what the second
prints (`Engine.call_append`).

The tags of the whole are the tags of both.  Where they meet, the text after the last tag
of the first template and the text before the first tag of the second one are one piece of
text, and so one node (`Event.Reads.append`).  A tag does not notice the text that has come
before it (`Tag.first?_prepend`), except in two ways that are excluded: that text may end
in a brace or a backslash, and a trim mark may reach over blanks into it.
-/

namespace SqlTemplates

/-! ## Text before a tag -/

namespace Tag

/-- The tag with more text before it. -/
def prepend (r : List Char) (tag : Tag) : Tag := { tag with before := r ++ tag.before }

namespace Lead

/-- The lead with more text before it. -/
def prepend (r : List Char) : Lead → Lead
  | .escaped text => .escaped (r ++ text)
  | .plain text => .plain (r ++ text)

theorem getLast?_append_ne {r s : List Char} {c : Char} (hr : r.getLast? ≠ some c)
    (hs : s.getLast? ≠ some c) : (r ++ s).getLast? ≠ some c := by
  rw [List.getLast?_append]
  cases hlast : s.getLast? with
  | none => exact hr
  | some d => rwa [hlast] at hs

/-- Text that does not end in a backslash does not change which backslashes count. -/
theorem of_append {r : List Char} (h : r.getLast? ≠ some '\\') (lead : List Char) :
    of (r ++ lead) = (of lead).prepend r := by
  rcases exists_slashes lead with ⟨s, rfl⟩ | ⟨s, rfl, hs⟩ | hlead
  · rw [← List.append_assoc, of_two_slashes, of_two_slashes, prepend, List.append_assoc]
  · rw [← List.append_assoc, of_slash (getLast?_append_ne h hs), of_slash hs, prepend]
  · rw [of_no_slash (getLast?_append_ne h hlead), of_no_slash hlead, prepend]

end Lead

namespace Start

/-- The start of the tag with more text before it. -/
def prepend (r : List Char) (start : Start) : Start :=
  { start with lead := r ++ start.lead, before := r ++ start.before }

variable {r : List Char} {start : Start} {tag : Tag}

theorem close_prepend {kind : Kind} {mark body : List Char}
    (h : start.close kind mark body = .ok tag) :
    (start.prepend r).close kind mark body = .ok (tag.prepend r) := by
  obtain ⟨inside, rest, hc, hfull, rfl⟩ := close_eq_ok_iff.1 h
  exact close_eq_ok_iff.2 ⟨inside, rest, hc, hfull, rfl⟩

theorem comment_prepend {s : List Char} (h : start.comment s = .ok tag) :
    (start.prepend r).comment s = .ok (tag.prepend r) := by
  unfold comment at h ⊢
  split at h
  · dsimp only at h ⊢
    split at h
    · cases h
    · cases h
      rfl
  · exact close_prepend h

theorem trimMark_prepend {s : List Char} (h : '~' ∉ s ∨ Text.EndsSolid r) :
    (start.prepend r).trimMark s = ((start.trimMark s).1.prepend r, (start.trimMark s).2) := by
  unfold trimMark
  split
  · next s =>
      have hr : Text.EndsSolid r := h.resolve_left fun hm => hm (List.mem_cons_self ..)
      simp only [prepend, push, Text.trimEnd_append hr]
  · rfl

theorem tag_prepend {s : List Char} (hseam : '~' ∉ s ∨ Text.EndsSolid r)
    (h : start.tag s = .ok tag) : (start.prepend r).tag s = .ok (tag.prepend r) := by
  cases s with
  | nil => cases h
  | cons c s =>
      have hrest : '~' ∉ s ∨ Text.EndsSolid r :=
        hseam.imp_left fun hm hmem => hm (List.mem_cons_of_mem _ hmem)
      by_cases hmark : c ∈ ['{', '!', '#', '/', '>']
      · simp only [List.mem_cons, List.not_mem_nil, or_false] at hmark
        have hpush : ∀ c, (start.prepend r).push c = (start.push c).prepend r := fun _ => rfl
        rcases hmark with rfl | rfl | rfl | rfl | rfl <;> rw [Start.tag] at h ⊢ <;> rw [hpush]
        · rw [trimMark_prepend hrest]
          exact close_prepend h
        · exact comment_prepend h
        · exact close_prepend h
        · exact close_prepend h
        · exact close_prepend h
      · have hhead : ∀ d ∈ (c :: s).head?, d ∉ ['{', '!', '#', '/', '>'] := by
          rintro d ⟨⟩
          exact hmark
        rw [tag_eq_close _ (List.cons_ne_nil c s) hhead] at h ⊢
        exact close_prepend h

end Start

/-- Text before the first tag does not change the tag. -/
theorem first?_prepend {r t : List Char} (hnone : Text.cut? openMark r = none)
    (hend : EndsPlain r) (hseam : '~' ∉ t ∨ Text.EndsSolid r) {found : Option Tag}
    (h : first? t = .ok found) : first? (r ++ t) = .ok (found.map (prepend r)) := by
  have hcut := cut?_openMark_append hnone (fun c hc => (hend c hc).1) t
  have hslash : r.getLast? ≠ some '\\' := fun hlast => (hend '\\' hlast).2 rfl
  cases found with
  | none =>
      rw [cut?_of_first?_none h] at hcut
      rw [first?, hcut]
      rfl
  | some tag =>
      obtain ⟨lead, rest, hc, ht⟩ := first?_eq_some_iff.1 h
      rw [hc] at hcut
      refine first?_eq_some_iff.2 ⟨r ++ lead, rest, hcut, ?_⟩
      have hrest : '~' ∉ rest ∨ Text.EndsSolid r :=
        hseam.imp_left fun hm hmem => hm ((Text.suffix_of_cut? hc).subset hmem)
      rw [ofCut, Lead.of_append hslash]
      rw [ofCut] at ht
      cases hlead : Lead.of lead with
      | escaped text =>
          rw [hlead] at ht
          cases ht
          rfl
      | plain text =>
          rw [hlead] at ht
          dsimp only [Lead.prepend] at ht ⊢
          have hstart : (⟨r ++ lead, r ++ text, openMark⟩ : Start) =
              Start.prepend r ⟨lead, text, openMark⟩ := rfl
          rw [hstart, Start.trimMark_prepend hrest]
          exact Start.tag_prepend
            (hrest.imp_left fun hm hmem => hm ((Start.trimMark_suffix _ rest).subset hmem)) ht

end Tag

/-! ## The events of two templates -/

namespace Event

/-- Text before a text adds to its first piece of text. -/
theorem Reads.prepend_text {left t : List Char} {es : List Located}
    (hnone : Text.cut? Tag.openMark left = none) (hend : Tag.EndsPlain left)
    (hseam : '~' ∉ t ∨ Text.EndsSolid left) (h : Reads t es) :
    ∃ right after, es = rowOfText right ++ after ∧
      Reads (left ++ t) (rowOfText (left ++ right) ++ after) := by
  obtain ⟨rest, hrest, rfl⟩ := h
  cases hf : Tag.first? t with
  | error e => rw [Tag.scan_of_error hf] at hrest; cases hrest
  | ok found =>
      have hfirst := Tag.first?_prepend hnone hend hseam hf
      cases found with
      | none =>
          rw [Tag.scan_of_none hf] at hrest ⊢
          cases hrest
          refine ⟨t, [], (List.append_nil _).symm, left ++ t, ?_, ?_⟩ <;>
            rw [Tag.scan_of_none hfirst]
          rw [List.append_nil]
          rfl
      | some tag =>
          rw [Tag.scan_of_some hf] at hrest ⊢
          refine ⟨tag.before, rowOfTag tag ++ row (Tag.scan tag.after).1 rest, ?_, rest, ?_, ?_⟩
          · simp [row]
          · rw [Tag.scan_of_some hfirst]
            exact hrest
          · rw [Tag.scan_of_some hfirst]
            simp [row, Tag.prepend, rowOfTag]

/-- The events of two texts in a row are those of the first and those of the second, but
the text where they meet is one event. -/
theorem Reads.append {s t : List Char} {es fs : List Located} (hs : Reads s es)
    (ht : Reads t fs) (hend : Tag.EndsPlain s)
    (hseam : '~' ∉ s ∧ '~' ∉ t ∨ Text.EndsSolid s ∧ Text.StartsSolid t) :
    ∃ before left right after, es = before ++ rowOfText left ∧ fs = rowOfText right ++ after ∧
      Reads (s ++ t) (before ++ (rowOfText (left ++ right) ++ after)) := by
  obtain ⟨left, hleft, rfl⟩ := hs
  obtain ⟨hsuffix, hnone⟩ := Tag.rest_of_scan hleft
  obtain ⟨right, after, rfl, hright⟩ := ht.prepend_text hnone (hend.of_suffix hsuffix)
    (hseam.imp And.right fun h => h.1.of_suffix hsuffix)
  exact ⟨_, left, right, after, row_eq _ _, rfl,
    .append_of_scan hleft (hseam.imp And.left And.right) hright⟩

end Event

/-! ## The trees of two templates -/

namespace Tree

/-- A piece of text is one tree, or none if it is empty. -/
def ofText (s : List Char) : List Tree := if s = [] then [] else [.text s]

theorem eventsAll_ofText (s : List Char) : eventsAll (ofText s) = Event.rowOfText s := by
  rw [ofText, Event.rowOfText]
  split <;> rfl

/-- A tree that ends in a text is a text. -/
theorem eq_text_of_getLast? {tree : Tree} {s : List Char}
    (h : tree.events.getLast? = some ⟨.text s, []⟩) : tree = .text s := by
  cases tree with
  | text t => simpa [events] using h
  | expression content raw => simp [events] at h
  | inclusion content raw => simp [events] at h
  | block opening body => simp [events, List.getLast?_cons, List.getLast?_append] at h
  | blockElse opening body elseBody =>
      simp [events, List.getLast?_cons, List.getLast?_append] at h

theorem eq_text_of_head? {tree : Tree} {s : List Char}
    (h : tree.events.head? = some ⟨.text s, []⟩) : tree = .text s := by
  cases tree <;> simp [events] at h
  rw [h]

theorem events_ne_nil (tree : Tree) : tree.events ≠ [] := by
  cases tree <;> simp [events]

/-- The last text of a row of events is a tree of its own. -/
theorem exists_append_text {trees : List Tree} {es : List Event.Located} {s : List Char}
    (h : eventsAll trees = es ++ Event.rowOfText s) :
    ∃ first, trees = first ++ ofText s ∧ eventsAll first = es := by
  rw [Event.rowOfText] at h
  rw [ofText]
  split at h
  · next hs =>
      rw [if_pos hs]
      exact ⟨trees, (List.append_nil _).symm, by rw [h, List.append_nil]⟩
  · next hs =>
      rw [if_neg hs]
      rcases List.eq_nil_or_concat trees with rfl | ⟨first, tree, rfl⟩
      · simp [eventsAll] at h
      · rw [List.concat_eq_append, eventsAll_append, eventsAll, eventsAll, List.append_nil] at h
        have hlast := congrArg List.getLast? h
        rw [List.getLast?_append, List.getLast?_concat] at hlast
        obtain ⟨e, he⟩ := Option.isSome_iff_exists.1 (List.getLast?_isSome.2 tree.events_ne_nil)
        rw [he, Option.some_or] at hlast
        obtain rfl := eq_text_of_getLast? (he.trans hlast)
        exact ⟨first, List.concat_eq_append, (List.append_inj' h rfl).1⟩

/-- The first text of a row of events is a tree of its own. -/
theorem exists_text_append {trees : List Tree} {es : List Event.Located} {s : List Char}
    (h : eventsAll trees = Event.rowOfText s ++ es) :
    ∃ rest, trees = ofText s ++ rest ∧ eventsAll rest = es := by
  rw [Event.rowOfText] at h
  rw [ofText]
  split at h
  · next hs =>
      rw [if_pos hs]
      exact ⟨trees, rfl, h⟩
  · next hs =>
      rw [if_neg hs]
      cases trees with
      | nil => simp [eventsAll] at h
      | cons tree rest =>
          rw [eventsAll] at h
          have hhead := congrArg List.head? h
          rw [List.head?_append] at hhead
          obtain ⟨e, he⟩ := Option.isSome_iff_exists.1 (List.isSome_head?.2 tree.events_ne_nil)
          rw [he, Option.some_or] at hhead
          obtain rfl := eq_text_of_head? (he.trans hhead)
          exact ⟨rest, rfl, (List.append_inj h rfl).2⟩

end Tree

/-! ## The nodes of two templates -/

/-- A piece of text is one node, or none if it is empty. -/
def Node.ofText (s : List Char) : List Node :=
  if s = [] then [] else [.content (String.ofList s)]

theorem Node.textAll_ofText {σ : Type} (resolve : Resolver σ) (ctx : Context) (s : List Char) :
    textAll resolve ctx (ofText s) = pure (String.ofList s) := by
  rw [ofText]
  split
  · next hs =>
      rw [hs]
      rfl
  · rw [textAll_singleton, text]

/-- Text prints the same in one piece and in two. -/
theorem Node.textAll_ofText_append {σ : Type} (resolve : Resolver σ) (ctx : Context)
    (left right : List Char) :
    textAll resolve ctx (ofText (left ++ right)) =
      textAll resolve ctx (ofText left ++ ofText right) := by
  rw [textAll_append]
  simp only [textAll_ofText, pure_bind, String.ofList_append]

namespace Compile

theorem ofTrees_ofText (s : List Char) : ofTrees (Tree.ofText s) = .ok (Node.ofText s) := by
  rw [Tree.ofText, Node.ofText]
  split <;> rfl

end Compile

/-- Two templates that are put together compile to the nodes of both, but the text where
they meet is one node. -/
theorem compile_append {s t : String} {xs ys : List Node} (hs : compile s = .ok (.sequence xs))
    (ht : compile t = .ok (.sequence ys)) (hend : Tag.EndsPlain s.toList)
    (hseam : '~' ∉ s.toList ∧ '~' ∉ t.toList ∨
      Text.EndsSolid s.toList ∧ Text.StartsSolid t.toList) :
    ∃ before left right after, xs = before ++ Node.ofText left ∧
      ys = Node.ofText right ++ after ∧
      compile (s ++ t) = .ok (.sequence (before ++ (Node.ofText (left ++ right) ++ after))) := by
  obtain ⟨trees, _, htrees, hnodes, he⟩ := compile_eq_ok_iff.1 hs
  cases he
  obtain ⟨trees', _, htrees', hnodes', he'⟩ := compile_eq_ok_iff.1 ht
  cases he'
  obtain ⟨es, left, right, fs, hes, hfs, hreads⟩ :=
    (Event.Reads.of_parse htrees).append (.of_parse htrees') hend hseam
  obtain ⟨first, rfl, hfirst⟩ := Tree.exists_append_text hes
  obtain ⟨rest, rfl, hrest⟩ := Tree.exists_text_append hfs
  obtain ⟨before, leftNodes, hbefore, hleft, rfl⟩ := Compile.ofTrees_append_eq_ok_iff.1 hnodes
  obtain ⟨rightNodes, after, hright, hafter, rfl⟩ := Compile.ofTrees_append_eq_ok_iff.1 hnodes'
  rw [Compile.ofTrees_ofText] at hleft hright
  cases hleft
  cases hright
  have hparse : Tree.parse (s ++ t).toList =
      .ok (first ++ (Tree.ofText (left ++ right) ++ rest)) := by
    rw [String.toList_append, hreads.parse_iff, Tree.eventsAll_append, Tree.eventsAll_append,
      hfirst, Tree.eventsAll_ofText, hrest]
  refine ⟨before, left, right, after, rfl, rfl, compile_eq_ok_iff.2 ⟨_, _, hparse, ?_, rfl⟩⟩
  exact Compile.ofTrees_append_eq_ok_iff.2 ⟨_, _, hbefore,
    Compile.ofTrees_append_eq_ok_iff.2 ⟨_, _, Compile.ofTrees_ofText _, hafter, rfl⟩, rfl⟩

/-! ## What two templates print -/

namespace Engine

variable {S : Type} [Source S]

theorem fst_call (engine : Engine S) (node : Node) (data : Bindings) :
    (engine.call node data).1 =
      (callNode engine.store engine.options node data).result engine.memory := rfl

/-- Two calls in turn, whatever the first leaves in the memory. -/
theorem result_callNode_bind (engine : Engine S) (node node' : Node) (data : Bindings) :
    Run.result (do
        let first ← callNode engine.store engine.options node data
        let rest ← callNode engine.store engine.options node' data
        return first ++ rest) engine.memory = do
      let first ← (engine.call node data).1
      let rest ← (engine.call node' data).1
      return first ++ rest := by
  have hafter := engine.call_after_call node node' data data
  cases hcall : (callNode engine.store engine.options node data).exec engine.memory with
  | mk found memory =>
      have hfirst : engine.call node data = (found, { engine with memory }) := by
        rw [Run.exec] at hcall
        rw [call, perform, hcall]
      rw [hfirst] at hafter ⊢
      cases found with
      | error e =>
          rw [Run.result, Run.exec_bind_of_error hcall]
          rfl
      | ok first =>
          rw [← hafter, fst_call, Run.result, Run.result, Run.exec_bind_of_ok hcall, Run.exec_bind]
          rcases (callNode engine.store engine.options node' data).exec memory with ⟨_ | _, _⟩ <;>
            rfl

/-- Two templates that are put together print the text of the first and then that of the
second, or the first error of the two. -/
theorem call_append {s t : String} {a b : Node} (ha : compile s = .ok a) (hb : compile t = .ok b)
    (hend : ∀ c ∈ s.toList.getLast?, c ≠ '{' ∧ c ≠ '\\')
    (hseam : '~' ∉ s.toList ∧ '~' ∉ t.toList ∨
      (∀ c ∈ s.toList.getLast?, Text.isBlank c = false) ∧
        ∀ c ∈ t.toList.head?, Text.isBlank c = false) :
    ∃ node, compile (s ++ t) = .ok node ∧
      ∀ (engine : Engine S) (data : Bindings), (engine.call node data).1 = do
        let first ← (engine.call a data).1
        let rest ← (engine.call b data).1
        return first ++ rest := by
  obtain ⟨_, xs, _, _, rfl⟩ := compile_eq_ok_iff.1 ha
  obtain ⟨_, ys, _, _, rfl⟩ := compile_eq_ok_iff.1 hb
  obtain ⟨before, left, right, after, rfl, rfl, hcompile⟩ := compile_append ha hb hend hseam
  refine ⟨_, hcompile, fun engine data => ?_⟩
  rw [← result_callNode_bind, fst_call]
  congr 1
  simp only [callNode_sequence, Node.textAll_append, Node.textAll_ofText_append, bind_assoc,
    pure_bind, String.append_assoc]

/-- The trim mark of the first template takes the blanks of its own text, and the texts that
meet are one node. -/
theorem call_append_trimmed :
    ∃ (engine : Engine Texts) (data : Bindings) (node : Node),
      compile "a {{~! note ~}} b" = .ok (.sequence [.content "a", .content "b"]) ∧
      compile "c{{int n}}" = .ok (.sequence [.content "c", .filter .int "n"]) ∧
      compile ("a {{~! note ~}} b" ++ "c{{int n}}") = .ok node ∧
      (engine.call node data).1 = .ok "abc7" := by
  let engine : Engine Texts := { store := .ofList [] }
  let data : Bindings := Bindings.bindAll ∅ [("n", .integer 7)]
  have ha : compile "a {{~! note ~}} b" = .ok (.sequence [.content "a", .content "b"]) := by cbv
  have hb : compile "c{{int n}}" = .ok (.sequence [.content "c", .filter .int "n"]) := by cbv
  have hlast : "a {{~! note ~}} b".toList.getLast? = some 'b' := by decide
  have hhead : "c{{int n}}".toList.head? = some 'c' := by decide
  obtain ⟨node, hnode, hcall⟩ := call_append (S := Texts) ha hb
    (Tag.EndsPlain.of_getLast? hlast (by decide))
    (.inr ⟨by rw [hlast]; rintro c ⟨⟩; decide, by rw [hhead]; rintro c ⟨⟩; decide⟩)
  refine ⟨engine, data, node, ha, hb, hnode, ?_⟩
  rw [hcall]
  cbv

end Engine

end SqlTemplates
