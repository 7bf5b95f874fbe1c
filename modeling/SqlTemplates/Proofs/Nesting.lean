import Mathlib
import SqlTemplates.Proofs.Extent
import SqlTemplates.Template.Tree

/-!
# Well-nested templates

The sections of a template nest as brackets do.  `Event.Nested` is the grammar of the
rows of events in which they do: every start has its end with the same name, sections
do not overlap, and a section has one else at most.

`Event.row` says which events the tags of a text stand for, tag by tag and without a
look at how the text is read.  Reading it works on a stack of open sections
(`Nesting.run`), and the two meet in the trees:

* the events of any trees are well nested (`Tree.nested_eventsAll`), and every
  well-nested row is the row of some trees (`Event.Nested.exists_eventsAll`);
* from any stack, the row of some trees is read as these trees, which are pushed one
  by one on the section that was open before (`Nesting.run_eventsAll`).

So a text is read exactly when its events are well nested, and as the trees that have
these events.
-/

namespace SqlTemplates

namespace Event

/-! ## The row of a text -/

/-- A piece of text is one event, or none if it is empty. -/
def rowOfText (s : List Char) : List Located := if s = [] then [] else [⟨.text s, []⟩]

/-- What a tag stands for, with the text of the tag where a tree keeps it. -/
def rowOfTag (tag : Tag) : List Located :=
  match tag.kind with
  | .comment => []
  | .escaped => [⟨.text ['{', '{'], []⟩]
  | .expression =>
      if Text.trim tag.content = ['e', 'l', 's', 'e'] then [⟨.otherwise, []⟩]
      else [⟨.expression tag.content, tag.raw⟩]
  | .inclusion => [⟨.inclusion tag.content, tag.raw⟩]
  | .opening =>
      let (name, args) := (Text.trim tag.content).span fun c => !Text.isBlank c
      [⟨.opening name (Text.trim args), tag.raw⟩]
  | .closing => [⟨.closing (Text.trim tag.content), []⟩]

/-- The events of some tags and of the text after the last of them: what stands before
a tag, the tag itself, and so on to the end. -/
def row (tags : List Tag) (rest : List Char) : List Located :=
  tags.flatMap (fun tag => rowOfText tag.before ++ rowOfTag tag) ++ rowOfText rest

/-! ## The grammar -/

/-- The rows of events in which the sections nest. -/
inductive Nested : List Event → Prop
  | nil : Nested []
  | text {s : List Char} {es : List Event} : Nested es → Nested (.text s :: es)
  | expression {content : List Char} {es : List Event} :
      Nested es → Nested (.expression content :: es)
  | inclusion {content : List Char} {es : List Event} :
      Nested es → Nested (.inclusion content :: es)
  /-- A section without an else. -/
  | block {name args : List Char} {body es : List Event} :
      Nested body → Nested es → Nested (.opening name args :: (body ++ .closing name :: es))
  /-- A section with an else. -/
  | blockElse {name args : List Char} {body elseBody es : List Event} :
      Nested body → Nested elseBody → Nested es →
      Nested (.opening name args ::
        (body ++ .otherwise :: (elseBody ++ .closing name :: es)))

end Event

/-! ## The events of the code are the row -/

/-- What holds of every first tag holds of every tag of a scan. -/
theorem Tag.forall_mem_scan {p : Tag → Prop}
    (h : ∀ (s : List Char) (tag : Tag), first? s = .ok (some tag) → p tag) (s : List Char) :
    ∀ tag ∈ (scan s).1, p tag := by
  induction s using scan.induct with
  | case1 s e hf => rw [scan_of_error hf]; simp
  | case2 s hf => rw [scan_of_none hf]; simp
  | case3 s tag hf _ _ _ ih =>
      rw [scan_of_some hf]
      intro other hm
      rcases List.mem_cons.1 hm with rfl | hm
      · exact h s other hf
      · exact ih other hm

/-- An escaped tag holds the delimiter. -/
theorem Tag.content_of_escaped {s : List Char} {tag : Tag} (h : first? s = .ok (some tag))
    (hk : tag.kind = .escaped) : tag.content = ['{', '{'] := by
  obtain ⟨lead, rest, -, ht⟩ := first?_eq_some_iff.1 h
  rw [ofCut] at ht
  split at ht
  · cases ht
    rfl
  · exact absurd hk (Start.kind_tag_ne ht)

namespace Event

theorem map_kept_ofText? (s : List Char) :
    ((ofText? s).toList.map (Located.mk · [])).map Located.kept = rowOfText s := by
  unfold ofText? rowOfText
  cases s <;> rfl

theorem map_kept_ofTag? {tag : Tag} (h : tag.kind = .escaped → tag.content = ['{', '{']) :
    ((ofTag? tag).toList.map (Located.mk · tag.raw)).map Located.kept = rowOfTag tag := by
  unfold ofTag? rowOfTag
  cases hk : tag.kind with
  | comment => rfl
  | expression =>
      by_cases he : Text.trim tag.content = ['e', 'l', 's', 'e'] <;>
        simp [Tag.isElse, hk, he, Located.kept]
  | opening =>
      simp [Located.kept, sectionName, sectionArgs, List.span_eq_takeWhile_dropWhile]
  | closing => rfl
  | inclusion => rfl
  | escaped => rw [h hk]; rfl

theorem map_kept_ofTag {tag : Tag} (h : tag.kind = .escaped → tag.content = ['{', '{']) :
    (ofTag tag).map Located.kept = rowOfText tag.before ++ rowOfTag tag := by
  rw [ofTag, List.map_append, map_kept_ofText?, map_kept_ofTag? h]

/-- The events that are read are those of the row. -/
theorem map_kept_ofTags {tags : List Tag}
    (h : ∀ tag ∈ tags, tag.kind = .escaped → tag.content = ['{', '{']) (rest : List Char) :
    (ofTags tags rest).map Located.kept = row tags rest := by
  rw [ofTags, row, List.map_append, map_kept_ofText?, List.map_flatMap]
  congr 1
  exact List.flatMap_congr fun tag hm => map_kept_ofTag (h tag hm)

end Event

/-! ## The events of trees are well nested -/

namespace Tree

mutual

/-- The events of a tree go before any well-nested row. -/
theorem nested_events : ∀ (tree : Tree) {es : List Event},
    Event.Nested es → Event.Nested (tree.events.map Event.Located.event ++ es)
  | .text _, _, h => .text h
  | .expression _ _, _, h => .expression h
  | .inclusion _ _, _, h => .inclusion h
  | .block _ body, _, h => by
      simpa [events] using Event.Nested.block (nested_eventsAll body) h
  | .blockElse _ body elseBody, _, h => by
      simpa [events] using
        Event.Nested.blockElse (nested_eventsAll body) (nested_eventsAll elseBody) h

/-- The events of any trees are well nested. -/
theorem nested_eventsAll : ∀ trees : List Tree,
    Event.Nested ((eventsAll trees).map Event.Located.event)
  | [] => .nil
  | tree :: trees => by
      rw [eventsAll, List.map_append]
      exact nested_events tree (nested_eventsAll trees)

end

end Tree

/-- A row that starts with an event starts with it and some tag. -/
theorem Event.exists_of_map_event_eq_cons {row : List Located} {e : Event} {es : List Event}
    (h : row.map Located.event = e :: es) :
    ∃ raw rest, row = ⟨e, raw⟩ :: rest ∧ rest.map Located.event = es := by
  obtain ⟨⟨e, raw⟩, rest, rfl, rfl, hes⟩ := List.map_eq_cons_iff.1 h
  exact ⟨raw, rest, rfl, hes⟩

/-- A well-nested row is the row of some trees.  The induction is on the grammar: a
production is one tree in front of the trees of what follows. -/
theorem Event.Nested.exists_eventsAll {es : List Event} (h : Nested es) :
    ∀ row : List Located, row.map Located.event = es →
      ∃ trees, Tree.eventsAll trees = row.map Located.kept := by
  induction h with
  | nil =>
      intro row he
      exact ⟨[], by rw [List.map_eq_nil_iff.1 he]; rfl⟩
  | @text s _ _ ih =>
      intro row he
      obtain ⟨raw, rest, rfl, hrest⟩ := exists_of_map_event_eq_cons he
      obtain ⟨trees, ht⟩ := ih rest hrest
      exact ⟨.text s :: trees, by simp [Tree.eventsAll, Tree.events, ht, Located.kept]⟩
  | @expression content _ _ ih =>
      intro row he
      obtain ⟨raw, rest, rfl, hrest⟩ := exists_of_map_event_eq_cons he
      obtain ⟨trees, ht⟩ := ih rest hrest
      refine ⟨.expression content raw :: trees, ?_⟩
      simp [Tree.eventsAll, Tree.events, ht, Located.kept]
  | @inclusion content _ _ ih =>
      intro row he
      obtain ⟨raw, rest, rfl, hrest⟩ := exists_of_map_event_eq_cons he
      obtain ⟨trees, ht⟩ := ih rest hrest
      refine ⟨.inclusion content raw :: trees, ?_⟩
      simp [Tree.eventsAll, Tree.events, ht, Located.kept]
  | @block name args _ _ _ _ ihBody ih =>
      intro row he
      obtain ⟨raw, _, rfl, hinner⟩ := exists_of_map_event_eq_cons he
      obtain ⟨rowBody, _, rfl, hbody, htail⟩ := List.map_eq_append_iff.1 hinner
      obtain ⟨rawClose, rest, rfl, hrest⟩ := exists_of_map_event_eq_cons htail
      obtain ⟨body, hb⟩ := ihBody rowBody hbody
      obtain ⟨trees, ht⟩ := ih rest hrest
      refine ⟨.block ⟨name, args, raw⟩ body :: trees, ?_⟩
      simp [Tree.eventsAll, Tree.events, hb, ht, Located.kept]
  | @blockElse name args _ _ _ _ _ _ ihBody ihElse ih =>
      intro row he
      obtain ⟨raw, _, rfl, hinner⟩ := exists_of_map_event_eq_cons he
      obtain ⟨rowBody, _, rfl, hbody, htail⟩ := List.map_eq_append_iff.1 hinner
      obtain ⟨rawElse, _, rfl, hinner'⟩ := exists_of_map_event_eq_cons htail
      obtain ⟨rowElse, _, rfl, helse, htail'⟩ := List.map_eq_append_iff.1 hinner'
      obtain ⟨rawClose, rest, rfl, hrest⟩ := exists_of_map_event_eq_cons htail'
      obtain ⟨body, hb⟩ := ihBody rowBody hbody
      obtain ⟨elseBody, hb'⟩ := ihElse rowElse helse
      obtain ⟨trees, ht⟩ := ih rest hrest
      refine ⟨.blockElse ⟨name, args, raw⟩ body elseBody :: trees, ?_⟩
      simp [Tree.eventsAll, Tree.events, hb, hb', ht, Located.kept]

/-! ## The row of trees is read as these trees -/

/-- An event that a tree keeps with its tag comes from this tag. -/
theorem Event.Located.event_of_kept {located : Located} {event : Event} {raw : List Char}
    (h : located.kept = ⟨event, raw⟩) : located.event = event := by
  rw [← located.event_kept, h]

namespace Nesting

/-- Adds some trees to the innermost open section, in turn. -/
def pushAll (nesting : Nesting) (trees : List Tree) : Nesting := trees.foldl push nesting

@[simp] theorem pushAll_nil (nesting : Nesting) : nesting.pushAll [] = nesting := rfl

@[simp] theorem pushAll_cons (nesting : Nesting) (tree : Tree) (trees : List Tree) :
    nesting.pushAll (tree :: trees) = (nesting.push tree).pushAll trees := rfl

/-- Outside of every section, trees go to the root. -/
theorem pushAll_root (root : Array Tree) (trees : List Tree) :
    pushAll ⟨root, []⟩ trees = ⟨root ++ trees.toArray, []⟩ := by
  induction trees generalizing root with
  | nil => simp
  | cons tree trees ih =>
      rw [pushAll_cons, push, ih]
      simp

/-- Before the else of a section, trees go to its body. -/
theorem pushAll_body (root : Array Tree) (opening : Opening) (body : Array Tree)
    (frames : List Frame) (trees : List Tree) :
    pushAll ⟨root, ⟨opening, body, none⟩ :: frames⟩ trees =
      ⟨root, ⟨opening, body ++ trees.toArray, none⟩ :: frames⟩ := by
  induction trees generalizing body with
  | nil => simp
  | cons tree trees ih =>
      simp only [pushAll_cons, push, Frame.push]
      rw [ih]
      simp

/-- After the else of a section, trees go to its other branch. -/
theorem pushAll_elseBody (root : Array Tree) (opening : Opening) (body elseBody : Array Tree)
    (frames : List Frame) (trees : List Tree) :
    pushAll ⟨root, ⟨opening, body, some elseBody⟩ :: frames⟩ trees =
      ⟨root, ⟨opening, body, some (elseBody ++ trees.toArray)⟩ :: frames⟩ := by
  induction trees generalizing elseBody with
  | nil => simp
  | cons tree trees ih =>
      simp only [pushAll_cons, push, Frame.push]
      rw [ih]
      simp

theorem run_of_step {nesting next : Nesting} {located : Event.Located}
    (h : nesting.step located = .ok next) (row : List Event.Located) :
    nesting.run (located :: row) = next.run row := by
  rw [run, List.foldlM_cons, h]
  rfl

/-- A run reads the start of its row first. -/
theorem run_append (nesting : Nesting) (row row' : List Event.Located) :
    nesting.run (row ++ row') = nesting.run row >>= (·.run row') := by
  rw [run, List.foldlM_append]
  rfl

theorem run_append_of_run {nesting next : Nesting} {row : List Event.Located}
    (h : nesting.run row = .ok next) (row' : List Event.Located) :
    nesting.run (row ++ row') = next.run row' := by
  rw [run_append, h]
  rfl

theorem step_opening (nesting : Nesting) (opening : Opening) :
    nesting.step ⟨.opening opening.name opening.args, opening.raw⟩ =
      .ok ⟨nesting.root, ⟨opening, #[], none⟩ :: nesting.frames⟩ := rfl

theorem step_otherwise (root : Array Tree) (opening : Opening) (body : Array Tree)
    (frames : List Frame) (raw : List Char) :
    step ⟨root, ⟨opening, body, none⟩ :: frames⟩ ⟨.otherwise, raw⟩ =
      .ok ⟨root, ⟨opening, body, some #[]⟩ :: frames⟩ := rfl

theorem step_closing (root : Array Tree) (frame : Frame) (frames : List Frame)
    (raw : List Char) :
    step ⟨root, frame :: frames⟩ ⟨.closing frame.opening.name, raw⟩ =
      .ok (push ⟨root, frames⟩ frame.close) := by
  simp [step, close]

mutual

/-- The row of a tree is read as this tree, whatever was read before. -/
theorem run_events : ∀ (tree : Tree) {row : List Event.Located} (nesting : Nesting),
    row.map Event.Located.kept = tree.events → nesting.run row = .ok (nesting.push tree)
  | .text s, row, nesting, h => by
      obtain ⟨⟨event, raw⟩, rfl, hl⟩ := List.map_eq_singleton_iff.1 h
      obtain rfl : event = _ := Event.Located.event_of_kept hl
      rfl
  | .expression content raw, row, nesting, h => by
      obtain ⟨⟨event, raw⟩, rfl, hl⟩ := List.map_eq_singleton_iff.1 h
      obtain rfl : event = _ := Event.Located.event_of_kept hl
      cases hl
      rfl
  | .inclusion content raw, row, nesting, h => by
      obtain ⟨⟨event, raw⟩, rfl, hl⟩ := List.map_eq_singleton_iff.1 h
      obtain rfl : event = _ := Event.Located.event_of_kept hl
      cases hl
      rfl
  | .block opening body, row, nesting, h => by
      obtain ⟨⟨event, raw⟩, _, rfl, hl, hinner⟩ := List.map_eq_cons_iff.1 h
      obtain ⟨rowBody, _, rfl, hbody, htail⟩ := List.map_eq_append_iff.1 hinner
      obtain ⟨⟨event', raw'⟩, rfl, hl'⟩ := List.map_eq_singleton_iff.1 htail
      obtain rfl : event = _ := Event.Located.event_of_kept hl
      obtain rfl : event' = _ := Event.Located.event_of_kept hl'
      cases hl
      rw [run_of_step (step_opening nesting opening),
        run_append_of_run (run_eventsAll body _ hbody), pushAll_body,
        run_of_step (step_closing nesting.root ⟨opening, _, none⟩ nesting.frames raw')]
      simp [run, Frame.close, pure, Except.pure]
  | .blockElse opening body elseBody, row, nesting, h => by
      obtain ⟨⟨event, raw⟩, _, rfl, hl, hinner⟩ := List.map_eq_cons_iff.1 h
      obtain ⟨rowBody, _, rfl, hbody, htail⟩ := List.map_eq_append_iff.1 hinner
      obtain ⟨⟨event', raw'⟩, _, rfl, hl', hinner'⟩ := List.map_eq_cons_iff.1 htail
      obtain ⟨rowElse, _, rfl, helse, htail'⟩ := List.map_eq_append_iff.1 hinner'
      obtain ⟨⟨event'', raw''⟩, rfl, hl''⟩ := List.map_eq_singleton_iff.1 htail'
      obtain rfl : event = _ := Event.Located.event_of_kept hl
      obtain rfl : event' = _ := Event.Located.event_of_kept hl'
      obtain rfl : event'' = _ := Event.Located.event_of_kept hl''
      cases hl
      rw [run_of_step (step_opening nesting opening),
        run_append_of_run (run_eventsAll body _ hbody), pushAll_body,
        run_of_step (step_otherwise _ _ _ _ raw'),
        run_append_of_run (run_eventsAll elseBody _ helse), pushAll_elseBody,
        run_of_step (step_closing nesting.root ⟨opening, _, some _⟩ nesting.frames raw'')]
      simp [run, Frame.close, pure, Except.pure]

/-- The row of some trees is read as these trees, whatever was read before. -/
theorem run_eventsAll : ∀ (trees : List Tree) {row : List Event.Located} (nesting : Nesting),
    row.map Event.Located.kept = Tree.eventsAll trees →
      nesting.run row = .ok (nesting.pushAll trees)
  | [], row, nesting, h => by
      rw [List.map_eq_nil_iff.1 h]
      rfl
  | tree :: trees, row, nesting, h => by
      obtain ⟨rowTree, rowTrees, rfl, htree, htrees⟩ := List.map_eq_append_iff.1 h
      rw [run_append_of_run (run_events tree nesting htree)]
      exact run_eventsAll trees (nesting.push tree) htrees

end

/-- The last text of a template is an event like any other. -/
theorem finish_eq (nesting : Nesting) (rest : List Char) :
    nesting.finish rest =
      nesting.run ((Event.ofText? rest).toList.map (Event.Located.mk · [])) >>=
        (·.finish []) := by
  obtain ⟨root, frames⟩ := nesting
  unfold Event.ofText?
  cases frames with
  | nil => cases rest <;> simp [finish, run, step, push, bind, Except.bind, pure, Except.pure]
  | cons frame frames =>
      cases rest with
      | nil => rfl
      | cons c rest =>
          obtain ⟨opening, body, elseBody⟩ := frame
          cases elseBody <;> rfl

end Nesting

/-! ## What is read -/

section

variable {s rest : List Char}

/-- A text whose tags all scan is read from its events alone. -/
theorem Tree.parse_of_scan (h : (Tag.scan s).2 = .ok rest) :
    Tree.parse s = Nesting.run {} (Event.ofTags (Tag.scan s).1 rest) >>= (·.finish []) := by
  have hparse : Tree.parse s =
      Nesting.run {} ((Tag.scan s).1.flatMap Event.ofTag) >>= (·.finish rest) := by
    have hscan : Tag.scan s = ((Tag.scan s).1, .ok rest) := Prod.ext rfl h
    rw [Tree.parse, hscan]
    rfl
  rw [hparse, Event.ofTags, Nesting.run, Nesting.run, List.foldlM_append, bind_assoc]
  congr 1
  funext nesting
  exact nesting.finish_eq rest

/-- The events that are read are the row of the text. -/
theorem Event.map_kept_scan (s rest : List Char) :
    (ofTags (Tag.scan s).1 rest).map Located.kept = row (Tag.scan s).1 rest :=
  map_kept_ofTags (Tag.forall_mem_scan (fun _ _ hf => Tag.content_of_escaped hf) s) rest

/-- A text is read as the trees that have its events. -/
theorem Tree.parse_eq_ok_iff (h : (Tag.scan s).2 = .ok rest) {trees : List Tree} :
    Tree.parse s = .ok trees ↔ eventsAll trees = Event.row (Tag.scan s).1 rest := by
  rw [← Event.map_kept_scan]
  constructor
  · intro hp
    obtain ⟨rest', hrest, he⟩ := eventsAll_of_parse hp
    rw [h] at hrest
    cases hrest
    exact he
  · intro he
    rw [parse_of_scan h, Nesting.run_eventsAll trees {} he.symm, Nesting.pushAll_root]
    simp [Nesting.finish, bind, Except.bind]

/-- A text whose tags all scan can be read exactly when its events are well nested, and
the trees that it is read as have these events again, in order. -/
theorem Tree.parse_ok_iff_nested (h : (Tag.scan s).2 = .ok rest) :
    ((∃ trees, Tree.parse s = .ok trees) ↔
        Event.Nested ((Event.row (Tag.scan s).1 rest).map Event.Located.event)) ∧
      ∀ trees, Tree.parse s = .ok trees → eventsAll trees = Event.row (Tag.scan s).1 rest := by
  refine ⟨⟨?_, ?_⟩, fun trees hp => (parse_eq_ok_iff h).1 hp⟩
  · rintro ⟨trees, hp⟩
    rw [← (parse_eq_ok_iff h).1 hp]
    exact nested_eventsAll trees
  · intro hn
    obtain ⟨trees, ht⟩ := hn.exists_eventsAll (Event.ofTags (Tag.scan s).1 rest) (by
      rw [← Event.map_kept_scan]
      simp)
    exact ⟨trees, (parse_eq_ok_iff h).2 (ht.trans (Event.map_kept_scan s rest))⟩

end

/-- A section with an else and an escaped delimiter, and a text after it. -/
theorem Tree.parse_ok_iff_nested_section :
    ∃ (s : List Char) (opening : Opening), (Tag.scan s).2 = .ok ['z'] ∧
      Tree.parse s = .ok [.blockElse opening [.text ['x']] [.text ['{', '{']], .text ['z']] ∧
      Event.Nested ((Event.row (Tag.scan s).1 ['z']).map Event.Located.event) := by
  have hscan : (Tag.scan
      "\x7b\x7b#if a\x7d\x7dx\x7b\x7belse\x7d\x7d\\\x7b\x7b\x7b\x7b/if\x7d\x7dz".toList).2 =
        .ok ['z'] := by cbv
  have hparse : Tree.parse
      "\x7b\x7b#if a\x7d\x7dx\x7b\x7belse\x7d\x7d\\\x7b\x7b\x7b\x7b/if\x7d\x7dz".toList =
        .ok [.blockElse ⟨['i', 'f'], ['a'], "\x7b\x7b#if a\x7d\x7d".toList⟩
          [.text ['x']] [.text ['{', '{']], .text ['z']] := by cbv
  exact ⟨_, _, hscan, hparse, (parse_ok_iff_nested hscan).1.1 ⟨_, hparse⟩⟩

end SqlTemplates
