import SqlTemplates.Template.Event

/-!
# Trees

The sections of a template nest.  A tree is a text, an expression, an included
template, or a section with the trees of its body and, if it has an else, those of
its other branch.

`Tree.parse` reads a text.  It goes through the events from left to right and keeps
a stack of the sections that are open (`Nesting`): a tree that is complete goes to
the innermost open section, and an event that does not fit there is a fault.  The
faults of the sections and those of the tags themselves come in the order of the
text.

`Tree.events` flattens trees to their events again, and `Tree.eventsAll_of_parse` says
that reading loses nothing: the trees of a text have the events of its tags.
-/

namespace SqlTemplates

/-- The tag that opens a section. -/
structure Opening where
  /-- The first word of the tag. -/
  name : List Char
  /-- What follows the name. -/
  args : List Char
  /-- The whole tag. -/
  raw : List Char
deriving DecidableEq, Repr

/-- A template with its sections nested. -/
inductive Tree
  | text (s : List Char)
  | expression (content raw : List Char)
  | inclusion (content raw : List Char)
  /-- A section without an else. -/
  | block (opening : Opening) (body : List Tree)
  /-- A section with an else. -/
  | blockElse (opening : Opening) (body elseBody : List Tree)

namespace Tree

/-! ## The events of a tree -/

mutual

/-- The events of a tree, from left to right. -/
def events : Tree → List Event.Located
  | .text s => [⟨.text s, []⟩]
  | .expression content raw => [⟨.expression content, raw⟩]
  | .inclusion content raw => [⟨.inclusion content, raw⟩]
  | .block opening body =>
      ⟨.opening opening.name opening.args, opening.raw⟩ ::
        (eventsAll body ++ [⟨.closing opening.name, []⟩])
  | .blockElse opening body elseBody =>
      ⟨.opening opening.name opening.args, opening.raw⟩ ::
        (eventsAll body ++ ⟨.otherwise, []⟩ ::
          (eventsAll elseBody ++ [⟨.closing opening.name, []⟩]))

/-- The events of some trees, from left to right. -/
def eventsAll : List Tree → List Event.Located
  | [] => []
  | tree :: trees => tree.events ++ eventsAll trees

end

theorem eventsAll_append (xs ys : List Tree) :
    eventsAll (xs ++ ys) = eventsAll xs ++ eventsAll ys := by
  induction xs with
  | nil => rfl
  | cons x xs ih => simp [eventsAll, ih]

end Tree

/-! ## Open sections -/

/-- A section that is open: the trees read so far. -/
structure Frame where
  /-- The tag that opened it. -/
  opening : Opening
  /-- The trees before the else. -/
  body : Array Tree
  /-- The trees after the else, once there was one. -/
  elseBody : Option (Array Tree)

namespace Frame

/-- Adds a tree to the branch that is being read. -/
def push (frame : Frame) (tree : Tree) : Frame :=
  match frame.elseBody with
  | none => { frame with body := frame.body.push tree }
  | some trees => { frame with elseBody := some (trees.push tree) }

/-- The section as a tree. -/
def close (frame : Frame) : Tree :=
  match frame.elseBody with
  | none => .block frame.opening frame.body.toList
  | some trees => .blockElse frame.opening frame.body.toList trees.toList

/-- The events of an open section, from its start. -/
def events (frame : Frame) : List Event.Located :=
  ⟨.opening frame.opening.name frame.opening.args, frame.opening.raw⟩ ::
    (Tree.eventsAll frame.body.toList ++
      match frame.elseBody with
      | none => []
      | some trees => ⟨.otherwise, []⟩ :: Tree.eventsAll trees.toList)

end Frame

/-- How far a template has been read. -/
structure Nesting where
  /-- The trees outside of every section. -/
  root : Array Tree := #[]
  /-- The sections that are open, the innermost first. -/
  frames : List Frame := []

namespace Nesting

/-- Adds a tree to the innermost open section. -/
def push (nesting : Nesting) (tree : Tree) : Nesting :=
  match nesting.frames with
  | [] => { nesting with root := nesting.root.push tree }
  | frame :: frames => { nesting with frames := frame.push tree :: frames }

/-- Starts the other branch of the innermost open section. -/
def otherwise (nesting : Nesting) (raw : List Char) : Except SyntaxError Nesting :=
  match nesting.frames with
  | [] => .error ⟨.elseOutside, raw⟩
  | frame :: frames =>
      match frame.elseBody with
      | some _ => .error ⟨.duplicateElse frame.opening.name, raw⟩
      | none => .ok { nesting with frames := { frame with elseBody := some #[] } :: frames }

/-- Ends the innermost open section, which must have this name. -/
def close (nesting : Nesting) (name raw : List Char) : Except SyntaxError Nesting :=
  match nesting.frames with
  | [] => .error ⟨.closeOutside, raw⟩
  | frame :: frames =>
      if name = frame.opening.name then .ok ({ nesting with frames }.push frame.close)
      else .error ⟨.wrongClose frame.opening.name, raw⟩

/-- Reads one event. -/
def step (nesting : Nesting) (located : Event.Located) : Except SyntaxError Nesting :=
  match located.event with
  | .text s => .ok (nesting.push (.text s))
  | .expression content => .ok (nesting.push (.expression content located.raw))
  | .inclusion content => .ok (nesting.push (.inclusion content located.raw))
  | .opening name args =>
      .ok { nesting with frames := ⟨⟨name, args, located.raw⟩, #[], none⟩ :: nesting.frames }
  | .otherwise => nesting.otherwise located.raw
  | .closing name => nesting.close name located.raw

/-- Reads some events in order, up to the first that does not fit. -/
def run (nesting : Nesting) (events : List Event.Located) : Except SyntaxError Nesting :=
  events.foldlM step nesting

/-- The trees of a template that ends here with `rest` as its last text.  No section
may be open. -/
def finish (nesting : Nesting) (rest : List Char) : Except SyntaxError (List Tree) :=
  match nesting.frames with
  | frame :: _ => .error ⟨.unclosedSection frame.opening.name, frame.opening.raw⟩
  | [] => .ok (nesting.root.toList ++ (if rest.isEmpty then [] else [.text rest]))

end Nesting

/-- Reads a template as trees.  A tag with a fault counts where it stands, after the
faults of the sections before it. -/
def Tree.parse (s : List Char) : Except SyntaxError (List Tree) := do
  let (tags, rest) := Tag.scan s
  let nesting ← Nesting.run {} (tags.flatMap Event.ofTag)
  nesting.finish (← rest)

/-! ## Nothing is lost -/

namespace Frame

theorem events_push (frame : Frame) (tree : Tree) :
    (frame.push tree).events = frame.events ++ tree.events := by
  unfold push events
  cases frame.elseBody <;> simp [Tree.eventsAll_append, Tree.eventsAll]

theorem events_close (frame : Frame) :
    frame.close.events = frame.events ++ [⟨.closing frame.opening.name, []⟩] := by
  unfold close events
  cases frame.elseBody <;> simp [Tree.events]

end Frame

namespace Nesting

/-- The events of the open sections, the outermost first. -/
def frameEvents : List Frame → List Event.Located
  | [] => []
  | frame :: frames => frameEvents frames ++ frame.events

/-- The events that have been read. -/
def events (nesting : Nesting) : List Event.Located :=
  Tree.eventsAll nesting.root.toList ++ frameEvents nesting.frames

theorem events_push (nesting : Nesting) (tree : Tree) :
    (nesting.push tree).events = nesting.events ++ tree.events := by
  obtain ⟨root, frames⟩ := nesting
  cases frames with
  | nil => simp [push, events, frameEvents, Tree.eventsAll_append, Tree.eventsAll]
  | cons frame frames => simp [push, events, frameEvents, Frame.events_push]

/-- A step reads one event. -/
theorem events_step {nesting next : Nesting} {located : Event.Located}
    (h : nesting.step located = .ok next) : next.events = nesting.events ++ [located.kept] := by
  obtain ⟨event, raw⟩ := located
  cases event with
  | text s => cases h; rw [events_push]; rfl
  | expression content => cases h; rw [events_push]; rfl
  | inclusion content => cases h; rw [events_push]; rfl
  | opening name args =>
      cases h
      simp [events, frameEvents, Frame.events, Tree.eventsAll, Event.Located.kept]
  | otherwise =>
      obtain ⟨root, frames⟩ := nesting
      cases frames with
      | nil => cases h
      | cons frame frames =>
          obtain ⟨opening, body, elseBody⟩ := frame
          cases elseBody with
          | some trees => cases h
          | none =>
              cases h
              simp [events, frameEvents, Frame.events, Tree.eventsAll, Event.Located.kept]
  | closing name =>
      obtain ⟨root, frames⟩ := nesting
      cases frames with
      | nil => cases h
      | cons frame frames =>
          simp only [step, close] at h
          split at h
          · next hname =>
              cases h
              rw [events_push, Frame.events_close, hname]
              simp [events, frameEvents, Event.Located.kept]
          · cases h

/-- A run reads its events in order. -/
theorem events_run {events : List Event.Located} {nesting next : Nesting}
    (h : nesting.run events = .ok next) :
    next.events = nesting.events ++ events.map Event.Located.kept := by
  induction events generalizing nesting with
  | nil => cases h; simp
  | cons located events ih =>
      rw [run, List.foldlM_cons] at h
      cases hs : nesting.step located with
      | error e => rw [hs] at h; cases h
      | ok middle =>
          rw [hs] at h
          have htail : middle.run events = .ok next := h
          rw [ih htail, events_step hs]
          simp

/-- The trees of a template have the events that were read, and its last text. -/
theorem eventsAll_of_finish {nesting : Nesting} {rest : List Char} {trees : List Tree}
    (h : nesting.finish rest = .ok trees) :
    Tree.eventsAll trees =
      nesting.events ++ (Event.ofText? rest).toList.map (Event.Located.mk · []) := by
  obtain ⟨root, frames⟩ := nesting
  cases frames with
  | cons frame frames => cases h
  | nil =>
      cases h
      rw [Tree.eventsAll_append]
      unfold Event.ofText?
      split <;> simp [events, frameEvents, Tree.eventsAll, Tree.events]

end Nesting

/-- The trees of a text have the events of its tags. -/
theorem Tree.eventsAll_of_parse {s : List Char} {trees : List Tree}
    (h : Tree.parse s = .ok trees) :
    ∃ rest, (Tag.scan s).2 = .ok rest ∧
      Tree.eventsAll trees =
        (Event.ofTags (Tag.scan s).1 rest).map Event.Located.kept := by
  rcases hscan : Tag.scan s with ⟨tags, finish⟩
  simp only [Tree.parse, hscan] at h
  cases hrun : Nesting.run {} (tags.flatMap Event.ofTag) with
  | error e => rw [hrun] at h; cases h
  | ok nesting =>
      rw [hrun] at h
      cases finish with
      | error e => cases h
      | ok rest =>
          refine ⟨rest, rfl, ?_⟩
          rw [Nesting.eventsAll_of_finish h, Nesting.events_run hrun, Event.ofTags,
            List.map_append]
          unfold Event.ofText?
          split <;> rfl

end SqlTemplates
