import SqlTemplates.Proofs.Nesting

/-!
# Rows of events that can be continued

The events at the start of a template need not be well nested, but it must be possible to go on
so that they are (`Event.Viable`).  Reading them keeps a stack of open sections, and the stack
tells all there is to know about the row:

* a row can be continued exactly when it is read without a fault (`Nesting.viable_iff_run`): to
  go on, one closes the sections on the stack;
* the stack is empty exactly when the row is well nested (`Nesting.nested_iff_of_run`), and its top
  is the section that the row ends in (`Event.Within`, `Nesting.within_iff_of_run`).

So an event has a fault exactly where the row before it says so (`Event.Misfit`,
`Nesting.step_eq_error_iff`).
-/

namespace SqlTemplates

namespace Event

/-! ## What a row says of its end -/

/-- The row is the start of a well-nested one. -/
def Viable (es : List Event) : Prop := ∃ more, Nested (es ++ more)

/-- The row ends in the section with this start, and no section in it is open.  The second
parameter says that the section has its else behind it. -/
inductive Within (opening : Opening) : Bool → List Located → Prop
  | body {outer body : List Located} : Nested (body.map Located.event) →
      Within opening false
        (outer ++ ⟨.opening opening.name opening.args, opening.raw⟩ :: body)
  | elseBody {outer body elseBody : List Located} {raw : List Char} :
      Nested (body.map Located.event) → Nested (elseBody.map Located.event) →
      Within opening true
        (outer ++ ⟨.opening opening.name opening.args, opening.raw⟩ ::
          (body ++ ⟨.otherwise, raw⟩ :: elseBody))

/-- The event does not fit after the row, and this is its fault, in these words. -/
inductive Misfit (row : List Located) : Event → Fault → String → Prop
  /-- Every section is closed. -/
  | elseOutside : Nested (row.map Located.event) →
      Misfit row .otherwise .elseOutside "else outside of a section"
  | duplicateElse {opening : Opening} : Within opening true row →
      Misfit row .otherwise (.duplicateElse opening.name)
        ("duplicate else in section " ++ String.ofList opening.name)
  | closeOutside {name : List Char} : Nested (row.map Located.event) →
      Misfit row (.closing name) .closeOutside "close without a matching open"
  | wrongClose {opening : Opening} {second : Bool} {name : List Char} :
      Within opening second row → name ≠ opening.name →
      Misfit row (.closing name) (.wrongClose opening.name)
        ("expected close of section " ++ String.ofList opening.name)

theorem Misfit.text_eq {row : List Located} {event : Event} {fault : Fault} {words : String}
    (h : Misfit row event fault words) : fault.text = words := by
  cases h <;> rfl

theorem map_event_map_kept (row : List Located) :
    (row.map Located.kept).map Located.event = row.map Located.event := by
  simp

/-- The start of a section is kept with its tag. -/
theorem Located.eq_of_kept_opening {located : Located} {name args raw : List Char}
    (h : located.kept = ⟨.opening name args, raw⟩) : located = ⟨.opening name args, raw⟩ := by
  obtain ⟨event, raw'⟩ := located
  obtain rfl : event = _ := event_of_kept h
  exact h

end Event

namespace Nesting

open Event (Located Nested Viable Within Misfit)

variable {row : List Located} {nesting : Nesting}

/-! ## Runs -/

theorem exists_run_of_append {next : Nesting} {row' : List Located}
    (h : nesting.run (row ++ row') = .ok next) :
    ∃ middle, nesting.run row = .ok middle ∧ middle.run row' = .ok next := by
  rw [run_append] at h
  cases hrow : nesting.run row with
  | error e => rw [hrow] at h; cases h
  | ok middle =>
      rw [hrow] at h
      exact ⟨middle, rfl, h⟩

/-- The events of a run from the start are its row. -/
theorem events_of_run (h : run {} row = .ok nesting) :
    nesting.events = row.map Located.kept := events_run h

/-- A well-nested row is read as some trees. -/
theorem exists_run_of_nested (h : Nested (row.map Located.event)) :
    ∃ trees, ∀ nesting : Nesting, nesting.run row = .ok (nesting.pushAll trees) := by
  obtain ⟨trees, htrees⟩ := h.exists_eventsAll row rfl
  exact ⟨trees, fun nesting => run_eventsAll trees nesting htrees.symm⟩

theorem length_frames_push (nesting : Nesting) (tree : Tree) :
    (nesting.push tree).frames.length = nesting.frames.length := by
  obtain ⟨root, frames⟩ := nesting
  cases frames <;> rfl

/-- Open sections can be closed, one after the other. -/
theorem exists_run_to_root : ∀ (n : Nat) (nesting : Nesting), nesting.frames.length = n →
    ∃ (row : List Located) (root : Array Tree), nesting.run row = .ok ⟨root, []⟩
  | 0, ⟨root, frames⟩, hn => by
      obtain rfl := List.length_eq_zero_iff.1 hn
      exact ⟨[], root, rfl⟩
  | n + 1, ⟨root, []⟩, hn => by cases hn
  | n + 1, ⟨root, frame :: frames⟩, hn => by
      have hlength : (push ⟨root, frames⟩ frame.close).frames.length = n := by
        rw [length_frames_push]
        exact Nat.succ.inj hn
      obtain ⟨row, root', hrow⟩ := exists_run_to_root n _ hlength
      refine ⟨⟨.closing frame.opening.name, []⟩ :: row, root', ?_⟩
      rw [run_of_step (step_closing root frame frames [])]
      exact hrow

/-! ## The stack and the row -/

/-- A row can be continued exactly when it is read. -/
theorem viable_iff_run :
    Viable (row.map Located.event) ↔ ∃ nesting, run {} row = .ok nesting := by
  constructor
  · rintro ⟨more, hn⟩
    have hmap : (row ++ more.map (Located.mk · [])).map Located.event =
        row.map Located.event ++ more := by simp [Function.comp_def]
    rw [← hmap] at hn
    obtain ⟨trees, hrun⟩ := exists_run_of_nested hn
    obtain ⟨middle, hmiddle, -⟩ := exists_run_of_append (hrun {})
    exact ⟨middle, hmiddle⟩
  · rintro ⟨nesting, hrun⟩
    obtain ⟨more, root, hmore⟩ := exists_run_to_root _ nesting rfl
    have hall : run {} (row ++ more) = .ok ⟨root, []⟩ := by rw [run_append_of_run hrun, hmore]
    have hevents : Tree.eventsAll root.toList = (row ++ more).map Located.kept := by
      rw [← events_of_run hall, events, frameEvents, List.append_nil]
    refine ⟨more.map Located.event, ?_⟩
    rw [← List.map_append, ← Event.map_event_map_kept, ← hevents]
    exact Tree.nested_eventsAll _

/-- No section is open exactly after a well-nested row. -/
theorem nested_iff_of_run (h : run {} row = .ok nesting) :
    Nested (row.map Located.event) ↔ nesting.frames = [] := by
  constructor
  · intro hn
    obtain ⟨trees, hrun⟩ := exists_run_of_nested hn
    rw [hrun, pushAll_root] at h
    cases h
    rfl
  · intro hframes
    obtain ⟨root, frames⟩ := nesting
    obtain rfl : frames = [] := hframes
    have hevents := events_of_run h
    rw [events, frameEvents, List.append_nil] at hevents
    rw [← Event.map_event_map_kept, ← hevents]
    exact Tree.nested_eventsAll _

/-- The events of an open section are those since its start. -/
theorem within_events (outer : List Located) (frame : Frame) :
    Within frame.opening frame.elseBody.isSome (outer ++ frame.events) := by
  obtain ⟨opening, body, elseBody⟩ := frame
  cases elseBody with
  | none =>
      rw [Frame.events, List.append_nil]
      exact .body (Tree.nested_eventsAll _)
  | some trees => exact .elseBody (Tree.nested_eventsAll _) (Tree.nested_eventsAll _)

/-- A row that ends in a section is read with this section open. -/
theorem frames_of_within {opening : Opening} {second : Bool}
    (hw : Within opening second (row.map Located.kept)) (h : run {} row = .ok nesting) :
    ∃ body elseBody frames,
      nesting.frames = ⟨opening, body, elseBody⟩ :: frames ∧ elseBody.isSome = second := by
  generalize hkept : row.map Located.kept = kept at hw
  cases hw with
  | body hbody =>
      obtain ⟨outer, _, rfl, rfl, htail⟩ := List.map_eq_append_iff.1 hkept
      obtain ⟨located, body, rfl, hl, rfl⟩ := List.map_eq_cons_iff.1 htail
      obtain rfl := Located.eq_of_kept_opening hl
      rw [Event.map_event_map_kept] at hbody
      obtain ⟨trees, htrees⟩ := exists_run_of_nested hbody
      obtain ⟨middle, -, hmiddle⟩ := exists_run_of_append h
      rw [run_of_step (step_opening middle opening), htrees, pushAll_body] at hmiddle
      cases hmiddle
      exact ⟨_, _, _, rfl, rfl⟩
  | elseBody hbody helse =>
      obtain ⟨outer, _, rfl, rfl, htail⟩ := List.map_eq_append_iff.1 hkept
      obtain ⟨located, _, rfl, hl, hinner⟩ := List.map_eq_cons_iff.1 htail
      obtain ⟨body, _, rfl, rfl, htail'⟩ := List.map_eq_append_iff.1 hinner
      obtain ⟨⟨event, raw'⟩, elseBody, rfl, hl', rfl⟩ := List.map_eq_cons_iff.1 htail'
      obtain rfl := Located.eq_of_kept_opening hl
      obtain rfl : event = _ := Located.event_of_kept hl'
      rw [Event.map_event_map_kept] at hbody helse
      obtain ⟨trees, htrees⟩ := exists_run_of_nested hbody
      obtain ⟨elseTrees, helseTrees⟩ := exists_run_of_nested helse
      obtain ⟨middle, -, hmiddle⟩ := exists_run_of_append h
      rw [run_of_step (step_opening middle opening), run_append_of_run (htrees _), pushAll_body,
        run_of_step (step_otherwise _ _ _ _ raw'), helseTrees, pushAll_elseBody] at hmiddle
      cases hmiddle
      exact ⟨_, _, _, rfl, rfl⟩

/-- The innermost open section is the one that the row ends in. -/
theorem within_iff_of_run (h : run {} row = .ok nesting) {opening : Opening} {second : Bool} :
    Within opening second (row.map Located.kept) ↔
      ∃ body elseBody frames,
        nesting.frames = ⟨opening, body, elseBody⟩ :: frames ∧ elseBody.isSome = second := by
  refine ⟨fun hw => frames_of_within hw h, ?_⟩
  rintro ⟨body, elseBody, frames, hframes, rfl⟩
  rw [← events_of_run h, events, hframes, frameEvents, ← List.append_assoc]
  exact within_events _ ⟨opening, body, elseBody⟩

/-! ## Faults -/

section

variable {event : Event} {raw : List Char}

/-- An event that does not fit after the row is refused with this fault and its own tag. -/
theorem step_of_misfit (h : run {} row = .ok nesting) {fault : Fault} {words : String}
    (hmisfit : Misfit (row.map Located.kept) event fault words) :
    nesting.step ⟨event, raw⟩ = .error ⟨fault, raw⟩ := by
  cases hmisfit with
  | elseOutside hn =>
      rw [Event.map_event_map_kept, nested_iff_of_run h] at hn
      rw [step, otherwise, hn]
  | duplicateElse hw =>
      obtain ⟨body, elseBody, frames, hframes, hsome⟩ := (within_iff_of_run h).1 hw
      obtain ⟨trees, rfl⟩ := Option.isSome_iff_exists.1 hsome
      rw [step, otherwise, hframes]
  | closeOutside hn =>
      rw [Event.map_event_map_kept, nested_iff_of_run h] at hn
      simp [step, close, hn]
  | wrongClose hw hname =>
      obtain ⟨body, elseBody, frames, hframes, -⟩ := (within_iff_of_run h).1 hw
      simp [step, close, hframes, hname]

/-- An event that is refused does not fit after the row.  What the row says of it is read off
the stack. -/
theorem misfit_of_step (h : run {} row = .ok nesting) {e : SyntaxError}
    (herror : nesting.step ⟨event, raw⟩ = .error e) :
    ∃ fault words, Misfit (row.map Located.kept) event fault words ∧ e = ⟨fault, raw⟩ := by
  obtain ⟨root, frames⟩ := nesting
  cases frames with
  | nil =>
      have hn : Nested ((row.map Located.kept).map Located.event) := by
        rw [Event.map_event_map_kept]
        exact (nested_iff_of_run h).2 rfl
      cases event with
      | otherwise => cases herror; exact ⟨_, _, .elseOutside hn, rfl⟩
      | closing name => cases herror; exact ⟨_, _, .closeOutside hn, rfl⟩
      | _ => cases herror
  | cons frame frames =>
      obtain ⟨opening, body, elseBody⟩ := frame
      have hw : Within opening elseBody.isSome (row.map Located.kept) :=
        (within_iff_of_run h).2 ⟨body, elseBody, frames, rfl, rfl⟩
      cases event with
      | otherwise =>
          cases elseBody with
          | none => cases herror
          | some trees => cases herror; exact ⟨_, _, .duplicateElse hw, rfl⟩
      | closing name =>
          simp only [step, close] at herror
          split at herror
          · cases herror
          · next hname => cases herror; exact ⟨_, _, .wrongClose hw hname, rfl⟩
      | _ => cases herror

/-- An event is refused exactly where it does not fit after the row. -/
theorem step_eq_error_iff (h : run {} row = .ok nesting) {e : SyntaxError} :
    nesting.step ⟨event, raw⟩ = .error e ↔
      ∃ fault words, Misfit (row.map Located.kept) event fault words ∧ e = ⟨fault, raw⟩ := by
  refine ⟨misfit_of_step h, ?_⟩
  rintro ⟨fault, words, hmisfit, rfl⟩
  exact step_of_misfit h hmisfit

end

end Nesting

end SqlTemplates
