import SqlTemplates.Proofs.Continuation
import SqlTemplates.Proofs.Pieces
import SqlTemplates.Proofs.Written

/-!
# The first fault

A text is read up to its first fault.  `Tag.Reached` says how far that is: some tags have been
read, their events can be continued to a well-nested row, and either there is no next tag or its
event cannot be added to them.

`Tree.parse_reached` says what comes of it.  The fault of this place is the fault of the text: an
event that does not fit, a tag that cannot be read, or the innermost section that is open at the
end.  What stands after a tag with a fault plays no part (`Tree.Refuses`), and neither do
faults after it.  Only a tag that does not end is found at the end of the text.  The message
says what is wrong, with the name of the section that is open, and quotes the tag
(`SyntaxError.Says`).

The proof reads the tags one by one (`Nesting.read`).  A tag is the same, but for the text after
it, when another text follows (`Nesting.read_of_passed`), and what the stack does with its event
depends on the events before it alone.
-/

namespace SqlTemplates

open Event (Located Viable Within Misfit Nested rowOfText rowOfTag rowOfTags ofTag ofTag? ofText?)

/-! ## Reading on -/

/-- Reads a text that follows what was read so far. -/
def Nesting.read (nesting : Nesting) (s : List Char) : Except SyntaxError (List Tree) := do
  let (tags, rest) := Tag.scan s
  let next ← nesting.run (tags.flatMap ofTag)
  next.finish (← rest)

namespace Nesting

variable {s rest : List Char} {places : List Tag.Place}

theorem read_of_error {e : SyntaxError} (h : Tag.first? s = .error e) (nesting : Nesting) :
    nesting.read s = .error e := by
  rw [read, Tag.scan_of_error h]
  rfl

theorem read_of_none (h : Tag.first? s = .ok none) (nesting : Nesting) :
    nesting.read s = nesting.finish s := by
  rw [read, Tag.scan_of_none h]
  rfl

theorem read_of_some {tag : Tag} (h : Tag.first? s = .ok (some tag)) (nesting : Nesting) :
    nesting.read s = nesting.run (ofTag tag) >>= (·.read tag.after) := by
  rw [read, Tag.scan_of_some h]
  simp only [List.flatMap_cons, run_append, bind_assoc]
  rfl

/-- Past some tags, a text is read on from their events.  The text that is left may be another
one with the same first character, so that the last tag trims as much of it. -/
theorem read_of_passed {rest' : List Char} (h : Tag.Passed s places rest)
    (hhead : rest'.head? = rest.head?) (nesting : Nesting) :
    nesting.read (Tag.textOf places ++ rest') =
      nesting.run ((places.map Tag.Place.tag).flatMap ofTag) >>= (·.read rest') := by
  induction h generalizing nesting with
  | nil => rfl
  | @cons s rest place places hfirst hstands hpassed ih =>
      have hsolid : Tag.TrimsAfter place.tag.raw →
          Text.StartsSolid (Tag.textOf places ++ rest') := by
        intro htrims c hc
        have hafter := hstands.startsSolid_after htrims
        rw [hpassed.text_eq] at hafter
        rw [List.head?_append, hhead, ← List.head?_append] at hc
        exact hafter c hc
      have hread := hstands.first?_append hfirst (place.right ++ (Tag.textOf places ++ rest'))
      rw [hstands.followedBy hsolid] at hread
      have htext : Tag.textOf (place :: places) ++ rest' =
          place.tag.before ++ place.left ++ place.tag.raw ++
            (place.right ++ (Tag.textOf places ++ rest')) := by
        simp [Tag.Place.text]
      rw [htext, read_of_some hread, List.map_cons, List.flatMap_cons, run_append,
        bind_assoc]
      exact congrArg _ (funext fun next => ih hhead next)

/-- Any text can be added to what was read. -/
theorem exists_run_text (nesting : Nesting) (s : List Char) :
    ∃ next, nesting.run ((ofText? s).toList.map (Located.mk · [])) = .ok next := by
  unfold ofText?
  cases s with
  | nil => exact ⟨nesting, rfl⟩
  | cons c s => exact ⟨nesting.push (.text (c :: s)), rfl⟩

end Nesting

/-! ## How far a text is read -/

namespace Tag

variable {s rest : List Char} {places : List Place}

/-- The events of some tags and of the text before each of them. -/
def rowOf (places : List Place) : List Located := rowOfTags (places.map Place.tag)

/-- The text is read up to these tags: there is no next one, or the events cannot be continued
with it. -/
structure Reached (s : List Char) (places : List Place) (rest : List Char) : Prop where
  passed : Passed s places rest
  viable : Viable ((rowOf places).map Located.event)
  last : ∀ tag, first? rest = .ok (some tag) →
    ¬ Viable ((rowOf places ++ (rowOfText tag.before ++ rowOfTag tag)).map Located.event)

theorem rowOf_cons (place : Place) (places : List Place) :
    rowOf (place :: places) =
      rowOfText place.tag.before ++ rowOfTag place.tag ++ rowOf places := rfl

/-- The events that are read are those of the row. -/
theorem Passed.map_kept (h : Passed s places rest) :
    ((places.map Place.tag).flatMap ofTag).map Located.kept = rowOf places := by
  induction h with
  | nil => rfl
  | @cons s rest place places hfirst _ _ ih =>
      rw [List.map_cons, List.flatMap_cons, List.map_append, ih, rowOf_cons,
        Event.map_kept_ofTag fun hk => content_of_escaped hfirst hk]

/-- Every text is read up to some place.  The induction is on the tags of the text, for any
events before them. -/
theorem exists_reached (s : List Char) : ∃ places rest, Reached s places rest := by
  suffices h : ∀ es : List Event, Viable es → ∃ places rest, Passed s places rest ∧
      Viable (es ++ (rowOf places).map Located.event) ∧
      ∀ tag, first? rest = .ok (some tag) → ¬ Viable (es ++
        (rowOf places ++ (rowOfText tag.before ++ rowOfTag tag)).map Located.event) by
    obtain ⟨places, rest, hpassed, hviable, hlast⟩ := h [] ⟨[], .nil⟩
    exact ⟨places, rest, hpassed, hviable, hlast⟩
  induction s using scan.induct with
  | case1 s e hf =>
      intro es hes
      refine ⟨[], s, .nil, by simpa [rowOf, rowOfTags] using hes, fun tag htag => ?_⟩
      rw [hf] at htag
      cases htag
  | case2 s hf =>
      intro es hes
      refine ⟨[], s, .nil, by simpa [rowOf, rowOfTags] using hes, fun tag htag => ?_⟩
      rw [hf] at htag
      cases htag
  | case3 s tag hf _ _ _ ih =>
      intro es hes
      by_cases hv :
          Viable (es ++ (rowOfText tag.before ++ rowOfTag tag).map Located.event)
      · obtain ⟨places, rest, hpassed, hviable, hlast⟩ := ih _ hv
        obtain ⟨left, right, hstands, -⟩ := exists_stands hf
        refine ⟨⟨tag, left, right⟩ :: places, rest, .cons hf hstands hpassed, ?_, ?_⟩
        · rwa [rowOf_cons, List.map_append, ← List.append_assoc]
        · intro next hnext
          rw [rowOf_cons, List.append_assoc _ (rowOf places), List.map_append,
            ← List.append_assoc]
          exact hlast next hnext
      · refine ⟨[], s, .nil, by simpa [rowOf, rowOfTags] using hes, fun next hnext => ?_⟩
        rw [hf] at hnext
        cases hnext
        exact hv

end Tag

/-! ## The fault of a tag -/

/-- The message of the error is these words and, near them, the piece in quotes. -/
def SyntaxError.Says (e : SyntaxError) (words : String) : Prop :=
  e.message = words ++ " near \"" ++ String.ofList e.near ++ "\""

theorem SyntaxError.says_of_text {fault : Fault} {words : String} (h : fault.text = words)
    (near : List Char) : Says ⟨fault, near⟩ words := by
  rw [Says, message, h]

/-- Every text that starts with this one has this fault. -/
def Tree.Refuses (start : List Char) (e : SyntaxError) : Prop :=
  ∀ t, Tree.parse (start ++ t) = .error e

theorem Text.head?_append_of_ne_nil {s : List Char} (h : s ≠ []) (t t' : List Char) :
    (s ++ t).head? = (s ++ t').head? := by
  obtain ⟨c, s, rfl⟩ := List.exists_cons_of_ne_nil h
  rfl

/-- A misfit is an else or the end of a section, and a tree does not keep these tags. -/
theorem Event.Misfit.kept_eq {row : List Located} {event : Event} {fault : Fault}
    {words : String} (h : Misfit row event fault words) (raw : List Char) :
    Located.kept ⟨event, raw⟩ = ⟨event, []⟩ := by
  cases h <;> rfl

section

open Tag (Place Passed Reached textOf rowOf first?)

/-- The events of a tag are refused where its own event does not fit. -/
theorem Nesting.run_ofTag_eq_error_iff {row : List Located} {nesting : Nesting}
    (h : run {} row = .ok nesting) {tag : Tag}
    (htag : tag.kind = .escaped → tag.content = ['{', '{']) {e : SyntaxError} :
    nesting.run (ofTag tag) = .error e ↔
      ∃ event fault words, rowOfTag tag = [⟨event, []⟩] ∧
        Misfit (row.map Located.kept ++ rowOfText tag.before) event fault words ∧
        e = ⟨fault, tag.raw⟩ := by
  obtain ⟨next, hnext⟩ := nesting.exists_run_text tag.before
  have hrun := run_append_of_run h ((ofText? tag.before).toList.map (Located.mk · []))
  rw [hnext] at hrun
  have hkept := Event.map_kept_ofTag? htag
  rw [ofTag, run_append_of_run hnext, ← Event.map_kept_ofText?, ← List.map_append, ← hkept]
  cases ofTag? tag with
  | none =>
      constructor
      · intro herror
        cases herror
      · rintro ⟨event, fault, words, hrow, -⟩
        cases hrow
  | some event =>
      have hstep : next.run [⟨event, tag.raw⟩] = next.step ⟨event, tag.raw⟩ := bind_pure _
      simp only [Option.toList_some, List.map_cons, List.map_nil]
      rw [hstep, step_eq_error_iff hrun]
      constructor
      · rintro ⟨fault, words, hmisfit, rfl⟩
        exact ⟨event, fault, words, by rw [hmisfit.kept_eq], hmisfit, rfl⟩
      · rintro ⟨event', fault, words, hrow, hmisfit, rfl⟩
        obtain rfl := Located.event_of_kept (List.cons.inj hrow).1
        exact ⟨fault, words, hmisfit, rfl⟩

variable {s rest : List Char} {places : List Place} {tag : Tag}

/-- The tags that were passed have been read. -/
theorem Tag.Passed.exists_run (h : Passed s places rest)
    (hviable : Viable ((rowOf places).map Located.event)) :
    ∃ nesting, Nesting.run {} ((places.map Place.tag).flatMap ofTag) = .ok nesting := by
  rw [← h.map_kept, Event.map_event_map_kept] at hviable
  exact Nesting.viable_iff_run.1 hviable

/-- A text with these tags is read on from their events. -/
theorem Tree.parse_of_passed {rest' : List Char} (h : Passed s places rest)
    (hhead : rest'.head? = rest.head?) {nesting : Nesting}
    (hrun : Nesting.run {} ((places.map Place.tag).flatMap ofTag) = .ok nesting) :
    Tree.parse (textOf places ++ rest') = nesting.read rest' := by
  have hread : Tree.parse (textOf places ++ rest') =
      Nesting.read {} (textOf places ++ rest') := rfl
  rw [hread, Nesting.read_of_passed h hhead, hrun]
  rfl

/-- A tag whose event does not fit is refused, whatever follows it. -/
theorem Tree.refuses_of_misfit {left right : List Char} {event : Event} {fault : Fault}
    {words : String} (h : Passed s places rest)
    (hviable : Viable ((rowOf places).map Located.event))
    (hfirst : first? rest = .ok (some tag)) (hstands : tag.Stands left right rest)
    (hevent : rowOfTag tag = [⟨event, []⟩])
    (hmisfit : Misfit (rowOf places ++ rowOfText tag.before) event fault words) :
    Refuses (textOf places ++ (tag.before ++ left ++ tag.raw)) ⟨fault, tag.raw⟩ := by
  intro t
  obtain ⟨nesting, hrun⟩ := h.exists_run hviable
  rw [← h.map_kept] at hmisfit
  have herror : nesting.run (ofTag tag) = .error ⟨fault, tag.raw⟩ :=
    (Nesting.run_ofTag_eq_error_iff hrun fun hk => Tag.content_of_escaped hfirst hk).2
      ⟨event, fault, words, hevent, hmisfit, rfl⟩
  have hne : tag.before ++ left ++ tag.raw ≠ [] := by
    have hraw := hstands.two_le_length_raw
    rintro hnil
    rw [(List.append_eq_nil_iff.1 hnil).2] at hraw
    cases hraw
  have hhead : (tag.before ++ left ++ tag.raw ++ t).head? = rest.head? := by
    rw [hstands.text, List.append_assoc _ right]
    exact Text.head?_append_of_ne_nil hne _ _
  have hsame : ofTag (tag.followedBy t) = ofTag tag := rfl
  rw [List.append_assoc, parse_of_passed h hhead hrun,
    Nesting.read_of_some (hstands.first?_append hfirst t), hsame, herror]
  rfl

/-- The next tag has an event that does not fit, if the events cannot be continued with it. -/
theorem Tag.Reached.exists_misfit (h : Reached s places rest)
    (hfirst : first? rest = .ok (some tag)) :
    ∃ event fault words, rowOfTag tag = [⟨event, []⟩] ∧
      Misfit (rowOf places ++ rowOfText tag.before) event fault words := by
  obtain ⟨nesting, hrun⟩ := h.passed.exists_run h.viable
  have hescaped : tag.kind = .escaped → tag.content = ['{', '{'] :=
    fun hk => Tag.content_of_escaped hfirst hk
  cases hnext : nesting.run (ofTag tag) with
  | error e =>
      obtain ⟨event, fault, words, hevent, hmisfit, -⟩ :=
        (Nesting.run_ofTag_eq_error_iff hrun hescaped).1 hnext
      rw [h.passed.map_kept] at hmisfit
      exact ⟨event, fault, words, hevent, hmisfit⟩
  | ok next =>
      have hall : Nesting.run {} ((places.map Place.tag).flatMap ofTag ++ ofTag tag) =
          .ok next := by
        rw [Nesting.run_append_of_run hrun, hnext]
      have hkept : ((places.map Place.tag).flatMap ofTag ++ ofTag tag).map Located.kept =
          rowOf places ++ (rowOfText tag.before ++ rowOfTag tag) := by
        rw [List.map_append, h.passed.map_kept, Event.map_kept_ofTag hescaped]
      have hviable := Nesting.viable_iff_run.2 ⟨next, hall⟩
      rw [← Event.map_event_map_kept, hkept] at hviable
      exact absurd hviable (h.last tag hfirst)

/-- A tag that cannot be read is refused, whatever follows it, unless it does not end. -/
theorem Tree.refuses_of_error {e : SyntaxError} (h : Passed s places rest)
    (hviable : Viable ((rowOf places).map Located.event)) (hfirst : first? rest = .error e) :
    Tree.parse s = .error e ∧ ∃ lead raw tail, rest = lead ++ raw ++ tail ∧
      Text.FirstAt Tag.openMark lead rest ∧ Tag.openMark <+: raw ∧
      (e = .atEnd .unclosedTag (lead ++ raw) ∨
        Tag.closeMark <:+ raw ∧ e = ⟨.emptyTag, raw⟩ ∧
          Refuses (textOf places ++ (lead ++ raw)) e) := by
  obtain ⟨nesting, hrun⟩ := h.exists_run hviable
  constructor
  · rw [h.text_eq, parse_of_passed h rfl hrun, Nesting.read_of_error hfirst]
  · obtain ⟨lead, raw, tail, htext, hat, hopen, hfault⟩ := Tag.fault_of_first? hfirst
    refine ⟨lead, raw, tail, htext, hat, hopen, hfault.imp_right ?_⟩
    rintro ⟨hclose, he, hend⟩
    refine ⟨hclose, he, fun t => ?_⟩
    have hne : lead ++ raw ≠ [] :=
      List.append_ne_nil_of_right_ne_nil lead fun hnil => absurd (hnil ▸ hopen) (by decide)
    have hhead : (lead ++ raw ++ t).head? = rest.head? := by
      rw [htext]
      exact Text.head?_append_of_ne_nil hne _ _
    rw [List.append_assoc, parse_of_passed h hhead hrun, Nesting.read_of_error (hend t)]

/-- Where no tag is left, the section that is open has the fault. -/
theorem Tree.parse_of_within {opening : Opening} {second : Bool} (h : Passed s places rest)
    (hviable : Viable ((rowOf places).map Located.event)) (hfirst : first? rest = .ok none)
    (hw : Within opening second (rowOf places)) :
    Tree.parse s = .error ⟨.unclosedSection opening.name, opening.raw⟩ := by
  obtain ⟨nesting, hrun⟩ := h.exists_run hviable
  rw [← h.map_kept, Nesting.within_iff_of_run hrun] at hw
  obtain ⟨body, elseBody, frames, hframes, -⟩ := hw
  rw [h.text_eq, parse_of_passed h rfl hrun, Nesting.read_of_none hfirst, Nesting.finish, hframes]

/-- Events that can be continued and are not well nested end in a section. -/
theorem Tag.Passed.exists_within (h : Passed s places rest)
    (hviable : Viable ((rowOf places).map Located.event))
    (hopen : ¬ Nested ((rowOf places).map Located.event)) :
    ∃ opening second, Within opening second (rowOf places) := by
  obtain ⟨⟨root, frames⟩, hrun⟩ := h.exists_run hviable
  rw [← h.map_kept] at hopen ⊢
  rw [Event.map_event_map_kept, Nesting.nested_iff_of_run hrun] at hopen
  obtain ⟨⟨opening, body, elseBody⟩, frames, rfl⟩ := List.exists_cons_of_ne_nil hopen
  exact ⟨opening, _, (Nesting.within_iff_of_run hrun).2 ⟨body, elseBody, frames, rfl, rfl⟩⟩

/-- The first fault of a text is its only one.  Every text is read up to some place, and from
there

* a tag whose event does not fit has the fault that the events before it give it, and so has
  every text that agrees up to the end of this tag.  The message quotes this tag;
* a tag that cannot be read has its own fault, and so has every text that agrees up to its
  end.  The message quotes this tag.  If it has no end, the message quotes at most thirty-two
  characters up to its start;
* if there is no tag and the events are not well nested, the innermost open section has the
  fault.  The message names it and quotes the tag that opened it. -/
theorem Tree.parse_reached (s : List Char) :
    (∃ places rest, Reached s places rest) ∧ ∀ places rest, Reached s places rest →
      (∀ tag, first? rest = .ok (some tag) → ∃ event left right,
        rowOfTag tag = [⟨event, []⟩] ∧ tag.Stands left right rest ∧
        (∃ fault words, Misfit (rowOf places ++ rowOfText tag.before) event fault words) ∧
        ∀ fault words, Misfit (rowOf places ++ rowOfText tag.before) event fault words →
          Tree.parse s = .error ⟨fault, tag.raw⟩ ∧
          SyntaxError.Says ⟨fault, tag.raw⟩ words ∧
          Refuses (textOf places ++ (tag.before ++ left ++ tag.raw)) ⟨fault, tag.raw⟩) ∧
      (∀ e, first? rest = .error e →
        Tree.parse s = .error e ∧ ∃ lead raw tail, rest = lead ++ raw ++ tail ∧
          Text.FirstAt Tag.openMark lead rest ∧ Tag.openMark <+: raw ∧
          (e = ⟨.unclosedTag, Text.lastChars 32 (lead ++ raw)⟩ ∧ e.Says "unclosed tag" ∨
            Tag.closeMark <:+ raw ∧ e = ⟨.emptyTag, raw⟩ ∧ e.Says "empty tag" ∧
              Refuses (textOf places ++ (lead ++ raw)) e)) ∧
      (first? rest = .ok none → ¬ Nested ((rowOf places).map Located.event) →
        (∃ opening second, Within opening second (rowOf places)) ∧
        ∀ opening second, Within opening second (rowOf places) →
          Tree.parse s = .error ⟨.unclosedSection opening.name, opening.raw⟩ ∧
          SyntaxError.Says ⟨.unclosedSection opening.name, opening.raw⟩
            ("unclosed section " ++ String.ofList opening.name)) := by
  refine ⟨Tag.exists_reached s, fun places rest h => ⟨fun tag hfirst => ?_, fun e hfirst => ?_,
    fun hfirst hopen => ⟨?_, fun opening second hw => ?_⟩⟩⟩
  · obtain ⟨event, fault, words, hevent, hmisfit⟩ := h.exists_misfit hfirst
    obtain ⟨left, right, hstands, -⟩ := Tag.exists_stands hfirst
    refine ⟨event, left, right, hevent, hstands, ⟨fault, words, hmisfit⟩,
      fun fault words hmisfit => ?_⟩
    have hrefuses := refuses_of_misfit h.passed h.viable hfirst hstands hevent hmisfit
    refine ⟨?_, SyntaxError.says_of_text hmisfit.text_eq tag.raw, hrefuses⟩
    have htext : s =
        textOf places ++ (tag.before ++ left ++ tag.raw) ++ (right ++ tag.after) := by
      rw [h.passed.text_eq, hstands.text]
      simp only [List.append_assoc]
    rw [htext]
    exact hrefuses _
  · obtain ⟨hparse, lead, raw, tail, htext, hat, hopen, hfault⟩ :=
      refuses_of_error h.passed h.viable hfirst
    refine ⟨hparse, lead, raw, tail, htext, hat, hopen, ?_⟩
    rcases hfault with rfl | ⟨hclose, rfl, hrefuses⟩
    · exact .inl ⟨rfl, SyntaxError.says_of_text rfl _⟩
    · exact .inr ⟨hclose, rfl, SyntaxError.says_of_text rfl _, hrefuses⟩
  · exact h.passed.exists_within h.viable hopen
  · exact ⟨parse_of_within h.passed h.viable hfirst hw,
      SyntaxError.says_of_text rfl opening.raw⟩

/-- A tag drops nothing where there is nothing else. -/
theorem Tag.Stands.eq_nil_of_length {left right : List Char} (h : tag.Stands left right s)
    (hlength : s.length ≤ tag.before.length + tag.raw.length + tag.after.length) :
    left = [] ∧ right = [] := by
  have htext := congrArg List.length h.text
  simp only [List.length_append] at htext
  exact ⟨List.length_eq_zero_iff.1 (by omega), List.length_eq_zero_iff.1 (by omega)⟩

/-- A section that is closed with another name is refused, whatever follows.  The message names
the section and quotes the tag that should close it. -/
theorem Tree.parse_reached_wrongClose :
    Refuses "\x7b\x7b#if a\x7d\x7dx\x7b\x7b/unless\x7d\x7d".toList
        ⟨.wrongClose ['i', 'f'], "\x7b\x7b/unless\x7d\x7d".toList⟩ ∧
      SyntaxError.message ⟨.wrongClose ['i', 'f'], "\x7b\x7b/unless\x7d\x7d".toList⟩ =
        "expected close of section if near \"\x7b\x7b/unless\x7d\x7d\"" := by
  have hopening : first? "\x7b\x7b#if a\x7d\x7dx\x7b\x7b/unless\x7d\x7d".toList =
      .ok (some ⟨.opening, [], "if a".toList, "x\x7b\x7b/unless\x7d\x7d".toList,
        "\x7b\x7b#if a\x7d\x7d".toList⟩) := by cbv
  have hclosing : first? "x\x7b\x7b/unless\x7d\x7d".toList =
      .ok (some ⟨.closing, ['x'], "unless".toList, [], "\x7b\x7b/unless\x7d\x7d".toList⟩) := by
    cbv
  obtain ⟨left, right, hstands, -⟩ := Tag.exists_stands hopening
  obtain ⟨rfl, rfl⟩ := hstands.eq_nil_of_length (by decide)
  have hreached : Reached _ [⟨_, [], []⟩] _ :=
    ⟨.cons hopening hstands .nil, ⟨[.closing ['i', 'f']], .block .nil .nil⟩, by
      intro tag hfirst hviable
      rw [hclosing] at hfirst
      cases hfirst
      obtain ⟨nesting, hrun⟩ := Nesting.viable_iff_run.1 hviable
      cases hrun⟩
  obtain ⟨event, left, right, hevent, hstands', -, herror⟩ :=
    ((parse_reached _).2 _ _ hreached).1 _ hclosing
  obtain ⟨rfl, rfl⟩ := hstands'.eq_nil_of_length (by decide)
  have hw := @Event.Within.body ⟨['i', 'f'], ['a'], "\x7b\x7b#if a\x7d\x7d".toList⟩ []
    [⟨.text ['x'], []⟩] (.text .nil)
  cases hevent
  obtain ⟨-, hsays, hrefuses⟩ := herror _ _ (.wrongClose hw (by decide))
  exact ⟨hrefuses, hsays.trans (by decide)⟩

end

end SqlTemplates
