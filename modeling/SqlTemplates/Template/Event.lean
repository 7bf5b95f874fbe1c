import SqlTemplates.Template.Tag

/-!
# Events

Read from left to right, a template is a row of events: text, an expression, an
included template, the start of a section, its else and its end.  A tag gives the
text before it and its own event.  A comment gives no event of its own, and an
escaped delimiter is text.

`Event.Located` pairs an event with the tag it came from, which an error quotes.  A tree
keeps the tag where compiling it may fail (`Event.Located.kept`).
-/

namespace SqlTemplates

/-- A step in a template, read from left to right. -/
inductive Event
  | text (s : List Char)
  | expression (content : List Char)
  | inclusion (content : List Char)
  /-- The start of a section, with its name and its arguments. -/
  | opening (name args : List Char)
  | otherwise
  /-- The end of a section, with the name it repeats. -/
  | closing (name : List Char)
deriving DecidableEq, Repr

namespace Event

/-- An event and the whole tag it came from. -/
structure Located where
  event : Event
  /-- The tag, or nothing for text. -/
  raw : List Char
deriving DecidableEq, Repr

/-- The event with what a tree keeps of its tag: the tags of expressions, of included
templates and of the starts of sections. -/
def Located.kept (located : Located) : Located :=
  match located.event with
  | .text _ | .otherwise | .closing _ => ⟨located.event, []⟩
  | .expression _ | .inclusion _ | .opening _ _ => located

@[simp] theorem Located.event_kept (located : Located) : located.kept.event = located.event := by
  unfold Located.kept
  split <;> rfl

/-- The first word of a section's tag. -/
def sectionName (content : List Char) : List Char :=
  (Text.trim content).takeWhile fun c => !Text.isBlank c

/-- What follows the first word of a section's tag, trimmed. -/
def sectionArgs (content : List Char) : List Char :=
  Text.trim ((Text.trim content).dropWhile fun c => !Text.isBlank c)

/-- The event of a tag itself, if it has one. -/
def ofTag? (tag : Tag) : Option Event :=
  match tag.kind with
  | .comment => none
  | .escaped => some (.text tag.content)
  | .expression => some (if tag.isElse then .otherwise else .expression tag.content)
  | .inclusion => some (.inclusion tag.content)
  | .opening => some (.opening (sectionName tag.content) (sectionArgs tag.content))
  | .closing => some (.closing (Text.trim tag.content))

/-- The event of a piece of text, if there is any text. -/
def ofText? (s : List Char) : Option Event :=
  if s.isEmpty then none else some (.text s)

/-- The events of a tag: the text before it and its own event. -/
def ofTag (tag : Tag) : List Located :=
  (ofText? tag.before).toList.map (Located.mk · []) ++
    (ofTag? tag).toList.map (Located.mk · tag.raw)

/-- The events of some tags and the text after the last of them. -/
def ofTags (tags : List Tag) (rest : List Char) : List Located :=
  tags.flatMap ofTag ++ (ofText? rest).toList.map (Located.mk · [])

end Event

end SqlTemplates
