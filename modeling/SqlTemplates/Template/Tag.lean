import SqlTemplates.Text.Blank
import SqlTemplates.Template.Fault

/-!
# Tags

A template is text with tags between two braces on either side.

* An expression prints a value; it may have three braces instead of two.
* `#` opens a section and `/` closes it, `>` includes a stored template, and `!`
  starts a comment.  A comment that starts with two dashes runs to the next two
  dashes that stand before a closing delimiter, so it may hold other tags.
* A backslash before an opening delimiter makes the delimiter text.  Two
  backslashes are one backslash of text, and the tag counts.
* A `~` inside a delimiter trims the blanks of the text on its side.

`Tag.first?` finds the first tag of a text and `Tag.scan` all of them, up to the
first that has a fault.  The text after a tag is shorter than the text it was found
in (`Tag.length_after_lt`), which is why the scan ends.
-/

namespace SqlTemplates

/-- What a tag is for. -/
inductive Tag.Kind
  | comment
  | expression
  | opening
  | closing
  | inclusion
  /-- A delimiter that counts as text. -/
  | escaped
deriving DecidableEq, Repr

/-- A tag and the text around it. -/
structure Tag where
  kind : Tag.Kind
  /-- The text before the tag, trimmed if the tag says so. -/
  before : List Char
  /-- What stands between the delimiters and their marks. -/
  content : List Char
  /-- The text after the tag, trimmed if the tag says so. -/
  after : List Char
  /-- The whole tag with its delimiters. -/
  raw : List Char
deriving DecidableEq, Repr

namespace Tag

/-! ## Delimiters -/

/-- Opens a tag. -/
def openMark : List Char := ['{', '{']

/-- Closes a tag. -/
def closeMark : List Char := ['}', '}']

/-- Closes an expression that was opened with three braces. -/
def wideCloseMark : List Char := ['}', '}', '}']

/-- Closes a comment that was opened with dashes. -/
def longCloseMark : List Char := ['-', '-', '}', '}']

/-- Closes a comment that was opened with dashes, and trims. -/
def longTrimMark : List Char := ['-', '-', '~', '}', '}']

/-- Where a tag starts: the text before it and what was read of the tag. -/
structure Start where
  /-- All text before the tag. -/
  lead : List Char
  /-- The part of it that is left once backslashes and trim marks are obeyed. -/
  before : List Char
  /-- The opening delimiter and the marks that follow it. -/
  mark : List Char
deriving DecidableEq, Repr

namespace Start

/-- Reads one more character of the tag. -/
def push (start : Start) (c : Char) : Start := { start with mark := start.mark ++ [c] }

/-- Reads a trim mark, if there is one, and what follows it. -/
def trimMark (start : Start) : List Char → Start × List Char
  | '~' :: s => ({ start.push '~' with before := Text.trimEnd start.before }, s)
  | s => (start, s)

/-- The error of a tag that does not end.  It quotes the text up to the content. -/
def unclosed (start : Start) : SyntaxError := .atEnd .unclosedTag (start.lead ++ start.mark)

/-- What stands between the delimiters, without the trim mark at its end. -/
def contentOf (inside : List Char) : List Char :=
  if inside.getLast? = some '~' then inside.dropLast else inside

/-- The text after a tag, trimmed if what stands between the delimiters ends in a
trim mark. -/
def afterOf (inside rest : List Char) : List Char :=
  if inside.getLast? = some '~' then Text.trimStart rest else rest

/-- The tag that ends at the first `mark` in `body`.  Only a comment may be empty. -/
def close (start : Start) (kind : Kind) (mark body : List Char) : Except SyntaxError Tag :=
  match Text.cut? mark body with
  | none => .error start.unclosed
  | some (inside, rest) =>
      let raw := start.mark ++ inside ++ mark
      if kind ≠ .comment ∧ Text.isAllBlank (contentOf inside) then .error ⟨.emptyTag, raw⟩
      else .ok ⟨kind, start.before, contentOf inside, afterOf inside rest, raw⟩

/-- The nearer of the two ends of a comment with dashes: what stands before it, the
delimiter, and what is left after it. -/
def longEnd? (body : List Char) : Option (List Char × List Char × List Char) :=
  match Text.cut? longCloseMark body, Text.cut? longTrimMark body with
  | none, none => none
  | some (inside, rest), none => some (inside, longCloseMark, rest)
  | none, some (inside, rest) => some (inside, longTrimMark, Text.trimStart rest)
  | some (inside, rest), some (inside', rest') =>
      if inside.length ≤ inside'.length then some (inside, longCloseMark, rest)
      else some (inside', longTrimMark, Text.trimStart rest')

/-- A comment, after its mark. -/
def comment (start : Start) : List Char → Except SyntaxError Tag
  | '-' :: '-' :: body =>
      let start := (start.push '-').push '-'
      match longEnd? body with
      | none => .error start.unclosed
      | some (inside, mark, after) =>
          .ok ⟨.comment, start.before, inside, after, start.mark ++ inside ++ mark⟩
  | body => start.close .comment closeMark body

/-- The tag of a start and the text after its delimiter and trim mark. -/
def tag (start : Start) : List Char → Except SyntaxError Tag
  | [] => .error start.unclosed
  | '{' :: s =>
      let wide := (start.push '{').trimMark s
      wide.1.close .expression wideCloseMark wide.2
  | '!' :: s => (start.push '!').comment s
  | '#' :: s => (start.push '#').close .opening closeMark s
  | '/' :: s => (start.push '/').close .closing closeMark s
  | '>' :: s => (start.push '>').close .inclusion closeMark s
  | body => start.close .expression closeMark body

end Start

/-! ## Finding tags -/

/-- How the backslashes at the end of a text change the delimiter after it. -/
inductive Lead
  /-- The delimiter is text, and its backslash is not. -/
  | escaped (text : List Char)
  /-- The delimiter opens a tag. -/
  | plain (text : List Char)
deriving DecidableEq, Repr

/-- Reads the backslashes before a delimiter: one escapes it, and of two or more the
last is dropped. -/
def Lead.of (lead : List Char) : Lead :=
  match lead.reverse with
  | '\\' :: '\\' :: s => .plain ('\\' :: s).reverse
  | '\\' :: s => .escaped s.reverse
  | _ => .plain lead

/-- The tag of a delimiter with the text before it and after it. -/
def ofCut (lead rest : List Char) : Except SyntaxError Tag :=
  match Lead.of lead with
  | .escaped text => .ok ⟨.escaped, text, openMark, rest, '\\' :: openMark⟩
  | .plain text =>
      let start := Start.trimMark ⟨lead, text, openMark⟩ rest
      start.1.tag start.2

/-- The first tag of a text, if there is one. -/
def first? (s : List Char) : Except SyntaxError (Option Tag) :=
  match Text.cut? openMark s with
  | none => .ok none
  | some (lead, rest) => (ofCut lead rest).map some

/-- The tag separates the two branches of a section. -/
def isElse (tag : Tag) : Bool :=
  tag.kind = .expression && Text.trim tag.content = ['e', 'l', 's', 'e']

/-! ## What was found -/

namespace Start

/-- A tag ends at the first closing delimiter, and only a comment is empty. -/
theorem close_eq_ok_iff {start : Start} {kind : Kind} {mark body : List Char} {tag : Tag} :
    start.close kind mark body = .ok tag ↔
      ∃ inside rest, Text.cut? mark body = some (inside, rest) ∧
        ¬ (kind ≠ .comment ∧ Text.isAllBlank (contentOf inside) = true) ∧
        tag = ⟨kind, start.before, contentOf inside, afterOf inside rest,
          start.mark ++ inside ++ mark⟩ := by
  rw [close]
  constructor
  · intro h
    split at h
    · cases h
    · next inside rest hc =>
        dsimp only at h
        split at h
        · cases h
        · next hfull =>
            cases h
            exact ⟨inside, rest, hc, hfull, rfl⟩
  · rintro ⟨inside, rest, hc, hfull, rfl⟩
    rw [hc]
    exact if_neg hfull

end Start

/-- The first tag is the one at the first delimiter. -/
theorem first?_eq_some_iff {s : List Char} {tag : Tag} :
    first? s = .ok (some tag) ↔
      ∃ lead rest, Text.cut? openMark s = some (lead, rest) ∧ ofCut lead rest = .ok tag := by
  rw [first?]
  constructor
  · intro h
    split at h
    · cases h
    · next lead rest hc =>
        cases ht : ofCut lead rest with
        | error e => rw [ht] at h; cases h
        | ok found =>
            rw [ht] at h
            cases h
            exact ⟨lead, rest, hc, ht⟩
  · rintro ⟨lead, rest, hc, ht⟩
    rw [hc]
    dsimp only
    rw [ht]
    rfl

/-! ## The text after a tag -/

namespace Start

theorem trimMark_suffix (start : Start) (s : List Char) : (start.trimMark s).2 <:+ s := by
  unfold trimMark
  split
  · exact List.suffix_cons '~' _
  · exact List.suffix_rfl

theorem afterOf_suffix (inside rest : List Char) : afterOf inside rest <:+ rest := by
  unfold afterOf
  split
  · exact Text.trimStart_suffix rest
  · exact List.suffix_rfl

theorem after_suffix_of_close {start : Start} {kind : Kind} {mark body : List Char} {tag : Tag}
    (h : start.close kind mark body = .ok tag) : tag.after <:+ body := by
  obtain ⟨inside, rest, hc, -, rfl⟩ := close_eq_ok_iff.1 h
  exact (afterOf_suffix inside rest).trans (Text.suffix_of_cut? hc)

theorem after_suffix_of_longEnd? {body inside mark after : List Char}
    (h : longEnd? body = some (inside, mark, after)) : after <:+ body := by
  unfold longEnd? at h
  split at h
  · cases h
  · next hc _ => cases h; exact Text.suffix_of_cut? hc
  · next _ hc => cases h; exact (Text.trimStart_suffix _).trans (Text.suffix_of_cut? hc)
  · next hc hc' =>
      split at h
      · cases h; exact Text.suffix_of_cut? hc
      · cases h; exact (Text.trimStart_suffix _).trans (Text.suffix_of_cut? hc')

theorem after_suffix_of_comment {start : Start} {s : List Char} {tag : Tag}
    (h : start.comment s = .ok tag) : tag.after <:+ s := by
  unfold comment at h
  split at h
  · next body =>
      dsimp only at h
      split at h
      · cases h
      · next inside mark after he =>
          cases h
          exact (after_suffix_of_longEnd? he).trans (List.suffix_append ['-', '-'] body)
  · exact after_suffix_of_close h

theorem after_suffix_of_tag {start : Start} {s : List Char} {tag : Tag}
    (h : start.tag s = .ok tag) : tag.after <:+ s := by
  unfold Start.tag at h
  split at h
  · cases h
  · next s =>
      exact ((after_suffix_of_close h).trans (trimMark_suffix _ s)).trans (List.suffix_cons _ s)
  · next s => exact (after_suffix_of_comment h).trans (List.suffix_cons _ s)
  · next s => exact (after_suffix_of_close h).trans (List.suffix_cons _ s)
  · next s => exact (after_suffix_of_close h).trans (List.suffix_cons _ s)
  · next s => exact (after_suffix_of_close h).trans (List.suffix_cons _ s)
  · exact after_suffix_of_close h

end Start

theorem after_suffix_of_ofCut {lead rest : List Char} {tag : Tag}
    (h : ofCut lead rest = .ok tag) : tag.after <:+ rest := by
  unfold ofCut at h
  split at h
  · cases h
    exact List.suffix_rfl
  · exact (Start.after_suffix_of_tag h).trans (Start.trimMark_suffix _ rest)

/-- The text after a tag ends the text the tag was found in. -/
theorem after_suffix {s : List Char} {tag : Tag} (h : first? s = .ok (some tag)) :
    tag.after <:+ s := by
  obtain ⟨lead, rest, hc, ht⟩ := first?_eq_some_iff.1 h
  exact (after_suffix_of_ofCut ht).trans (Text.suffix_of_cut? hc)

/-- The text after a tag is shorter than the text the tag was found in. -/
theorem length_after_lt {s : List Char} {tag : Tag} (h : first? s = .ok (some tag)) :
    tag.after.length < s.length := by
  obtain ⟨lead, rest, hc, ht⟩ := first?_eq_some_iff.1 h
  have hlt := Text.length_lt_of_cut? hc (by decide)
  exact Nat.lt_of_le_of_lt (after_suffix_of_ofCut ht).length_le hlt

/-! ## All tags -/

/-- The tags of a text in order, and how the text goes on after the last of them:
with text, or with a tag that has a fault. -/
def scan (s : List Char) : List Tag × Except SyntaxError (List Char) :=
  match _h : first? s with
  | .error e => ([], .error e)
  | .ok none => ([], .ok s)
  | .ok (some tag) =>
      let (tags, rest) := scan tag.after
      (tag :: tags, rest)
termination_by s.length
decreasing_by exact length_after_lt (by assumption)

theorem scan_of_error {s : List Char} {e : SyntaxError} (h : first? s = .error e) :
    scan s = ([], .error e) := by
  rw [scan]
  split <;> simp_all

theorem scan_of_none {s : List Char} (h : first? s = .ok none) : scan s = ([], .ok s) := by
  rw [scan]
  split <;> simp_all

theorem scan_of_some {s : List Char} {tag : Tag} (h : first? s = .ok (some tag)) :
    scan s = (tag :: (scan tag.after).1, (scan tag.after).2) := by
  rw [scan]
  split <;> simp_all

end Tag

end SqlTemplates
