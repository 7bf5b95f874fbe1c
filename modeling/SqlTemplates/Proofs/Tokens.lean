import SqlTemplates.Proofs.Marks
import SqlTemplates.Template.Token

/-!
# Tokens as they are written

`Token.Written` says how a token is written: a name as itself, a literal between two
quotes that do not end it early, a pair with its equals sign.  Reading a token and
writing it are inverse to each other.

* A token that is written is read, up to the text after it (`Token.next?_written`).  That text
  must start with a blank, if there is any, unless the token ends in the quote of a pair
  (`Token.MayFollow`).
* A token that is read was written at the start of the text (`Token.written_of_next?`).

So the tokens of a text are those that are written in it with blanks between them
(`Token.Spaced`, `Token.tokens_eq_ok_iff`).  A row of tokens, each with blanks before it, is read
as these tokens (`Token.tokens_row`), and every token of a tag stands in its content
(`Token.written_of_mem_tokens`).
-/

namespace SqlTemplates

namespace Text

theorem trimStart_append_of_forall {gap : List Char} (h : ∀ c ∈ gap, isBlank c = true)
    (s : List Char) : trimStart (gap ++ s) = trimStart s :=
  List.dropWhile_append_of_pos h

theorem trim_cons_of_isBlank {c : Char} (h : isBlank c = true) (s : List Char) :
    trim (c :: s) = trim s := by
  rw [trim, trim, trimStart_cons, if_pos h]

/-- Of blanks alone nothing is left. -/
theorem trimStart_of_forall {gap : List Char} (h : ∀ c ∈ gap, isBlank c = true) :
    trimStart gap = [] := by
  have hgap := trimStart_append_of_forall h []
  rwa [List.append_nil] at hgap

theorem trimEnd_of_forall {gap : List Char} (h : ∀ c ∈ gap, isBlank c = true) :
    trimEnd gap = [] := by
  have hreverse : ∀ c ∈ gap.reverse, isBlank c = true := fun c hc => h c (List.mem_reverse.1 hc)
  rw [trimEnd, ← trimStart, trimStart_of_forall hreverse, List.reverse_nil]

/-- A text is what trimming leaves of it, with blanks on both sides. -/
theorem exists_append_trim_append (s : List Char) :
    ∃ lead trail, (∀ c ∈ lead, isBlank c = true) ∧ (∀ c ∈ trail, isBlank c = true) ∧
      s = lead ++ (trim s ++ trail) := by
  obtain ⟨trail, htrail, hend⟩ := exists_trimEnd_append (trimStart s)
  refine ⟨s.takeWhile isBlank, trail, List.all_eq_true.1 List.all_takeWhile,
    List.all_eq_true.1 htrail, ?_⟩
  rw [trim, hend, takeWhile_append_trimStart]

end Text

namespace Token

/-! ## Quoted texts -/

/-- The text can stand between two of these quotes: a quote in it has a backslash before
it that keeps it from ending the text, and so has the character after the text. -/
inductive Quotable (quote : Char) : List Char → Prop
  | nil : Quotable quote []
  | plain {c : Char} {text : List Char} :
      c ≠ quote → c ≠ '\\' → Quotable quote text → Quotable quote (c :: text)
  /-- A backslash goes with the character after it, whatever that is. -/
  | escape {c : Char} {text : List Char} : Quotable quote text → Quotable quote ('\\' :: c :: text)

/-- The text between two quotes. -/
def inQuotes (quote : Char) (text : List Char) : List Char := quote :: (text ++ [quote])

theorem isQuote_ne_slash {quote : Char} (h : isQuote quote = true) : quote ≠ '\\' := by
  rintro rfl
  exact absurd h (by decide)

theorem Quotable.of_not_mem {quote : Char} {text : List Char} (hquote : quote ∉ text)
    (hslash : '\\' ∉ text) : Quotable quote text := by
  induction text with
  | nil => exact .nil
  | cons c text ih =>
      simp only [List.mem_cons, not_or] at hquote hslash
      exact .plain (Ne.symm hquote.1) (Ne.symm hslash.1) (ih hquote.2 hslash.2)

/-- After a backslash one character is skipped. -/
theorem closeQuote?_escaped (quote c : Char) (s : List Char) :
    closeQuote? quote true (c :: s) =
      (closeQuote? quote false s).map fun (text, rest) => (c :: text, rest) := by
  simp [closeQuote?]

theorem closeQuote?_plain {quote c : Char} (hquote : c ≠ quote) (s : List Char) :
    closeQuote? quote false (c :: s) =
      (closeQuote? quote (c = '\\') s).map fun (text, rest) => (c :: text, rest) := by
  simp [closeQuote?, hquote]

/-- A quoted text ends at its own quote. -/
theorem closeQuote?_append {quote : Char} {text : List Char} (hquote : quote ≠ '\\')
    (h : Quotable quote text) (rest : List Char) :
    closeQuote? quote false (text ++ quote :: rest) = some (text, rest) := by
  induction h with
  | nil => simp [closeQuote?]
  | plain hc hslash _ ih =>
      rw [List.cons_append, closeQuote?_plain hc, decide_eq_false hslash, ih]
      rfl
  | escape _ ih =>
      rw [List.cons_append, List.cons_append, closeQuote?_plain (Ne.symm hquote),
        decide_eq_true rfl, closeQuote?_escaped, ih]
      rfl

/-- What stands before the closing quote can be quoted. -/
theorem quotable_of_closeQuote? {quote : Char} (hquote : quote ≠ '\\') :
    ∀ {s text rest : List Char}, closeQuote? quote false s = some (text, rest) →
      Quotable quote text ∧ s = text ++ quote :: rest
  | [], _, _, h => by cases h
  | c :: s, text, rest, h => by
      by_cases hc : c = quote
      · subst hc
        rw [closeQuote?, if_pos ⟨rfl, rfl⟩] at h
        cases h
        exact ⟨.nil, rfl⟩
      · rw [closeQuote?_plain hc] at h
        obtain ⟨⟨text', rest'⟩, htail, he⟩ := Option.map_eq_some_iff.1 h
        cases he
        by_cases hslash : c = '\\'
        · subst hslash
          cases s with
          | nil => cases htail
          | cons d s =>
              rw [decide_eq_true rfl, closeQuote?_escaped] at htail
              obtain ⟨⟨text, rest⟩, htail, he⟩ := Option.map_eq_some_iff.1 htail
              cases he
              obtain ⟨hq, rfl⟩ := quotable_of_closeQuote? hquote htail
              exact ⟨.escape hq, rfl⟩
        · rw [decide_eq_false hslash] at htail
          obtain ⟨hq, rfl⟩ := quotable_of_closeQuote? hquote htail
          exact ⟨.plain hc hslash hq, rfl⟩

/-- A text can be quoted just if the quote after it is the one that closes it. -/
theorem quotable_iff {quote : Char} (hquote : quote ≠ '\\') {text : List Char} :
    Quotable quote text ↔ closeQuote? quote false (text ++ [quote]) = some (text, []) :=
  ⟨fun h => closeQuote?_append hquote h [], fun h => (quotable_of_closeQuote? hquote h).1⟩

/-! ## Written tokens -/

/-- The word can be written as a name. -/
structure IsWord (word : List Char) : Prop where
  ne_nil : word ≠ []
  unquoted : ∀ c ∈ word.head?, isQuote c = false
  solid : ∀ c ∈ word, isWordChar c = true

/-- The right side of a pair as it is written: a word or a quoted text. -/
inductive IsValue : List Char → Prop
  | word {value : List Char} : IsWord value → IsValue value
  | quoted {quote : Char} {text : List Char} :
      isQuote quote = true → Quotable quote text → IsValue (inQuotes quote text)

/-- How a token is written. -/
inductive Written : Token → List Char → Prop
  | name {word : List Char} : IsWord word → Written (.name word) word
  | literal {quote : Char} {text : List Char} :
      isQuote quote = true → Quotable quote text → Written (.literal text) (inQuotes quote text)
  | pair {key value : List Char} :
      IsWord key → IsValue value → Written (.pair key value) (key ++ '=' :: value)

theorem isBlank_of_isWordChar {c : Char} (h : isWordChar c = true) : Text.isBlank c = false := by
  simp only [isWordChar, Bool.and_eq_true, Bool.not_eq_true'] at h
  exact h.1

theorem isWordChar_of_isBlank {c : Char} (h : Text.isBlank c = true) : isWordChar c = false := by
  simp [isWordChar, h]

theorem isBlank_of_isQuote {c : Char} (h : isQuote c = true) : Text.isBlank c = false := by
  simp only [isQuote, Bool.or_eq_true, decide_eq_true_eq] at h
  rcases h with rfl | rfl <;> decide

/-- A word ends where something else follows. -/
theorem span_word {word rest : List Char} (h : ∀ c ∈ word, isWordChar c = true)
    (hrest : ∀ c ∈ rest.head?, isWordChar c = false) :
    (word ++ rest).takeWhile isWordChar = word ∧ (word ++ rest).dropWhile isWordChar = rest := by
  rw [List.takeWhile_append_of_pos h, List.dropWhile_append_of_pos h]
  cases rest with
  | nil => simp
  | cons c rest => simp [hrest c rfl]

theorem IsWord.exists_cons {word : List Char} (h : IsWord word) :
    ∃ c rest, word = c :: rest ∧ isQuote c = false := by
  obtain ⟨c, rest, rfl⟩ := List.exists_cons_of_ne_nil h.ne_nil
  exact ⟨c, rest, rfl, h.unquoted c rfl⟩

/-- A text in quotes is read as it is, up to what follows. -/
theorem pairValue_quoted {quote : Char} {text : List Char} (hquote : isQuote quote = true)
    (h : Quotable quote text) (rest : List Char) :
    pairValue (inQuotes quote text ++ rest) = .ok (inQuotes quote text, rest) := by
  have hclose := closeQuote?_append (isQuote_ne_slash hquote) h rest
  simp [inQuotes, pairValue, hquote, hclose]

/-- The token is a pair whose value stands in quotes. -/
def QuotedPair : Token → Prop
  | .pair _ value => ∃ c ∈ value.head?, isQuote c = true
  | .name _ | .literal _ => False

/-- The text can stand right after the token: it is empty or starts with a blank.  After the
closing quote of a pair any text can stand. -/
def MayFollow (token : Token) (rest : List Char) : Prop :=
  token.QuotedPair ∨ ∀ c ∈ rest.head?, Text.isBlank c = true

theorem isWordChar_of_mayFollow {token : Token} (h : ¬ token.QuotedPair) {rest : List Char}
    (hrest : MayFollow token rest) : ∀ c ∈ rest.head?, isWordChar c = false :=
  fun c hc => isWordChar_of_isBlank (hrest.resolve_left h c hc)

/-- The value of a pair is read as it is, up to what follows. -/
theorem pairValue_append {key value : List Char} (h : IsValue value) {rest : List Char}
    (hrest : MayFollow (.pair key value) rest) : pairValue (value ++ rest) = .ok (value, rest) := by
  cases h with
  | word h =>
      have hbare : ¬ (Token.pair key value).QuotedPair := by
        rintro ⟨c, hc, hquote⟩
        rw [h.unquoted c hc] at hquote
        cases hquote
      obtain ⟨htake, hdrop⟩ := span_word h.solid (isWordChar_of_mayFollow hbare hrest)
      obtain ⟨c, value, rfl, hc⟩ := h.exists_cons
      rw [List.cons_append] at htake hdrop ⊢
      rw [pairValue]
      simp only [hc, htake, hdrop]
      rfl
  | quoted hquote h => exact pairValue_quoted hquote h rest

theorem startsValue_append {value : List Char} (h : IsValue value) (rest : List Char) :
    startsValue (value ++ rest) = true := by
  cases h with
  | word h =>
      obtain ⟨c, value, rfl, -⟩ := h.exists_cons
      exact h.solid c (List.mem_cons_self ..)
  | @quoted quote text hquote h =>
      simp only [isQuote, Bool.or_eq_true, decide_eq_true_eq] at hquote
      rcases hquote with rfl | rfl <;> rfl

/-! ## Reading what was written -/

/-- A written token is read, up to the text after it. -/
theorem next?_written {token : Token} {text : List Char} (h : Written token text)
    {rest : List Char} (hrest : MayFollow token rest) :
    next? (text ++ rest) = .ok (some (token, Text.trimStart rest)) := by
  cases h with
  | name h =>
      obtain ⟨htake, hdrop⟩ := span_word h.solid (isWordChar_of_mayFollow id hrest)
      obtain ⟨c, word, rfl, hc⟩ := h.exists_cons
      rw [List.cons_append] at htake hdrop ⊢
      rw [next?, if_neg (by rw [hc]; exact Bool.false_ne_true)]
      simp only [htake, hdrop]
      split
      · exact absurd (hrest.resolve_left id '=' rfl) (by decide)
      · rfl
  | @literal quote text hquote h =>
      have hblank := hrest.resolve_left id
      have hclose := closeQuote?_append (isQuote_ne_slash hquote) h rest
      have hsolid : startsSolid rest = false := by
        cases rest with
        | nil => rfl
        | cons c rest => simp [startsSolid, hblank c rfl]
      simp [inQuotes, next?, hquote, hclose, hsolid]
  | @pair key value hkey hvalue =>
      have hequals : ∀ c ∈ ('=' :: (value ++ rest)).head?, isWordChar c = false := by
        rintro c ⟨⟩
        decide
      obtain ⟨htake, hdrop⟩ := span_word hkey.solid hequals
      obtain ⟨c, key, rfl, hc⟩ := hkey.exists_cons
      rw [List.cons_append] at htake hdrop
      rw [List.append_assoc, List.cons_append, List.cons_append, next?,
        if_neg (by rw [hc]; exact Bool.false_ne_true)]
      simp only [htake, hdrop, startsValue_append hvalue, pairValue_append hvalue hrest]
      rfl

theorem IsWord.solid_text {word : List Char} (h : IsWord word) : Text.Solid word :=
  .of_forall fun c hc => isBlank_of_isWordChar (h.solid c hc)

theorem solid_inQuotes {quote : Char} (h : isQuote quote = true) (text : List Char) :
    Text.Solid (inQuotes quote text) where
  starts := by
    rintro c ⟨⟩
    exact isBlank_of_isQuote h
  ends := by
    intro c hc
    rw [inQuotes, ← List.cons_append, List.getLast?_concat] at hc
    cases hc
    exact isBlank_of_isQuote h

theorem IsValue.solid {value : List Char} (h : IsValue value) :
    value ≠ [] ∧ Text.Solid value := by
  cases h with
  | word h => exact ⟨h.ne_nil, h.solid_text⟩
  | quoted hquote _ => exact ⟨List.cons_ne_nil _ _, solid_inQuotes hquote _⟩

/-- There is nothing to trim on a written token. -/
theorem Written.solid {token : Token} {text : List Char} (h : Written token text) :
    text ≠ [] ∧ Text.Solid text := by
  cases h with
  | name h => exact ⟨h.ne_nil, h.solid_text⟩
  | literal hquote _ => exact ⟨List.cons_ne_nil _ _, solid_inQuotes hquote _⟩
  | @pair key value hkey hvalue =>
      refine ⟨List.append_ne_nil_of_right_ne_nil key (List.cons_ne_nil '=' value), ?_⟩
      exact hkey.solid_text.append_cons hkey.ne_nil hvalue.solid.2 hvalue.solid.1 '='

/-- A written token is the first and only token of its text. -/
theorem first?_written {token : Token} {text : List Char} (h : Written token text) :
    first? text = .ok (some (token, [])) := by
  have hnext : next? (text ++ []) = .ok (some (token, [])) :=
    next?_written h (.inr fun c hc => nomatch hc)
  rw [first?, Text.trim_of_solid h.solid.2, ← hnext, List.append_nil]

/-! ## What is read was written -/

theorem span_isWordChar (s : List Char) :
    (∀ c ∈ s.takeWhile isWordChar, isWordChar c = true) ∧
      ∀ c ∈ (s.dropWhile isWordChar).head?, isWordChar c = false := by
  refine ⟨fun c hc => List.all_eq_true.1 List.all_takeWhile c hc, fun c hc => ?_⟩
  have h := List.head?_dropWhile_not isWordChar s
  rw [Option.mem_def.1 hc] at h
  simpa using h

/-- A name or a key does not start with an equals sign. -/
theorem isWordChar_of_next? {c : Char} {s tail : List Char} {token : Token}
    (hquote : isQuote c = false) (hblank : Text.isBlank c = false)
    (h : next? (c :: s) = .ok (some (token, tail))) : isWordChar c = true := by
  by_cases hc : c = '='
  · subst hc
    have hequals : isWordChar '=' = false := by decide
    simp [next?, hquote, hequals] at h
  · simp [isWordChar, hblank, hc]

theorem isWord_takeWhile {c : Char} (s : List Char) (hquote : isQuote c = false)
    (hc : isWordChar c = true) : IsWord ((c :: s).takeWhile isWordChar) := by
  refine ⟨?_, ?_, (span_isWordChar (c :: s)).1⟩ <;> rw [List.takeWhile_cons_of_pos hc]
  · exact List.cons_ne_nil _ _
  · rintro d ⟨⟩
    exact hquote

/-- A value that is read was written at the start of the text. -/
theorem isValue_of_pairValue {s value rest : List Char} (hs : startsValue s = true)
    (h : pairValue s = .ok (value, rest)) : IsValue value ∧ s = value ++ rest ∧
      ((∃ c ∈ value.head?, isQuote c = true) ∨ ∀ c ∈ rest.head?, isWordChar c = false) := by
  cases s with
  | nil => cases hs
  | cons c s =>
      rw [pairValue] at h
      split at h
      · next hquote =>
          split at h
          · cases h
          · next text rest hclose =>
              cases h
              obtain ⟨hq, rfl⟩ := quotable_of_closeQuote? (isQuote_ne_slash hquote) hclose
              exact ⟨.quoted hquote hq, by simp, .inl ⟨c, rfl, hquote⟩⟩
      · next hquote =>
          cases h
          exact ⟨.word (isWord_takeWhile s (by simpa using hquote) hs),
            List.takeWhile_append_dropWhile.symm, .inr (span_isWordChar (c :: s)).2⟩

section

variable {c : Char} {s tail : List Char} {token : Token}

/-- A literal that is read was written at the start of the text, up to a blank. -/
theorem written_of_next?_quote (hquote : isQuote c = true)
    (h : next? (c :: s) = .ok (some (token, tail))) :
    ∃ text rest, Written token text ∧ c :: s = text ++ rest ∧ tail = Text.trimStart rest ∧
      ∀ d ∈ rest.head?, isWordChar d = false := by
  rw [next?, if_pos hquote] at h
  split at h
  · cases h
  · next text rest hclose =>
      split at h
      · cases h
      · next hsolid =>
          cases h
          obtain ⟨hq, rfl⟩ := quotable_of_closeQuote? (isQuote_ne_slash hquote) hclose
          refine ⟨_, rest, .literal hquote hq, by simp [inQuotes], rfl, ?_⟩
          intro d hd
          obtain ⟨rest, rfl⟩ := List.head?_eq_some_iff.1 hd
          exact isWordChar_of_isBlank (by simpa [startsSolid] using hsolid)

/-- A name or a pair that is read was written at the start of the text. -/
theorem written_of_next?_word (hquote : isQuote c = false) (hblank : Text.isBlank c = false)
    (h : next? (c :: s) = .ok (some (token, tail))) :
    ∃ text rest, Written token text ∧ c :: s = text ++ rest ∧ tail = Text.trimStart rest ∧
      (token.QuotedPair ∨ ∀ d ∈ rest.head?, isWordChar d = false) := by
  have hword := isWord_takeWhile s hquote (isWordChar_of_next? hquote hblank h)
  have hspan := List.takeWhile_append_dropWhile (p := isWordChar) (l := c :: s)
  rw [next?, if_neg (by rw [hquote]; exact Bool.false_ne_true)] at h
  dsimp only at h
  split at h
  · next rhs hdrop =>
      rw [hdrop] at hspan
      split at h
      · cases h
      · next hfull =>
          have hstarts : startsValue rhs = true := by
            cases hv : startsValue rhs with
            | true => rfl
            | false => exact absurd (by rw [hv]; simp) hfull
          cases hv : pairValue rhs with
          | error e => rw [hv] at h; cases h
          | ok found =>
              obtain ⟨value, rest⟩ := found
              rw [hv] at h
              cases h
              obtain ⟨hvalue, rfl, hrest⟩ := isValue_of_pairValue hstarts hv
              refine ⟨_, rest, .pair hword hvalue, ?_, rfl, hrest⟩
              rw [List.append_assoc, List.cons_append, hspan]
  · cases h
    exact ⟨_, _, .name hword, hspan.symm, rfl, .inr (span_isWordChar (c :: s)).2⟩

/-- A token that is read was written at the start of the text. -/
theorem written_of_next? (hs : Text.StartsSolid s) (h : next? s = .ok (some (token, tail))) :
    ∃ text rest, Written token text ∧ s = text ++ rest ∧ tail = Text.trimStart rest ∧
      (token.QuotedPair ∨ ∀ d ∈ rest.head?, isWordChar d = false) := by
  cases s with
  | nil => cases h
  | cons c s =>
      cases hquote : isQuote c with
      | true =>
          obtain ⟨text, rest, hwritten, htext, htail, hstop⟩ := written_of_next?_quote hquote h
          exact ⟨text, rest, hwritten, htext, htail, .inr hstop⟩
      | false => exact written_of_next?_word hquote (hs c rfl) h

end

/-- There is a token wherever there is text. -/
theorem eq_nil_of_next? {s : List Char} (h : next? s = .ok none) : s = [] := by
  cases s with
  | nil => rfl
  | cons c s =>
      rw [next?] at h
      split at h
      · split at h
        · cases h
        · split at h <;> cases h
      · dsimp only at h
        split at h
        · next rhs _ =>
            split at h
            · cases h
            · cases hv : pairValue rhs <;> rw [hv] at h <;> cases h
        · cases h

/-! ## The tokens of a text -/

/-- The tokens of a text, with blanks before them and after the last one.  A token ends where a
blank or the end of the text follows, or with the closing quote of a pair. -/
inductive Spaced : List Token → List Char → Prop
  | nil {gap : List Char} : (∀ c ∈ gap, Text.isBlank c = true) → Spaced [] gap
  | cons {gap text rest : List Char} {token : Token} {tokens : List Token} :
      (∀ c ∈ gap, Text.isBlank c = true) → Written token text → MayFollow token rest →
      Spaced tokens rest → Spaced (token :: tokens) (gap ++ (text ++ rest))

namespace Spaced

variable {tokens : List Token} {s gap : List Char}

/-- A token may stand right at the start of a text. -/
theorem start {token : Token} {text rest : List Char} (hwritten : Written token text)
    (hfollow : MayFollow token rest) (h : Spaced tokens rest) :
    Spaced (token :: tokens) (text ++ rest) :=
  cons (fun _ hc => absurd hc List.not_mem_nil) hwritten hfollow h

theorem blanks_append (hgap : ∀ c ∈ gap, Text.isBlank c = true) (h : Spaced tokens s) :
    Spaced tokens (gap ++ s) := by
  cases h with
  | nil hs => exact .nil fun c hc => (List.mem_append.1 hc).elim (hgap c) (hs c)
  | cons hs hwritten hfollow hrest =>
      rw [← List.append_assoc]
      exact .cons (fun c hc => (List.mem_append.1 hc).elim (hgap c) (hs c)) hwritten hfollow hrest

theorem append_blanks (hgap : ∀ c ∈ gap, Text.isBlank c = true) (h : Spaced tokens s) :
    Spaced tokens (s ++ gap) := by
  induction h with
  | nil hs => exact .nil fun c hc => (List.mem_append.1 hc).elim (hs c) (hgap c)
  | @cons lead text rest token tokens hs hwritten hfollow _ ih =>
      rw [List.append_assoc, List.append_assoc]
      refine .cons hs hwritten (hfollow.imp_right fun hblank c hc => ?_) ih
      cases rest with
      | nil => exact hgap c (List.mem_of_mem_head? hc)
      | cons d rest => exact hblank c hc

theorem trimStart (h : Spaced tokens s) : Spaced tokens (Text.trimStart s) := by
  cases h with
  | nil hs =>
      rw [Text.trimStart_of_forall hs]
      exact .nil fun _ hc => absurd hc List.not_mem_nil
  | @cons lead text rest token tokens hs hwritten hfollow hrest =>
      have hstarts := hwritten.solid.2.starts.append hwritten.solid.1 rest
      rw [Text.trimStart_append_of_forall hs, Text.trimStart_of_startsSolid hstarts]
      exact .start hwritten hfollow hrest

theorem trimEnd (h : Spaced tokens s) : Spaced tokens (Text.trimEnd s) := by
  induction h with
  | nil hs =>
      rw [Text.trimEnd_of_forall hs]
      exact .nil fun _ hc => absurd hc List.not_mem_nil
  | @cons lead text rest token tokens hs hwritten hfollow _ ih =>
      have hends := hwritten.solid.2.ends.append hwritten.solid.1 lead
      rw [← List.append_assoc, Text.trimEnd_append hends, List.append_assoc]
      refine .cons hs hwritten (hfollow.imp_right fun hblank c hc => hblank c ?_) ih
      obtain ⟨blanks, hrest⟩ := Text.trimEnd_isPrefix rest
      obtain ⟨tail, htail⟩ := List.head?_eq_some_iff.1 hc
      rw [← hrest, htail]
      rfl

/-- The tokens of a text are read in order. -/
theorem exists_tokensFrom (h : Spaced tokens s) :
    ∃ found, tokensFrom (Text.trimStart s) = .ok found ∧ found.map Prod.fst = tokens := by
  induction h with
  | nil hs =>
      rw [Text.trimStart_of_forall hs]
      exact ⟨[], tokensFrom_of_none rfl, rfl⟩
  | @cons lead text rest token tokens hs hwritten hfollow _ ih =>
      obtain ⟨found, hfound, hmap⟩ := ih
      have hstarts := hwritten.solid.2.starts.append hwritten.solid.1 rest
      refine ⟨(token, Text.trimStart rest) :: found, ?_, by rw [List.map_cons, hmap]⟩
      rw [Text.trimStart_append_of_forall hs, Text.trimStart_of_startsSolid hstarts,
        tokensFrom_of_some (next?_written hwritten hfollow), hfound]
      rfl

end Spaced

theorem next?_equals (s : List Char) :
    next? ('=' :: s) = .error (.atEnd .pairExpected ('=' :: s)) := by
  have hword : isWordChar '=' = false := by decide
  have hquote : isQuote '=' = false := by decide
  simp [next?, hword, hquote]

/-- Only an equals sign ends a word as a blank does, and no token starts with it. -/
theorem isBlank_of_tokensFrom {rest : List Char} {found : List (Token × List Char)}
    (hstop : ∀ c ∈ rest.head?, isWordChar c = false)
    (h : tokensFrom (Text.trimStart rest) = .ok found) :
    ∀ c ∈ rest.head?, Text.isBlank c = true := by
  intro c hc
  obtain ⟨tail, rfl⟩ := List.head?_eq_some_iff.1 hc
  by_cases hequals : c = '='
  · subst hequals
    have hsolid : Text.StartsSolid ('=' :: tail) := by
      rintro d ⟨⟩
      decide
    rw [Text.trimStart_of_startsSolid hsolid, tokensFrom_of_error (next?_equals tail)] at h
    cases h
  · simpa [isWordChar, hequals] using hstop c rfl

/-- The tokens that are read are the tokens of the text. -/
theorem spaced_of_tokensFrom {s : List Char} (hs : Text.StartsSolid s) :
    ∀ {found : List (Token × List Char)}, tokensFrom s = .ok found →
      Spaced (found.map Prod.fst) s := by
  induction s using tokensFrom.induct with
  | case1 s e hn =>
      intro found h
      rw [tokensFrom_of_error hn] at h
      cases h
  | case2 s hn =>
      intro found h
      rw [tokensFrom_of_none hn] at h
      cases h
      rw [eq_nil_of_next? hn]
      exact .nil fun _ hc => absurd hc List.not_mem_nil
  | case3 s token tail hn ih =>
      intro found h
      obtain ⟨text, rest, hwritten, rfl, rfl, hstop⟩ := written_of_next? hs hn
      rw [tokensFrom_of_some hn] at h
      cases ht : tokensFrom (Text.trimStart rest) with
      | error e => rw [ht] at h; cases h
      | ok found =>
          rw [ht] at h
          cases h
          have hblanks : ∀ c ∈ rest.takeWhile Text.isBlank, Text.isBlank c = true :=
            List.all_eq_true.1 List.all_takeWhile
          have htail := (ih (Text.startsSolid_trimStart rest) ht).blanks_append hblanks
          rw [Text.takeWhile_append_trimStart] at htail
          exact .start hwritten (hstop.imp_right fun hrest => isBlank_of_tokensFrom hrest ht) htail

/-- A text has the tokens that are written in it with blanks between them, and no blank is needed
after the closing quote of a pair. -/
theorem tokens_eq_ok_iff {s : List Char} {tokens : List Token} :
    Token.tokens s = .ok tokens ↔ Spaced tokens s := by
  rw [Token.tokens, tokenize]
  constructor
  · intro h
    cases ht : tokensFrom (Text.trim s) with
    | error e => rw [ht] at h; cases h
    | ok found =>
        rw [ht] at h
        cases h
        obtain ⟨lead, trail, hlead, htrail, hs⟩ := Text.exists_append_trim_append s
        rw [hs]
        exact ((spaced_of_tokensFrom (Text.solid_trim s).starts ht).append_blanks
          htrail).blanks_append hlead
  · intro h
    obtain ⟨found, hfound, hmap⟩ := h.trimStart.trimEnd.exists_tokensFrom
    rw [← Text.trim, Text.trimStart_of_startsSolid (Text.solid_trim s).starts] at hfound
    rw [hfound, Except.map, hmap]

/-! ## Rows of tokens -/

/-- Tokens in a row, each with blanks before it. -/
inductive Row : List Token → List Char → Prop
  | nil : Row [] []
  | cons {token : Token} {gap text : List Char} {tokens : List Token} {rest : List Char} :
      gap ≠ [] → (∀ c ∈ gap, Text.isBlank c = true) → Written token text → Row tokens rest →
      Row (token :: tokens) (gap ++ (text ++ rest))

theorem Row.cons_space {token : Token} {text : List Char} (h : Written token text)
    {tokens : List Token} {rest : List Char} (hrow : Row tokens rest) :
    Row (token :: tokens) (' ' :: (text ++ rest)) := by
  have hspace : ∀ c ∈ [' '], Text.isBlank c = true := fun c hc => by
    obtain rfl := List.mem_singleton.1 hc
    decide
  exact .cons (List.cons_ne_nil ' ' []) hspace h hrow

theorem Row.startsBlank {tokens : List Token} {s : List Char} (h : Row tokens s) :
    ∀ c ∈ s.head?, Text.isBlank c = true := by
  cases h with
  | nil => exact fun c hc => nomatch hc
  | @cons _ gap _ _ _ hne hgap _ _ =>
      obtain ⟨d, gap, rfl⟩ := List.exists_cons_of_ne_nil hne
      rintro c ⟨⟩
      exact hgap d (List.mem_cons_self ..)

/-- The tokens of a row are those of its text. -/
theorem Row.spaced {tokens : List Token} {s : List Char} (h : Row tokens s) :
    Spaced tokens s := by
  induction h with
  | nil => exact .nil fun _ hc => absurd hc List.not_mem_nil
  | cons _ hgap hwritten hrow ih => exact .cons hgap hwritten (.inr hrow.startsBlank) ih

/-- Written tokens with blanks between them are read as these tokens. -/
theorem tokens_row {token : Token} {text : List Char} (hwritten : Written token text)
    {tokens : List Token} {s : List Char} (h : Row tokens s) :
    Token.tokens (text ++ s) = .ok (token :: tokens) :=
  tokens_eq_ok_iff.2 (.start hwritten (.inr h.startsBlank) h.spaced)

theorem tokens_written {token : Token} {text : List Char} (h : Written token text) :
    Token.tokens text = .ok [token] := by
  have htokens := tokens_row h .nil
  rwa [List.append_nil] at htokens

/-! ## The text of a tag -/

/-- Blanks before the first token do not count. -/
theorem tokens_cons_of_isBlank {c : Char} (h : Text.isBlank c = true) (s : List Char) :
    tokens (c :: s) = tokens s := by
  rw [tokens, tokens, tokenize, tokenize, Text.trim_cons_of_isBlank h]

theorem Spaced.written_of_mem {tokens : List Token} {s : List Char} (h : Spaced tokens s) :
    ∀ token ∈ tokens, ∃ text, Written token text ∧ text <:+: s := by
  induction h with
  | nil _ => exact fun _ hm => absurd hm List.not_mem_nil
  | @cons gap text rest token tokens _ hwritten _ _ ih =>
      intro other hm
      rcases List.mem_cons.1 hm with rfl | hm
      · exact ⟨text, hwritten, gap, rest, List.append_assoc gap text rest⟩
      · obtain ⟨text', hwritten', hpart⟩ := ih other hm
        exact ⟨text', hwritten', hpart.trans
          ((List.suffix_append text rest).trans (List.suffix_append gap _)).isInfix⟩

/-- Every token of a tag was written in its content. -/
theorem written_of_mem_tokens {s : List Char} {tokens : List Token}
    (h : Token.tokens s = .ok tokens) :
    ∀ token ∈ tokens, ∃ text, Written token text ∧ text <:+: s :=
  (tokens_eq_ok_iff.1 h).written_of_mem

/-- A tag with one name holds nothing else but blanks. -/
theorem trim_of_tokens_name {s word : List Char} (h : tokens s = .ok [.name word]) :
    Text.trim s = word := by
  cases tokens_eq_ok_iff.1 h with
  | cons hgap hwritten _ hrest =>
      cases hwritten with
      | name hword =>
          cases hrest with
          | nil hblanks =>
              have hsolid := hword.solid_text
              rw [Text.trim, Text.trimStart_append_of_forall hgap,
                Text.trimStart_of_startsSolid (hsolid.starts.append hword.ne_nil _),
                Text.trimEnd_append hsolid.ends, Text.trimEnd_of_forall hblanks, List.append_nil]

end Token

end SqlTemplates
