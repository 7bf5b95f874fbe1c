import SqlTemplates.Text.Blank
import SqlTemplates.Template.Fault

/-!
# Tokens

The content of a tag is a row of tokens with blanks between them.

* A name is a run of characters other than blanks and `=`.
* A literal is a text in single or double quotes.  Its text is kept as it is
  written; a backslash only keeps the quote after it from ending the literal.
* A pair is a name, `=`, and a name or a literal, with no blank around the `=`.
  Its value keeps its quotes.

`Token.next?` reads a token and gives the text after it, trimmed.  That text is
shorter than the one before (`Token.length_next_lt`), so `Token.tokenize` ends.
-/

namespace SqlTemplates

/-- A token of a tag. -/
inductive Token
  | name (word : List Char)
  | literal (text : List Char)
  | pair (key value : List Char)
deriving DecidableEq, Repr

namespace Token

/-- The word, the text without its quotes, or the value of a pair. -/
def value : Token → List Char
  | .name word => word
  | .literal text => text
  | .pair _ value => value

/-! ## Strings and words -/

/-- The character opens and closes a literal. -/
def isQuote (c : Char) : Bool := c = '\'' || c = '"'

/-- The character can stand in a name. -/
def isWordChar (c : Char) : Bool := !Text.isBlank c && c ≠ '='

/-- The text up to the closing quote, and the text after it.  `escaped` says that a
backslash stands before. -/
def closeQuote? (quote : Char) : Bool → List Char → Option (List Char × List Char)
  | _, [] => none
  | escaped, c :: s =>
      if c = quote ∧ escaped = false then some ([], s)
      else (closeQuote? quote (c = '\\' && !escaped) s).map fun (text, rest) => (c :: text, rest)

/-- The value of a pair at the start of a text, with its quotes if it has any, and
the text after it. -/
def pairValue (s : List Char) : Except SyntaxError (List Char × List Char) :=
  match s with
  | [] => .ok ([], [])
  | c :: rest =>
      if isQuote c then
        match closeQuote? c false rest with
        | none => .error (.atEnd .unterminatedString s)
        | some (text, rest) => .ok (c :: text ++ [c], rest)
      else .ok (s.takeWhile isWordChar, s.dropWhile isWordChar)

/-- The text starts with something other than a blank. -/
def startsSolid : List Char → Bool
  | [] => false
  | c :: _ => !Text.isBlank c

/-- The text can be the value of a pair: it starts with neither a blank nor `=`. -/
def startsValue : List Char → Bool
  | [] => false
  | c :: _ => isWordChar c

/-! ## Reading tokens -/

/-- The token at the start of a text and the text after it, trimmed.  There is none
at the end. -/
def next? (s : List Char) : Except SyntaxError (Option (Token × List Char)) :=
  match s with
  | [] => .ok none
  | c :: rest =>
      if isQuote c then
        match closeQuote? c false rest with
        | none => .error (.atEnd .unterminatedString s)
        | some (text, rest) =>
            if startsSolid rest then .error (.atEnd .blankExpected s)
            else .ok (some (.literal text, Text.trimStart rest))
      else
        let word := s.takeWhile isWordChar
        match s.dropWhile isWordChar with
        | '=' :: rhs =>
            if word.isEmpty || !startsValue rhs then .error (.atEnd .pairExpected s)
            else (pairValue rhs).map fun (value, rest) =>
              some (.pair word value, Text.trimStart rest)
        | rest => .ok (some (.name word, Text.trimStart rest))

/-- The first token of a text. -/
def first? (s : List Char) : Except SyntaxError (Option (Token × List Char)) :=
  next? (Text.trim s)

theorem length_closeQuote_lt {quote : Char} {escaped : Bool} {s text rest : List Char}
    (h : closeQuote? quote escaped s = some (text, rest)) : rest.length < s.length := by
  induction s generalizing escaped text with
  | nil => cases h
  | cons c s ih =>
      rw [closeQuote?] at h
      split at h
      · cases h; exact Nat.lt_succ_self _
      · obtain ⟨⟨t, r⟩, hc, he⟩ := Option.map_eq_some_iff.1 h
        cases he
        exact Nat.lt_succ_of_lt (ih hc)

theorem length_dropWhile_le {p : Char → Bool} (s : List Char) :
    (s.dropWhile p).length ≤ s.length :=
  (List.dropWhile_suffix p).length_le

theorem length_pairValue_le {s value rest : List Char} (h : pairValue s = .ok (value, rest)) :
    rest.length ≤ s.length := by
  unfold pairValue at h
  split at h
  · cases h; exact Nat.le_refl _
  · next c r =>
      split at h
      · split at h
        · cases h
        · next hc => cases h; exact Nat.le_succ_of_le (Nat.le_of_lt (length_closeQuote_lt hc))
      · cases h; exact length_dropWhile_le _

/-- The text after a token is shorter than the text that starts with it. -/
theorem length_next_lt {s tail : List Char} {token : Token}
    (h : next? s = .ok (some (token, tail))) : tail.length < s.length := by
  unfold next? at h
  split at h
  · cases h
  · next c r =>
      split at h
      · split at h
        · cases h
        · next text rest hc =>
            split at h
            · cases h
            · cases h
              have hle := Text.length_trimStart_le rest
              have hlt := length_closeQuote_lt hc
              simp only [List.length_cons]
              omega
      · dsimp only at h
        split at h
        · next rhs hd =>
            split at h
            · cases h
            · cases hv : pairValue rhs with
              | error e => rw [hv] at h; cases h
              | ok p =>
                  obtain ⟨value, rest⟩ := p
                  rw [hv] at h
                  cases h
                  have h1 := Text.length_trimStart_le rest
                  have h2 := length_pairValue_le hv
                  have h3 : ('=' :: rhs).length ≤ (c :: r).length := hd ▸ length_dropWhile_le _
                  simp only [List.length_cons] at h3 ⊢
                  omega
        · next hne =>
            cases h
            rw [List.dropWhile_cons]
            split
            · have h1 := Text.length_trimStart_le (r.dropWhile isWordChar)
              have h2 := length_dropWhile_le (p := isWordChar) r
              simp only [List.length_cons]
              omega
            · next hw =>
                have hblank : Text.isBlank c = true := by
                  by_cases hc : c = '='
                  · subst hc
                    exact absurd (List.dropWhile_cons_of_neg (by decide)) (hne r)
                  · simpa [isWordChar, hc] using hw
                rw [Text.trimStart_cons, if_pos hblank]
                exact Nat.lt_succ_of_le (Text.length_trimStart_le r)

/-- The tokens of a text that does not start with a blank, each with the text after
it. -/
def tokensFrom (s : List Char) : Except SyntaxError (List (Token × List Char)) :=
  match _h : next? s with
  | .error e => .error e
  | .ok none => .ok []
  | .ok (some (token, tail)) => (tokensFrom tail).map ((token, tail) :: ·)
termination_by s.length
decreasing_by exact length_next_lt (by assumption)

theorem tokensFrom_of_error {s : List Char} {e : SyntaxError} (h : next? s = .error e) :
    tokensFrom s = .error e := by
  rw [tokensFrom]
  split <;> simp_all

theorem tokensFrom_of_none {s : List Char} (h : next? s = .ok none) : tokensFrom s = .ok [] := by
  rw [tokensFrom]
  split <;> simp_all

theorem tokensFrom_of_some {s tail : List Char} {token : Token}
    (h : next? s = .ok (some (token, tail))) :
    tokensFrom s = (tokensFrom tail).map ((token, tail) :: ·) := by
  rw [tokensFrom]
  split <;> simp_all

/-- The tokens of a tag's content, each with the text after it. -/
def tokenize (s : List Char) : Except SyntaxError (List (Token × List Char)) :=
  tokensFrom (Text.trim s)

/-- The tokens of a tag's content. -/
def tokens (s : List Char) : Except SyntaxError (List Token) :=
  (tokenize s).map fun found => found.map Prod.fst

end Token

end SqlTemplates
