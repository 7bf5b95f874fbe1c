import Mathlib
import SqlTemplates.Proofs.Tokens

/-!
# Reading one token after the other

A text is read token by token, each from the text that the token before it leaves.
`Token.Passed` says that some tokens have been read, and what is left of the text.

The text that is left never starts with a blank: the text is trimmed before the first token is
read, and every token trims what follows it.  So there is something to read wherever there is
text, and each token takes a character at least (`Token.advances_of_next?`).  At a blank a word
would be empty.

Reading ends for every text, at its end or at a fault (`Token.exists_passed`), with no more
tokens than the text has characters (`Token.Passed.length_le`).  `Token.tokenize` gives the
tokens that were read (`Token.tokenize_of_passed`) or the fault (`Token.tokenize_eq_error_iff`).
-/

namespace SqlTemplates

namespace Token

/-! ## One token -/

/-- The word of a name and both sides of a pair have characters.  A literal may be empty. -/
def Filled : Token → Prop
  | .name word => word ≠ []
  | .literal _ => True
  | .pair key value => key ≠ [] ∧ value ≠ []

theorem Written.filled {token : Token} {text : List Char} (h : Written token text) :
    token.Filled := by
  cases h with
  | name hword => exact hword.ne_nil
  | literal => exact trivial
  | pair hkey hvalue => exact ⟨hkey.ne_nil, hvalue.solid.1⟩

/-- The token is read from the text `s` and leaves `tail` of it. -/
structure Advances (s : List Char) (token : Token) (tail : List Char) : Prop where
  suffix : tail <:+ s
  shorter : tail.length < s.length
  startsSolid : Text.StartsSolid tail
  filled : token.Filled

/-- From a text that does not start with a blank, a token takes something, and it leaves such a
text. -/
theorem advances_of_next? {s tail : List Char} {token : Token} (hs : Text.StartsSolid s)
    (h : next? s = .ok (some (token, tail))) : Advances s token tail := by
  have hshorter := length_next_lt h
  obtain ⟨text, rest, hwritten, rfl, rfl, -⟩ := written_of_next? hs h
  have hsuffix := (Text.trimStart_suffix rest).trans (List.suffix_append text rest)
  exact ⟨hsuffix, hshorter, Text.startsSolid_trimStart rest, hwritten.filled⟩

/-! ## All tokens -/

/-- These tokens are the first ones of a text, each with the text after it, and the rest of the
text is left. -/
inductive Passed : List Char → List (Token × List Char) → List Char → Prop
  | nil {s : List Char} : Passed s [] s
  | cons {s tail rest : List Char} {token : Token} {found : List (Token × List Char)} :
      next? s = .ok (some (token, tail)) → Passed tail found rest →
      Passed s ((token, tail) :: found) rest

namespace Passed

variable {s rest : List Char} {found : List (Token × List Char)}

/-- What is left does not start with a blank, if the text does not. -/
theorem startsSolid (h : Passed s found rest) (hs : Text.StartsSolid s) :
    Text.StartsSolid rest := by
  induction h with
  | nil => exact hs
  | cons hnext _ ih => exact ih (advances_of_next? hs hnext).startsSolid

theorem suffix (h : Passed s found rest) (hs : Text.StartsSolid s) : rest <:+ s := by
  induction h with
  | nil => exact List.suffix_rfl
  | cons hnext _ ih =>
      have hadvances := advances_of_next? hs hnext
      exact (ih hadvances.startsSolid).trans hadvances.suffix

/-- Every token takes at least one character. -/
theorem length_le (h : Passed s found rest) : found.length + rest.length ≤ s.length := by
  induction h with
  | nil => simp
  | cons hnext _ ih =>
      have hshorter := length_next_lt hnext
      rw [List.length_cons]
      omega

theorem tokensFrom_eq (h : Passed s found rest) :
    tokensFrom s = (tokensFrom rest).map (found ++ ·) := by
  induction h with
  | nil => cases hs : tokensFrom _ <;> rfl
  | cons hnext _ ih =>
      rw [tokensFrom_of_some hnext, ih]
      cases tokensFrom _ <;> rfl

end Passed

/-- A text can be read token by token to its end or to a fault. -/
theorem exists_passed (s : List Char) :
    ∃ found rest, Passed s found rest ∧ (rest = [] ∨ ∃ e, next? rest = .error e) := by
  induction s using tokensFrom.induct with
  | case1 s e hn => exact ⟨[], s, .nil, .inr ⟨e, hn⟩⟩
  | case2 s hn => exact ⟨[], s, .nil, .inl (eq_nil_of_next? hn)⟩
  | case3 s token tail hn ih =>
      obtain ⟨found, rest, hpassed, hend⟩ := ih
      exact ⟨(token, tail) :: found, rest, .cons hn hpassed, hend⟩

section

variable {s : List Char}

/-- The tokens of a text that is read to its end are those that were read. -/
theorem tokenize_of_passed {found : List (Token × List Char)}
    (h : Passed (Text.trim s) found []) : tokenize s = .ok found := by
  rw [tokenize, h.tokensFrom_eq, tokensFrom_of_none rfl, Except.map, List.append_nil]

/-- A text is not read just if reading comes to a fault. -/
theorem tokenize_eq_error_iff {e : SyntaxError} :
    tokenize s = .error e ↔
      ∃ found rest, Passed (Text.trim s) found rest ∧ next? rest = .error e := by
  constructor
  · intro h
    obtain ⟨found, rest, hpassed, rfl | ⟨e', hn⟩⟩ := exists_passed (Text.trim s)
    · rw [tokenize_of_passed hpassed] at h
      cases h
    · rw [tokenize, hpassed.tokensFrom_eq, tokensFrom_of_error hn] at h
      cases h
      exact ⟨found, rest, hpassed, hn⟩
  · rintro ⟨found, rest, hpassed, hn⟩
    rw [tokenize, hpassed.tokensFrom_eq, tokensFrom_of_error hn]
    rfl

end

/-- Every token that is read from a text leaves a shorter text that does not start with a blank,
and no name, key or value is empty.  So reading comes to the end of the text or to a fault, after
no more tokens than there are characters. -/
theorem tokenize_ends (s : List Char) :
    (∀ found source, Passed (Text.trim s) found source →
        found.length + source.length ≤ (Text.trim s).length ∧
          ∀ token tail, next? source = .ok (some (token, tail)) → Advances source token tail) ∧
      ∃ found rest, Passed (Text.trim s) found rest ∧
        ((rest = [] ∧ tokenize s = .ok found) ∨
          ∃ e, next? rest = .error e ∧ tokenize s = .error e) := by
  have hs := (Text.solid_trim s).starts
  refine ⟨fun found source hpassed => ⟨hpassed.length_le, fun token tail hnext => ?_⟩, ?_⟩
  · exact advances_of_next? (hpassed.startsSolid hs) hnext
  · obtain ⟨found, rest, hpassed, rfl | ⟨e, hn⟩⟩ := exists_passed (Text.trim s)
    · exact ⟨found, [], hpassed, .inl ⟨rfl, tokenize_of_passed hpassed⟩⟩
    · have herror := tokenize_eq_error_iff.2 ⟨found, rest, hpassed, hn⟩
      exact ⟨found, rest, hpassed, .inr ⟨e, hn, herror⟩⟩

/-- The second token of a text takes its quotes and the blanks after them, and the fault after it
is reached. -/
theorem tokenize_ends_fault :
    Advances "'a b' \t=x".toList (.literal "a b".toList) "=x".toList ∧
      tokenize " include 'a b' \t=x ".toList = .error ⟨.pairExpected, "=x".toList⟩ := by
  have hfirst : next? (Text.trim " include 'a b' \t=x ".toList) =
      .ok (some (.name "include".toList, "'a b' \t=x".toList)) := by cbv
  have hsecond : next? "'a b' \t=x".toList =
      .ok (some (.literal "a b".toList, "=x".toList)) := by cbv
  refine ⟨?_, by cbv⟩
  exact ((tokenize_ends _).1 _ _ (.cons hfirst .nil)).2 _ _ hsecond

end Token

end SqlTemplates
