import Mathlib
import SqlTemplates.Proofs.Compiled

/-!
# The right side of a pair

The value of a pair is read twice: once to find its end in the tag, with all of the tag after it,
and once by itself, when the parameter is compiled.  The second reading trims the value, takes
the first token of it and does not look at what is left.

Both readings agree, since a value is a word or a quoted text (`Token.IsValue`), and either is
one token when it stands alone.  So the second one takes all of the value
(`Token.first?_rightSide`), and the only fault that it can meet is a word that is no identifier.
-/

namespace SqlTemplates

namespace Token

/-- The right side of every pair of a tag was written as a value. -/
theorem isValue_of_tokenize {s : List Char} {found : List (Token × List Char)}
    (h : tokenize s = .ok found) {key value tail : List Char}
    (hpair : (.pair key value, tail) ∈ found) : IsValue value := by
  have htokens : tokens s = .ok (found.map Prod.fst) := by
    rw [tokens, h]
    rfl
  have hmem : Token.pair key value ∈ found.map Prod.fst := List.mem_map_of_mem hpair
  obtain ⟨text, hwritten, -⟩ := written_of_mem_tokens htokens _ hmem
  cases hwritten with
  | pair _ hvalue => exact hvalue

/-- The value of a pair is one token, with nothing left of it: a literal if it starts with a
quote, and otherwise a name.  So a literal is passed without its quotes, and a word as a name, of
which the compiler asks no more than that it is an identifier. -/
theorem first?_rightSide {s : List Char} {found : List (Token × List Char)}
    (h : tokenize s = .ok found) {key value tail : List Char}
    (hpair : (.pair key value, tail) ∈ found) :
    (∃ quote text, isQuote quote = true ∧ value = inQuotes quote text ∧
        first? value = .ok (some (.literal text, [])) ∧
        ∀ raw, Compile.ofParameterValue raw value =
          .ok (.paramNode (.literal (String.ofList text)))) ∨
      (∀ c ∈ value.head?, isQuote c = false) ∧
        first? value = .ok (some (.name value, [])) ∧
        ∀ raw, Compile.ofParameterValue raw value =
          if Name.isIdentifier value then .ok (.paramName (String.ofList value))
          else .error (.syntaxError ⟨.invalidName value, raw⟩) := by
  cases isValue_of_tokenize h hpair with
  | word hword =>
      exact .inr ⟨hword.unquoted, first?_written (.name hword),
        Compile.ofParameterValue_word hword⟩
  | @quoted quote text hquote htext =>
      exact .inl ⟨quote, text, hquote, rfl, first?_written (.literal hquote htext),
        Compile.ofParameterValue_quoted hquote htext⟩

/-- A value may hold blanks, equals signs and quotes, and text may follow its closing quote. -/
theorem first?_rightSide_quoted :
    first? "'\\' \u2003id=\"x\" '".toList =
        .ok (some (.literal "\\' \u2003id=\"x\" ".toList, [])) ∧
      Compile.ofParameterValue [] "'\\' \u2003id=\"x\" '".toList =
        .ok (.paramNode (.literal "\\' \u2003id=\"x\" ")) := by
  have hfound : tokenize "include name='\\' \u2003id=\"x\" 'id=y".toList =
      .ok [(.name "include".toList, "name='\\' \u2003id=\"x\" 'id=y".toList),
        (.pair "name".toList "'\\' \u2003id=\"x\" '".toList, "id=y".toList),
        (.pair "id".toList "y".toList, [])] := by cbv
  have hmem : (Token.pair "name".toList "'\\' \u2003id=\"x\" '".toList, "id=y".toList) ∈
      [(Token.name "include".toList, "name='\\' \u2003id=\"x\" 'id=y".toList),
        (.pair "name".toList "'\\' \u2003id=\"x\" '".toList, "id=y".toList),
        (.pair "id".toList "y".toList, [])] := List.mem_cons_of_mem _ (List.mem_cons_self ..)
  rcases first?_rightSide hfound hmem with ⟨quote, text, -, hvalue, hfirst, hnode⟩ | ⟨hbare, -⟩
  · obtain rfl : "\\' \u2003id=\"x\" ".toList = text := by
      simpa [inQuotes] using congrArg (fun value => value.tail.dropLast) hvalue
    exact ⟨hfirst, hnode []⟩
  · exact absurd (hbare '\'' rfl) (by decide)

end Token

end SqlTemplates
