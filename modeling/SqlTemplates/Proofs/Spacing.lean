import Mathlib
import SqlTemplates.Proofs.Tokens

/-!
# The blanks between tokens

Where two tokens of a text meet, and how they may be set apart.

*Between two tokens.*  Every kind of token but one is read only where a blank or the end of the
text follows, so there are blanks between it and the next token (`Token.blanks_between`).  The
exception is a pair whose value stands in quotes: the quote that closes the value ends the pair,
and what comes next is not looked at (`Token.tokens_append_of_quotedPair`).

*Tokens written out.*  Tokens may be written with any blanks between them, before the first one
and after the last one (`Token.Printed`).  Each of these texts has just these tokens
(`Token.tokens_printed`).
-/

namespace SqlTemplates

namespace Token

/-! ## Between two tokens -/

/-- Where its tokens are split in two, the text is split too. -/
theorem Spaced.exists_append {before after : List Token} :
    ∀ {s : List Char}, Spaced (before ++ after) s →
      ∃ left right, s = left ++ right ∧ Spaced before left ∧ Spaced after right := by
  induction before with
  | nil => exact fun h => ⟨[], _, rfl, .nil fun _ hc => absurd hc List.not_mem_nil, h⟩
  | cons token before ih =>
      intro s h
      cases h with
      | @cons gap text rest _ _ hgap hwritten hfollow hrest =>
          obtain ⟨left, right, rfl, hleft, hright⟩ := ih hrest
          refine ⟨gap ++ (text ++ left), right, by simp only [List.append_assoc], ?_, hright⟩
          refine .cons hgap hwritten (hfollow.imp_right fun hblank c hc => hblank c ?_) hleft
          obtain ⟨tail, rfl⟩ := List.head?_eq_some_iff.1 hc
          rfl

/-- A blank follows a token before the next one, unless the token is a pair in quotes. -/
theorem MayFollow.ne_nil_of_append {token second : Token} {gap text rest : List Char}
    (h : MayFollow token (gap ++ (text ++ rest))) (hwritten : Written second text) :
    gap ≠ [] ∨ token.QuotedPair := by
  refine h.symm.imp_left fun hblank hgap => ?_
  subst hgap
  obtain ⟨c, tail, rfl⟩ := List.exists_cons_of_ne_nil hwritten.solid.1
  have hsolid := hwritten.solid.2.starts c rfl
  rw [hblank c rfl] at hsolid
  cases hsolid

/-- Two tokens in a row have blanks between them, unless the first one is a pair whose value
stands in quotes. -/
theorem blanks_between {s : List Char} {before after : List Token} {first second : Token}
    (h : tokens s = .ok (before ++ first :: second :: after)) :
    ∃ left text gap text' right, s = left ++ (text ++ (gap ++ (text' ++ right))) ∧
      Spaced before left ∧ Written first text ∧ (∀ c ∈ gap, Text.isBlank c = true) ∧
      Written second text' ∧ Spaced after right ∧ (gap ≠ [] ∨ first.QuotedPair) := by
  obtain ⟨left, right, rfl, hbefore, hright⟩ := (tokens_eq_ok_iff.1 h).exists_append
  cases hright with
  | @cons lead text rest _ _ hlead hfirst hfollow hrest =>
      cases hrest with
      | @cons gap text' right _ _ hgap hsecond _ hafter =>
          exact ⟨left ++ lead, text, gap, text', right, by simp only [List.append_assoc],
            hbefore.append_blanks hlead, hfirst, hgap, hsecond, hafter,
            hfollow.ne_nil_of_append hsecond⟩

theorem blanks_between_words :
    ∃ left text gap text' right,
      " include 'a b'\tid=x ".toList = left ++ (text ++ (gap ++ (text' ++ right))) ∧
      Spaced [.name "include".toList] left ∧ Written (.literal "a b".toList) text ∧
      (∀ c ∈ gap, Text.isBlank c = true) ∧
      Written (.pair "id".toList "x".toList) text' ∧ Spaced [] right ∧
      (gap ≠ [] ∨ (Token.literal "a b".toList).QuotedPair) := by
  have htokens : tokens " include 'a b'\tid=x ".toList =
      .ok ([.name "include".toList] ++
        .literal "a b".toList :: .pair "id".toList "x".toList :: []) := by cbv
  exact blanks_between htokens

/-- After the quote that closes the value of a pair the tokens of any text may follow. -/
theorem tokens_append_of_quotedPair {key text : List Char} {quote : Char} (hkey : IsWord key)
    (hquote : isQuote quote = true) (htext : Quotable quote text) {s : List Char}
    {found : List Token} (h : tokens s = .ok found) :
    tokens (key ++ '=' :: inQuotes quote text ++ s) =
      .ok (.pair key (inQuotes quote text) :: found) :=
  tokens_eq_ok_iff.2 (.start (.pair hkey (.quoted hquote htext)) (.inl ⟨quote, rfl, hquote⟩)
    (tokens_eq_ok_iff.1 h))

/-- Two tokens in a text without any blank. -/
theorem tokens_without_blank :
    tokens "name='andrew'id=user_id".toList =
        .ok [.pair "name".toList "'andrew'".toList, .pair "id".toList "user_id".toList] ∧
      "name='andrew'id=user_id".toList.any Text.isBlank = false := by
  refine ⟨by cbv, by decide⟩

/-! ## Tokens written out -/

/-- The text has these tokens with blanks between them, and any blanks before the first one and
after the last one. -/
inductive Printed : List Token → List Char → Prop
  | blanks {gap : List Char} : (∀ c ∈ gap, Text.isBlank c = true) → Printed [] gap
  | row {lead text row trail : List Char} {token : Token} {tokens : List Token} :
      (∀ c ∈ lead, Text.isBlank c = true) → Written token text → Row tokens row →
      (∀ c ∈ trail, Text.isBlank c = true) →
      Printed (token :: tokens) (lead ++ (text ++ (row ++ trail)))

theorem Printed.spaced {tokens : List Token} {s : List Char} (h : Printed tokens s) :
    Spaced tokens s := by
  cases h with
  | blanks hgap => exact .nil hgap
  | @row lead text row trail _ _ hlead hwritten hrow htrail =>
      have hstart : Spaced _ (text ++ row) := .start hwritten (.inr hrow.startsBlank) hrow.spaced
      have hend := hstart.append_blanks htrail
      rw [List.append_assoc] at hend
      exact hend.blanks_append hlead

/-- Tokens that are written out are read back, whatever blanks they are written with. -/
theorem tokens_printed {tokens : List Token} {s : List Char} (h : Printed tokens s) :
    Token.tokens s = .ok tokens ∧ ∀ t, Printed tokens t → Token.tokens t = Token.tokens s := by
  have hs := tokens_eq_ok_iff.2 h.spaced
  refine ⟨hs, fun t ht => ?_⟩
  rw [hs]
  exact tokens_eq_ok_iff.2 ht.spaced

/-- Any blanks set tokens apart, and in quotes there may be blanks too, an equals sign, the other
quote, and the same one after a backslash. -/
theorem tokens_printed_quoted :
    Printed [.literal "\\' = \"".toList, .pair "k".toList "\"a b\"".toList]
        "\u3000'\\' = \"' \u2003k=\"a b\"\n".toList ∧
      Token.tokens "\u3000'\\' = \"' \u2003k=\"a b\"\n".toList =
        .ok [.literal "\\' = \"".toList, .pair "k".toList "\"a b\"".toList] ∧
      ∀ t, Printed [.literal "\\' = \"".toList, .pair "k".toList "\"a b\"".toList] t →
        Token.tokens t = Token.tokens "\u3000'\\' = \"' \u2003k=\"a b\"\n".toList := by
  have hliteral : Written (.literal "\\' = \"".toList) "'\\' = \"'".toList :=
    .literal (by decide) ((quotable_iff (by decide)).2 (by decide))
  have hvalue : IsValue (inQuotes '"' "a b".toList) :=
    .quoted (by decide) ((quotable_iff (by decide)).2 (by decide))
  have hkey : IsWord "k".toList :=
    ⟨by decide, by rintro c ⟨⟩; decide, List.all_eq_true.1 (by decide)⟩
  have hpair : Written (.pair "k".toList "\"a b\"".toList) "k=\"a b\"".toList :=
    .pair hkey hvalue
  have hrow : Row [.pair "k".toList "\"a b\"".toList]
      (" \u2003".toList ++ ("k=\"a b\"".toList ++ [])) :=
    .cons (by decide) (List.all_eq_true.1 (by decide)) hpair .nil
  have hprinted : Printed _
      ("\u3000".toList ++ ("'\\' = \"'".toList ++
        (" \u2003".toList ++ ("k=\"a b\"".toList ++ []) ++ "\n".toList))) :=
    .row (List.all_eq_true.1 (by decide)) hliteral hrow (List.all_eq_true.1 (by decide))
  exact ⟨hprinted, tokens_printed hprinted⟩

end Token

end SqlTemplates
