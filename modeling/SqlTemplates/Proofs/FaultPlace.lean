import SqlTemplates.Proofs.Reading

/-!
# The place that a fault of a tag quotes

Reading tokens comes to a fault at one character of the text (`Token.Breaks`): the one right
after a closing quote where no blank follows, or an equals sign that lacks a key or a value.  The
error quotes the text from the token with the fault on, but at most its last thirty-two
characters (`Token.next?_of_breaks`).

So what the quoted piece shows depends on what follows the fault (`Token.near_of_breaks`).  The
piece always stands at the end of the text.  It reaches back to the character of the fault if
fewer than thirty-two characters follow that one.  If more follow, it is a part of those, and the
fault is not in it (`Token.near_misses_fault`).
-/

namespace SqlTemplates

namespace Text

/-- The last characters of a text hold every end of it that is no longer. -/
theorem suffix_lastChars {n : Nat} {s t : List Char} (h : t <:+ s) (hlength : t.length ≤ n) :
    t <:+ lastChars n s := by
  refine List.suffix_of_suffix_length_le h (lastChars_suffix n s) ?_
  rw [length_lastChars]
  exact Nat.le_min.2 ⟨hlength, h.length_le⟩

/-- The last characters of a text are a part of every end of it that is as long. -/
theorem lastChars_suffix_of_le {n : Nat} {s t : List Char} (h : t <:+ s)
    (hlength : n ≤ t.length) : lastChars n s <:+ t := by
  refine List.suffix_of_suffix_length_le (lastChars_suffix n s) h ?_
  rw [length_lastChars]
  exact Nat.le_trans (Nat.min_le_left _ _) hlength

theorem trim_infix (s : List Char) : trim s <:+: s := by
  obtain ⟨lead, trail, -, -, hs⟩ := exists_append_trim_append s
  exact ⟨lead, trail, by rw [List.append_assoc, ← hs]⟩

end Text

namespace Token

/-! ## The character of a fault -/

/-- A text has this fault at the character `c`, which stands between `before` and `after`. -/
inductive Breaks : Fault → (before : List Char) → (c : Char) → (after : List Char) → Prop
  /-- No blank follows the closing quote of a literal. -/
  | unspaced {quote c : Char} {text after : List Char} :
      isQuote quote = true → Quotable quote text → Text.isBlank c = false →
      Breaks .blankExpected (inQuotes quote text) c after
  | keyless {after : List Char} : Breaks .pairExpected [] '=' after
  /-- The text ends after the equals sign of a key, or a blank or an equals sign follows. -/
  | valueless {key after : List Char} :
      IsWord key → startsValue after = false → Breaks .pairExpected key '=' after

/-- The only fault of a value is that it does not end. -/
theorem fault_of_pairValue {s : List Char} {e : SyntaxError} (h : pairValue s = .error e) :
    e.fault = .unterminatedString := by
  unfold pairValue at h
  split at h
  · cases h
  · split at h
    · split at h <;> cases h
      rfl
    · cases h

/-- A text with one of these faults is not read. -/
theorem next?_of_breaks {fault : Fault} {before after : List Char} {c : Char}
    (h : Breaks fault before c after) :
    next? (before ++ c :: after) = .error (.atEnd fault (before ++ c :: after)) := by
  cases h with
  | @unspaced quote _ text _ hquote htext hblank =>
      have hclose := closeQuote?_append (isQuote_ne_slash hquote) htext (c :: after)
      simp [inQuotes, next?, hquote, hclose, startsSolid, hblank]
  | keyless => exact next?_equals after
  | valueless hkey hvalue =>
      have hequals : ∀ d ∈ ('=' :: after).head?, isWordChar d = false := by
        rintro d ⟨⟩
        decide
      obtain ⟨htake, hdrop⟩ := span_word hkey.solid hequals
      obtain ⟨d, key, rfl, hd⟩ := hkey.exists_cons
      rw [List.cons_append] at htake hdrop ⊢
      rw [next?, if_neg (by rw [hd]; exact Bool.false_ne_true)]
      simp only [htake, hdrop, hvalue, List.isEmpty_cons, Bool.not_false, Bool.or_true, if_true]

section

variable {c : Char} {s : List Char} {e : SyntaxError}

theorem breaks_of_next?_quote (hquote : isQuote c = true) (h : next? (c :: s) = .error e)
    (hfault : e.fault ≠ .unterminatedString) :
    ∃ before d after, c :: s = before ++ d :: after ∧ Breaks e.fault before d after := by
  rw [next?, if_pos hquote] at h
  split at h
  · cases h
    exact absurd rfl hfault
  · next text rest hclose =>
      split at h
      · next hsolid =>
          cases h
          obtain ⟨hq, rfl⟩ := quotable_of_closeQuote? (isQuote_ne_slash hquote) hclose
          obtain _ | ⟨d, after⟩ := rest
          · cases hsolid
          · have hblank : Text.isBlank d = false := by simpa [startsSolid] using hsolid
            exact ⟨_, d, after, by simp [inQuotes], .unspaced hquote hq hblank⟩
      · cases h

theorem breaks_of_next?_word (hquote : isQuote c = false) (h : next? (c :: s) = .error e)
    (hfault : e.fault ≠ .unterminatedString) :
    ∃ before d after, c :: s = before ++ d :: after ∧ Breaks e.fault before d after := by
  have hspan := List.takeWhile_append_dropWhile (p := isWordChar) (l := c :: s)
  rw [next?, if_neg (by rw [hquote]; exact Bool.false_ne_true)] at h
  dsimp only at h
  split at h
  · next rhs hdrop =>
      rw [hdrop] at hspan
      split at h
      · next hlacks =>
          cases h
          refine ⟨_, '=', rhs, hspan.symm, ?_⟩
          -- The word before the sign is empty or a key: a quote cannot start it.
          cases hword : isWordChar c with
          | false =>
              rw [List.takeWhile_cons_of_neg (by rw [hword]; exact Bool.false_ne_true)]
              exact .keyless
          | true =>
              have hkey := isWord_takeWhile s hquote hword
              have hempty : ((c :: s).takeWhile isWordChar).isEmpty = false :=
                List.isEmpty_eq_false_iff.2 hkey.ne_nil
              rw [hempty, Bool.false_or, Bool.not_eq_true'] at hlacks
              exact .valueless hkey hlacks
      · cases hv : pairValue rhs with
        | ok found => rw [hv] at h; cases h
        | error e' =>
            rw [hv] at h
            cases h
            exact absurd (fault_of_pairValue hv) hfault
  · cases h

/-- A text that is not read has one of these faults, or a quoted text in it does not end. -/
theorem breaks_of_next? (h : next? s = .error e) (hfault : e.fault ≠ .unterminatedString) :
    ∃ before c after, s = before ++ c :: after ∧ Breaks e.fault before c after := by
  cases s with
  | nil => cases h
  | cons c s =>
      cases hquote : isQuote c with
      | true => exact breaks_of_next?_quote hquote h hfault
      | false => exact breaks_of_next?_word hquote h hfault

end

/-! ## The quoted piece -/

/-- A quoted piece at the end of a text, where the fault is at `c` and `after` follows it: the
piece holds `c` if `after` is short, and lies in `after` if not. -/
structure Quotes (near : List Char) (c : Char) (after : List Char) : Prop where
  reaches : after.length < 32 → c :: after <:+ near
  misses : 32 ≤ after.length → near <:+ after ∧ near.length = 32

theorem quotes_lastChars (before : List Char) (c : Char) (after : List Char) :
    Quotes (Text.lastChars 32 (before ++ c :: after)) c after where
  reaches h := Text.suffix_lastChars (List.suffix_append before (c :: after)) h
  misses h := by
    have hsuffix : after <:+ before ++ c :: after :=
      (List.suffix_cons c after).trans (List.suffix_append before (c :: after))
    refine ⟨Text.lastChars_suffix_of_le hsuffix h, ?_⟩
    rw [Text.length_lastChars]
    exact Nat.min_eq_left (Nat.le_trans h hsuffix.length_le)

/-- Where no blank follows a quoted text, or an equals sign lacks a key or a value, the error
quotes a piece of the text that holds the character of the fault, unless thirty-two characters or
more follow it.  Then the piece lies after this character. -/
theorem near_of_breaks (s : List Char) :
    (∀ e, tokenize s = .error e → e.fault = .blankExpected ∨ e.fault = .pairExpected →
        ∃ found before c after, Passed (Text.trim s) found (before ++ c :: after) ∧
          Breaks e.fault before c after) ∧
      ∀ found fault before c after, Passed (Text.trim s) found (before ++ c :: after) →
        Breaks fault before c after →
        ∃ near, tokenize s = .error ⟨fault, near⟩ ∧ near <:+: s ∧ Quotes near c after := by
  constructor
  · intro e herror hfault
    obtain ⟨found, rest, hpassed, hnext⟩ := tokenize_eq_error_iff.1 herror
    have hother : e.fault ≠ .unterminatedString := by
      intro heq
      rw [heq] at hfault
      rcases hfault with hfault | hfault <;> cases hfault
    obtain ⟨before, c, after, rfl, hbreaks⟩ := breaks_of_next? hnext hother
    exact ⟨found, before, c, after, hpassed, hbreaks⟩
  · intro found fault before c after hpassed hbreaks
    have herror := tokenize_eq_error_iff.2 ⟨found, _, hpassed, next?_of_breaks hbreaks⟩
    have hsuffix := hpassed.suffix (Text.solid_trim s).starts
    have hnear := (Text.lastChars_suffix 32 (before ++ c :: after)).trans hsuffix
    exact ⟨_, herror, hnear.isInfix.trans (Text.trim_infix s), quotes_lastChars before c after⟩

/-- A value that is missing at the end of a long text is shown. -/
theorem near_of_breaks_valueless :
    ∃ near, tokenize "include 'users.list' order=name limit=".toList =
        .error ⟨.pairExpected, near⟩ ∧
      near <:+: "include 'users.list' order=name limit=".toList ∧ Quotes near '=' [] := by
  have hfirst : next? (Text.trim "include 'users.list' order=name limit=".toList) =
      .ok (some (.name "include".toList, "'users.list' order=name limit=".toList)) := by cbv
  have hsecond : next? "'users.list' order=name limit=".toList =
      .ok (some (.literal "users.list".toList, "order=name limit=".toList)) := by cbv
  have hthird : next? "order=name limit=".toList =
      .ok (some (.pair "order".toList "name".toList, "limit=".toList)) := by cbv
  have hkey : IsWord "limit".toList :=
    ⟨by decide, by rintro c ⟨⟩; decide, List.all_eq_true.1 (by decide)⟩
  exact (near_of_breaks _).2 _ _ _ _ _ (.cons hfirst (.cons hsecond (.cons hthird .nil)))
    (.valueless hkey (by decide))

/-- The character after the closing quote is far from the end of the text, and the error does not
show it. -/
theorem near_misses_fault :
    "'a'b limit=10 offset=20 order=created_at".toList =
        "'a'".toList ++ 'b' :: " limit=10 offset=20 order=created_at".toList ∧
      Breaks .blankExpected "'a'".toList 'b' " limit=10 offset=20 order=created_at".toList ∧
      tokenize "'a'b limit=10 offset=20 order=created_at".toList =
        .error ⟨.blankExpected, "it=10 offset=20 order=created_at".toList⟩ ∧
      'b' ∉ "it=10 offset=20 order=created_at".toList := by
  have hquotable : Quotable '\'' "a".toList := (quotable_iff (by decide)).2 (by decide)
  exact ⟨by decide, .unspaced (by decide) hquotable (by decide), by cbv, by decide⟩

end Token

end SqlTemplates
