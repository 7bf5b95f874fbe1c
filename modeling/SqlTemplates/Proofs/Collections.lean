import SqlTemplates.Literal
import SqlTemplates.Proofs.Written
import SqlTemplates.Text.Split

/-!
# Collections as lists of a query

The filter for collections takes items of one type (`Filter.OneType`) and writes them in a row:
texts in quotes, and numbers as they are, with commas between them.  Nothing is escaped, so the
list can be read back where what stands between two items does not occur in an item.

* A list of integers is cut at its commas, and each part is read as a decimal number
  (`Filter.readIntegers?`).
* A list of texts is cut at each `','` between the outer quotes (`Filter.readTexts?`).  Commas
  and blanks in a text do no harm, but a quote does.

Both are one argument (`Text.partsAt_intercalate`): a mark is found first where it was put, if
its first character occurs in none of the parts.  Two lists that can be read back and have the
same text are the same (`Filter.apply_arr`).
-/

namespace SqlTemplates

/-! ## Parts between marks -/

namespace Text

/-- The parts of a text between the occurrences of a mark, from left to right. -/
def partsAt (mark : List Char) (hmark : mark ≠ []) (s : List Char) : List (List Char) :=
  match _h : cut? mark s with
  | none => [s]
  | some (before, after) => before :: partsAt mark hmark after
termination_by s.length
decreasing_by exact length_lt_of_cut? (by assumption) hmark

theorem partsAt_of_none {mark s : List Char} {hmark : mark ≠ []} (h : cut? mark s = none) :
    partsAt mark hmark s = [s] := by
  rw [partsAt]
  split <;> simp_all

theorem partsAt_of_some {mark s before after : List Char} {hmark : mark ≠ []}
    (h : cut? mark s = some (before, after)) :
    partsAt mark hmark s = before :: partsAt mark hmark after := by
  rw [partsAt]
  split <;> simp_all

/-- The parts of parts with a mark between them are these parts, if none of them holds the first
character of the mark. -/
theorem partsAt_intercalate {c : Char} {mark : List Char} {parts : List (List Char)}
    (hne : parts ≠ []) (h : ∀ part ∈ parts, c ∉ part) :
    partsAt (c :: mark) (List.cons_ne_nil c mark) ((c :: mark).intercalate parts) = parts := by
  induction parts with
  | nil => exact absurd rfl hne
  | cons part parts ih =>
      obtain ⟨hpart, hparts⟩ := List.forall_mem_cons.1 h
      cases parts with
      | nil =>
          rw [List.intercalate_singleton]
          refine partsAt_of_none (cut?_eq_none_iff.2 fun hmark => hpart ?_)
          exact hmark.subset (List.mem_cons_self ..)
      | cons next parts =>
          have hcut : cut? (c :: mark)
              (part ++ (c :: mark ++ (c :: mark).intercalate (next :: parts))) = some (part, _) :=
            cut?_append_of_not_mem hpart _
          rw [List.intercalate_cons_cons, List.append_assoc, partsAt_of_some hcut,
            ih (List.cons_ne_nil next parts) hparts]

end Text

/-! ## Decimal numbers -/

namespace Decimal

/-- The number that a text of digits stands for. -/
def readDigits? (s : List Char) : Option Nat :=
  if s ≠ [] ∧ s.all Char.isDigit then some (Nat.ofDigitChars 10 s 0) else none

/-- The number that digits with a minus sign or without one stand for. -/
def readInteger? : List Char → Option Int
  | '-' :: s => (readDigits? s).map fun n : Nat => -(n : Int)
  | s => (readDigits? s).map fun n : Nat => (n : Int)

theorem readDigits?_toDigits (n : Nat) : readDigits? (Nat.toDigits 10 n) = some n := by
  have hdigits : (Nat.toDigits 10 n).all Char.isDigit = true :=
    List.all_eq_true.2 fun _ => Nat.isDigit_of_mem_toDigits (by decide) (by decide)
  rw [readDigits?, if_pos ⟨Nat.toDigits_ne_nil, hdigits⟩, Nat.ofDigitChars_ten_toDigits]

theorem readInteger?_toDigits (n : Nat) : readInteger? (Nat.toDigits 10 n) = some (n : Int) := by
  unfold readInteger?
  split
  · -- No digit is a minus sign, so the first reading of a number is not taken.
    next s hs =>
      have hminus : '-' ∈ Nat.toDigits 10 n := hs ▸ List.mem_cons_self ..
      exact absurd (Nat.isDigit_of_mem_toDigits (by decide) (by decide) hminus) (by decide)
  · rw [readDigits?_toDigits]
    rfl

/-- An integer is read back from its text. -/
theorem readInteger?_toString (n : Int) : readInteger? (toString n).toList = some n := by
  rw [Int.toString_eq_repr, Int.repr_eq_if]
  split
  · next hn =>
      rw [Nat.toList_repr, readInteger?_toDigits, Int.toNat_of_nonneg hn]
  · next hn =>
      have hpos : 0 ≤ -n := by omega
      rw [String.toList_append, Nat.toList_repr]
      change (readDigits? (Nat.toDigits 10 (-n).toNat)).map (fun n : Nat => -(n : Int)) = some n
      rw [readDigits?_toDigits, Option.map_some, Int.toNat_of_nonneg hpos, Int.neg_neg]

/-- The text of an integer has digits and at most a minus sign. -/
theorem mem_toString {n : Int} {c : Char} (h : c ∈ (toString n).toList) :
    c = '-' ∨ c.isDigit = true := by
  rw [Int.toString_eq_repr, Int.repr_eq_if] at h
  split at h
  · rw [Nat.toList_repr] at h
    exact .inr (Nat.isDigit_of_mem_toDigits (by decide) (by decide) h)
  · rw [String.toList_append, Nat.toList_repr] at h
    exact (List.mem_append.1 h).imp List.mem_singleton.1
      (Nat.isDigit_of_mem_toDigits (by decide) (by decide))

end Decimal

/-! ## Items of one type -/

namespace Filter

/-- All values are texts, or all are integers, or all are floats. -/
inductive OneType (items : List Value) : Prop
  | texts : (∀ v ∈ items, ∃ s, v = .text s) → OneType items
  | integers : (∀ v ∈ items, ∃ n, v = .integer n) → OneType items
  | floats : (∀ v ∈ items, ∃ x, v = .float x) → OneType items

theorem isText_iff {v : Value} : v.isText = true ↔ ∃ s, v = .text s := by
  cases v <;> simp [Value.isText]

theorem isInteger_iff {v : Value} : v.isInteger = true ↔ ∃ n, v = .integer n := by
  cases v <;> simp [Value.isInteger]

theorem isFloat_iff {v : Value} : v.isFloat = true ↔ ∃ x, v = .float x := by
  cases v <;> simp [Value.isFloat]

/-- The tests of the filter are for one type. -/
theorem oneType_iff {items : List Value} : OneType items ↔
    items.all Value.isText = true ∨ items.all Value.isInteger = true ∨
      items.all Value.isFloat = true := by
  simp only [List.all_eq_true, isText_iff, isInteger_iff, isFloat_iff]
  constructor
  · rintro (h | h | h)
    · exact .inl h
    · exact .inr (.inl h)
    · exact .inr (.inr h)
  · rintro (h | h | h)
    · exact .texts h
    · exact .integers h
    · exact .floats h

theorem encodeItems?_eq_none_iff {items : List Value} :
    encodeItems? items = none ↔ ¬ OneType items := by
  rw [oneType_iff, encodeItems?]
  cases items.all Value.isText <;> cases items.all Value.isInteger <;>
    cases items.all Value.isFloat <;> simp

theorem apply_collection (parameter : String) (items : List Value) :
    arr.apply parameter (.collection items) =
      match encodeItems? items with
      | some sql => .ok sql
      | none => .error (.filterType parameter .arr) := rfl

theorem apply_collection_eq_ok_iff {parameter sql : String} {items : List Value} :
    arr.apply parameter (.collection items) = .ok sql ↔ encodeItems? items = some sql := by
  rw [apply_collection]
  cases encodeItems? items <;> simp

/-! ## Lists that are written -/

/-- Some integers with commas between them. -/
def integerList (ns : List Int64) : String := ",".intercalate (ns.map fun n => toString n.toInt)

/-- Some texts in quotes, with commas between them. -/
def textList (texts : List String) : String := "'" ++ "','".intercalate texts ++ "'"

theorem encodeItems?_integers {ns : List Int64} (hne : ns ≠ []) :
    encodeItems? (ns.map .integer) = some (integerList ns) := by
  obtain ⟨n, ns, rfl⟩ := List.exists_cons_of_ne_nil hne
  have htexts : ((n :: ns).map Value.integer).all Value.isText = false := rfl
  have hintegers : ((n :: ns).map Value.integer).all Value.isInteger = true := by
    simp [Value.isInteger]
  rw [encodeItems?]
  simp only [htexts, hintegers, Bool.true_or, Bool.false_eq_true, if_false, if_true, List.map_map]
  rfl

theorem encodeItems?_texts (texts : List String) :
    encodeItems? (texts.map .text) = some (textList texts) := by
  have htexts : (texts.map Value.text).all Value.isText = true := by simp [Value.isText]
  have hdisplay : (texts.map Value.text).map Value.display = texts := by
    rw [List.map_map]
    exact List.map_id texts
  rw [encodeItems?]
  simp only [htexts, hdisplay, if_true]
  rfl

theorem toList_integerList (ns : List Int64) :
    (integerList ns).toList = [','].intercalate (ns.map fun n => (toString n.toInt).toList) := by
  rw [integerList, String.toList_intercalate, List.map_map]
  rfl

theorem toList_textList (texts : List String) :
    (textList texts).toList =
      '\'' :: (['\'', ',', '\''].intercalate (texts.map String.toList) ++ ['\'']) := by
  rw [textList, String.toList_append, String.toList_append, String.toList_intercalate]
  rfl

theorem mem_integerList {ns : List Int64} {c : Char} (h : c ∈ (integerList ns).toList) :
    c = ',' ∨ c = '-' ∨ c.isDigit = true := by
  rw [toList_integerList] at h
  rcases Text.mem_intercalate h with h | ⟨part, hpart, h⟩
  · exact .inl (List.mem_singleton.1 h)
  · obtain ⟨n, -, rfl⟩ := List.mem_map.1 hpart
    exact .inr (Decimal.mem_toString h)

/-- Integers and texts are not written alike. -/
theorem integerList_ne_textList (ns : List Int64) (texts : List String) :
    integerList ns ≠ textList texts := by
  intro h
  have hquote : '\'' ∈ (integerList ns).toList := by
    rw [h, toList_textList]
    exact List.mem_cons_self ..
  exact absurd (mem_integerList hquote) (by decide)

/-! ## Reading a list -/

/-- The numbers of a list with commas. -/
def readIntegers? (sql : String) : Option (List Int) :=
  (Text.partsAt [','] (List.cons_ne_nil _ _) sql.toList).mapM Decimal.readInteger?

/-- The text without its outer quotes. -/
def unquote? : List Char → Option (List Char)
  | '\'' :: s => if s.getLast? = some '\'' then some s.dropLast else none
  | _ => none

/-- The texts of a list of quoted texts. -/
def readTexts? (sql : String) : Option (List String) :=
  (unquote? sql.toList).map fun inside =>
    (Text.partsAt ['\'', ',', '\''] (List.cons_ne_nil _ _) inside).map String.ofList

theorem unquote?_quoted (s : List Char) : unquote? ('\'' :: (s ++ ['\''])) = some s := by
  rw [unquote?, if_pos List.getLast?_concat, List.dropLast_concat]

theorem readIntegers?_integerList {ns : List Int64} (hne : ns ≠ []) :
    readIntegers? (integerList ns) = some (ns.map Int64.toInt) := by
  have hcomma : ∀ part ∈ ns.map fun n => (toString n.toInt).toList, ',' ∉ part := by
    intro part hpart hm
    obtain ⟨n, -, rfl⟩ := List.mem_map.1 hpart
    exact absurd (Decimal.mem_toString hm) (by decide)
  have hread : (Decimal.readInteger? ∘ fun n : Int64 => (toString n.toInt).toList) =
      fun n => pure n.toInt := funext fun n => Decimal.readInteger?_toString n.toInt
  have hmap : ns.map (fun n => (toString n.toInt).toList) ≠ [] := by simpa using hne
  rw [readIntegers?, toList_integerList, Text.partsAt_intercalate hmap hcomma, List.mapM_map,
    hread, List.mapM_pure]
  rfl

theorem readTexts?_textList {texts : List String} (hne : texts ≠ [])
    (hquote : ∀ s ∈ texts, '\'' ∉ s.toList) : readTexts? (textList texts) = some texts := by
  have hparts : ∀ part ∈ texts.map String.toList, '\'' ∉ part := List.forall_mem_map.2 hquote
  have hmap : texts.map String.toList ≠ [] := by simpa using hne
  have hid : String.ofList ∘ String.toList = id := funext fun s => String.ofList_toList
  rw [readTexts?, toList_textList, unquote?_quoted, Option.map_some,
    Text.partsAt_intercalate hmap hparts, List.map_map, hid, List.map_id]

/-- The list can be read back from its text: it has an item, and none of its texts holds a
quote. -/
inductive Readable : List Value → Prop
  | integers {ns : List Int64} : ns ≠ [] → Readable (ns.map .integer)
  | texts {texts : List String} :
      texts ≠ [] → (∀ s ∈ texts, '\'' ∉ s.toList) → Readable (texts.map .text)

/-- Lists that can be read back and have the same text are the same. -/
theorem Readable.eq_of_encodeItems? {items items' : List Value} {sql : String}
    (h : Readable items) (h' : Readable items') (hsql : encodeItems? items = some sql)
    (hsql' : encodeItems? items' = some sql) : items = items' := by
  cases h with
  | @integers ns hne =>
      obtain rfl := Option.some.inj ((encodeItems?_integers hne).symm.trans hsql)
      cases h' with
      | @integers ns' hne' =>
          have hlist := Option.some.inj ((encodeItems?_integers hne').symm.trans hsql')
          have hread := readIntegers?_integerList hne'
          rw [hlist, readIntegers?_integerList hne, Option.some.injEq,
            List.map_inj_right fun _ _ => Int64.toInt_inj.1] at hread
          rw [hread]
      | @texts texts _ _ =>
          -- Neither reader is of use for both lists: only one of them has a quote.
          have hlist := Option.some.inj ((encodeItems?_texts texts).symm.trans hsql')
          exact absurd hlist.symm (integerList_ne_textList ns texts)
  | @texts texts hne hquote =>
      obtain rfl := Option.some.inj ((encodeItems?_texts texts).symm.trans hsql)
      cases h' with
      | @integers ns hne' =>
          have hlist := Option.some.inj ((encodeItems?_integers hne').symm.trans hsql')
          exact absurd hlist (integerList_ne_textList ns texts)
      | @texts texts' hne' hquote' =>
          have hlist := Option.some.inj ((encodeItems?_texts texts').symm.trans hsql')
          have hread := readTexts?_textList hne' hquote'
          rw [hlist, readTexts?_textList hne hquote, Option.some.injEq] at hread
          rw [hread]

/-- The filter takes a collection just if its items have one type.  A list of integers is read
back at its commas and a list of texts without quotes at its quotes and commas, so different
ones of these lists have different texts. -/
theorem apply_arr (parameter : String) :
    (∀ items, (∃ sql, arr.apply parameter (.collection items) = .ok sql) ↔ OneType items) ∧
      (∀ items, ¬ OneType items →
        arr.apply parameter (.collection items) = .error (.filterType parameter .arr)) ∧
      (∀ ns : List Int64, ns ≠ [] →
        ∃ sql, arr.apply parameter (.collection (ns.map .integer)) = .ok sql ∧
          readIntegers? sql = some (ns.map Int64.toInt)) ∧
      (∀ texts : List String, texts ≠ [] → (∀ s ∈ texts, '\'' ∉ s.toList) →
        ∃ sql, arr.apply parameter (.collection (texts.map .text)) = .ok sql ∧
          readTexts? sql = some texts) ∧
      ∀ items items' sql, Readable items → Readable items' →
        arr.apply parameter (.collection items) = .ok sql →
        arr.apply parameter (.collection items') = .ok sql → items = items' := by
  simp only [apply_collection_eq_ok_iff]
  refine ⟨fun items => ?_, fun items hmixed => ?_, fun ns hne => ?_, fun texts hne hquote => ?_,
    fun items items' sql h h' => h.eq_of_encodeItems? h'⟩
  · rw [← Option.ne_none_iff_exists', ne_eq, encodeItems?_eq_none_iff, not_not]
  · rw [apply_collection, encodeItems?_eq_none_iff.2 hmixed]
  · exact ⟨integerList ns, encodeItems?_integers hne, readIntegers?_integerList hne⟩
  · exact ⟨textList texts, encodeItems?_texts texts, readTexts?_textList hne hquote⟩

/-- An integer and a text do not go into one list, the ends of the range of integers are read
back, and so are texts with commas and without any character. -/
theorem apply_arr_ends :
    arr.apply "ids" (.collection [.integer 1, .text "a"]) = .error (.filterType "ids" .arr) ∧
      (∃ sql, arr.apply "ids" (.collection [.integer Int64.minValue, .integer 0,
          .integer Int64.maxValue]) = .ok sql ∧
        readIntegers? sql = some [-9223372036854775808, 0, 9223372036854775807]) ∧
      (∃ sql, arr.apply "ids" (.collection [.text ",", .text "", .text "a, b"]) = .ok sql ∧
        readTexts? sql = some [",", "", "a, b"]) ∧
      ∀ sql, arr.apply "ids" (.collection [.text "1,2"]) = .ok sql →
        arr.apply "ids" (.collection [.text "1", .text "2"]) ≠ .ok sql := by
  obtain ⟨-, hmixed, hintegers, htexts, hsame⟩ := apply_arr "ids"
  refine ⟨hmixed _ ?_, hintegers [Int64.minValue, 0, Int64.maxValue] (List.cons_ne_nil _ _),
    htexts [",", "", "a, b"] (List.cons_ne_nil _ _) (by decide), fun sql hone htwo => ?_⟩
  · rw [oneType_iff]
    decide
  · have hjoined : Readable (["1,2"].map .text) := .texts (by decide) (by decide)
    have hapart : Readable (["1", "2"].map .text) := .texts (by decide) (by decide)
    exact absurd (congrArg List.length (hsame _ _ sql hjoined hapart hone htwo)) (by decide)

end Filter

end SqlTemplates
