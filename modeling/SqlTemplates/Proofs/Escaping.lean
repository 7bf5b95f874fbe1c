import Mathlib
import SqlTemplates.Proofs.Concatenation

/-!
# Escaping a text

A text can be made a template that prints it, whatever braces it holds: `Tag.escape` puts a
backslash before every opening delimiter.  The template is scanned as the text was escaped,
from one delimiter to the next, and what follows an escaped delimiter is read on its own.
So what is read is the text in pieces (`Event.Reads.escape`), and the pieces print as the text
(`prints_escaped`).

There must be no backslash before a delimiter of the text itself.  Two backslashes are one
backslash of text, and the tag counts.
-/

namespace SqlTemplates

/-! ## Putting backslashes before delimiters -/

namespace Tag

/-- Puts a backslash before every opening delimiter, from left to right. -/
def escape : List Char → List Char
  | [] => []
  | '{' :: '{' :: s => '\\' :: '{' :: '{' :: escape s
  | c :: s => c :: escape s

example : escape "a\x7b\x7b\x7b\x7b\x7bb".toList = "a\\\x7b\x7b\\\x7b\x7b\x7bb".toList := by decide

theorem strip?_openMark_cons {c : Char} {s : List Char}
    (h : ∀ rest, c = '{' → s ≠ '{' :: rest) : Text.strip? openMark (c :: s) = none := by
  rw [Option.eq_none_iff_forall_ne_some]
  intro rest hrest
  obtain ⟨rfl, hs⟩ := List.cons.inj (Text.strip?_eq_some_iff.1 hrest)
  exact h rest rfl hs

/-- A text without delimiters stays as it is. -/
theorem escape_of_cut?_none {s : List Char} (h : Text.cut? openMark s = none) : escape s = s := by
  induction s using escape.induct with
  | case1 => rfl
  | case2 s => cases h
  | case3 c s hnot ih =>
      rw [Text.cut?_cons_of_none (strip?_openMark_cons fun r hc hs => hnot r hc hs),
        Option.map_eq_none_iff] at h
      rw [escape, ih h]
      exact hnot

/-- The first delimiter is escaped, and then what follows it. -/
theorem escape_of_cut? {s lead rest : List Char} (h : Text.cut? openMark s = some (lead, rest)) :
    escape s = lead ++ ['\\'] ++ openMark ++ escape rest := by
  induction s using escape.induct generalizing lead with
  | case1 => cases h
  | case2 s =>
      cases h
      rfl
  | case3 c s hnot ih =>
      rw [Text.cut?_cons_of_none (strip?_openMark_cons fun r hc hs => hnot r hc hs),
        Option.map_eq_some_iff] at h
      obtain ⟨⟨before, after⟩, hcut, ⟨⟩⟩ := h
      rw [escape, ih hcut]
      · rfl
      · exact hnot

/-- No delimiter of the text has a backslash before it. -/
def Slashless (s : List Char) : Prop := ¬ '\\' :: openMark <:+: s

/-- The first tag of an escaped text is its first delimiter, as text. -/
theorem first?_escape {s lead rest : List Char} (h : Text.cut? openMark s = some (lead, rest))
    (hslash : Slashless s) :
    first? (escape s) =
      .ok (some ⟨.escaped, lead, openMark, escape rest, '\\' :: openMark⟩) := by
  have hmark : openMark ≠ [] := List.cons_ne_nil _ _
  have hnone : Text.cut? openMark lead = none :=
    Text.cut?_eq_none_iff.2 (Text.not_infix_of_cut? hmark h)
  have hcut : Text.cut? openMark (lead ++ ['\\'] ++ openMark ++ escape rest) =
      some (lead ++ ['\\'], escape rest) := by
    refine Text.cut?_append_of_some (Text.cut?_append_mark ?_ ?_) (escape rest)
    · exact Text.cut?_concat_of_not_mem hmark (by decide) hnone
    · rw [List.getLast?_concat]
      rintro c ⟨⟩
      decide
  have hlast : lead.getLast? ≠ some '\\' := by
    intro hlast
    obtain ⟨before, rfl⟩ := List.getLast?_eq_some_iff.1 hlast
    refine hslash ⟨before, rest, ?_⟩
    rw [Text.eq_of_cut? h]
    simp
  refine first?_eq_some_iff.2 ⟨_, _, (escape_of_cut? h) ▸ hcut, ?_⟩
  rw [ofCut, Lead.of_slash hlast]

end Tag

/-! ## A text in pieces -/

/-- An escaped text is read as the pieces of the text. -/
theorem Event.Reads.escape {s : List Char} (h : Tag.Slashless s) :
    ∃ pieces : List (List Char), pieces.flatten = s ∧
      Reads (Tag.escape s) (pieces.flatMap rowOfText) := by
  -- The induction is on the length, from one delimiter to what follows it.
  induction hlength : s.length using Nat.strong_induction_on generalizing s with
  | _ length ih =>
      cases hcut : Text.cut? Tag.openMark s with
      | none =>
          have hfirst : Tag.first? s = .ok none := by rw [Tag.first?, hcut]
          have hscan := Tag.scan_of_none hfirst
          rw [Tag.escape_of_cut?_none hcut]
          refine ⟨[s], List.append_nil s, s, by rw [hscan], ?_⟩
          rw [hscan, row_eq, List.flatMap_singleton]
          rfl
      | some found =>
          obtain ⟨lead, rest⟩ := found
          have hslash : Tag.Slashless rest := fun hm =>
            h (hm.trans (Text.suffix_of_cut? hcut).isInfix)
          have hlt := Text.length_lt_of_cut? hcut (List.cons_ne_nil _ _)
          obtain ⟨pieces, rfl, hreads⟩ := ih rest.length (hlength ▸ hlt) hslash rfl
          refine ⟨lead :: Tag.openMark :: pieces, ?_, .cons (Tag.first?_escape hcut h) hreads⟩
          rw [Text.eq_of_cut? hcut, List.append_assoc]
          rfl

namespace Tree

theorem eventsAll_flatMap_ofText (pieces : List (List Char)) :
    eventsAll (pieces.flatMap ofText) = pieces.flatMap Event.rowOfText := by
  induction pieces with
  | nil => rfl
  | cons piece pieces ih =>
      rw [List.flatMap_cons, eventsAll_append, eventsAll_ofText, ih, List.flatMap_cons]

end Tree

theorem Compile.ofTrees_flatMap_ofText (pieces : List (List Char)) :
    ofTrees (pieces.flatMap Tree.ofText) = .ok (pieces.flatMap Node.ofText) := by
  induction pieces with
  | nil => rfl
  | cons piece pieces ih =>
      exact ofTrees_append_eq_ok_iff.2 ⟨_, _, ofTrees_ofText piece, ih, rfl⟩

/-- Pieces of text print as the text. -/
theorem Node.textAll_flatMap_ofText {σ : Type} (resolve : Resolver σ) (ctx : Context)
    (pieces : List (List Char)) :
    textAll resolve ctx (pieces.flatMap ofText) = pure (String.ofList pieces.flatten) := by
  induction pieces with
  | nil => rfl
  | cons piece pieces ih =>
      rw [List.flatMap_cons, textAll_append, textAll_ofText, ih]
      simp only [pure_bind, List.flatten_cons, String.ofList_append]

/-! ## The template of a text -/

/-- The template compiles, and every engine prints it as this text and is left as it was. -/
def Prints (template text : String) : Prop :=
  ∃ node, compile template = .ok node ∧
    ∀ (S : Type) [Source S] (engine : Engine S) (data : Bindings),
      engine.call node data = (.ok text, engine)

/-- A template that is read as pieces of text prints them. -/
theorem prints_of_reads {template : List Char} {pieces : List (List Char)}
    (h : Event.Reads template (pieces.flatMap Event.rowOfText)) :
    Prints (String.ofList template) (String.ofList pieces.flatten) := by
  have hparse : Tree.parse (String.ofList template).toList =
      .ok (pieces.flatMap Tree.ofText) := by
    rw [String.toList_ofList, h.parse_iff, Tree.eventsAll_flatMap_ofText]
  refine ⟨_, compile_eq_ok_iff.2 ⟨_, _, hparse, Compile.ofTrees_flatMap_ofText pieces, rfl⟩, ?_⟩
  intro S _ engine data
  rw [Engine.call, Engine.perform, Engine.callNode_sequence, Node.textAll_flatMap_ofText]
  rfl

/-- The text with a backslash before every opening delimiter. -/
def escaped (text : String) : String := String.ofList (Tag.escape text.toList)

/-- A text none of whose delimiters has a backslash before it is what its escaped form prints,
whatever the engine and the data are.  A text without delimiters prints itself. -/
theorem prints_escaped {text : String} (h : Tag.Slashless text.toList) :
    Prints (escaped text) text ∧
      (¬ Tag.openMark <:+: text.toList → escaped text = text ∧ Prints text text) := by
  have hprints : Prints (escaped text) text := by
    obtain ⟨pieces, hpieces, hreads⟩ := Event.Reads.escape h
    have hall := prints_of_reads hreads
    rwa [hpieces, String.ofList_toList] at hall
  refine ⟨hprints, fun hnone => ?_⟩
  have hsame : escaped text = text := by
    rw [escaped, Tag.escape_of_cut?_none (Text.cut?_eq_none_iff.2 hnone), String.ofList_toList]
  refine ⟨hsame, ?_⟩
  rwa [hsame] at hprints

/-- Five braces in a row, a tag and a delimiter at the end. -/
theorem prints_escaped_braces :
    Tag.Slashless "\x7b\x7b\x7b\x7b\x7b a \\ {{b}}\x7b\x7b".toList ∧
      escaped "\x7b\x7b\x7b\x7b\x7b a \\ {{b}}\x7b\x7b" =
        "\\\x7b\x7b\\\x7b\x7b\x7b a \\ \\{{b}}\\\x7b\x7b" ∧
      Prints "\\\x7b\x7b\\\x7b\x7b\x7b a \\ \\{{b}}\\\x7b\x7b"
        "\x7b\x7b\x7b\x7b\x7b a \\ {{b}}\x7b\x7b" ∧
      Prints "SELECT 1" "SELECT 1" := by
  have hslash : Tag.Slashless "\x7b\x7b\x7b\x7b\x7b a \\ {{b}}\x7b\x7b".toList := by
    rw [Tag.Slashless]
    decide
  have hescaped : escaped "\x7b\x7b\x7b\x7b\x7b a \\ {{b}}\x7b\x7b" =
      "\\\x7b\x7b\\\x7b\x7b\x7b a \\ \\{{b}}\\\x7b\x7b" := by decide
  have hplain : Tag.Slashless "SELECT 1".toList := by
    rw [Tag.Slashless]
    decide
  refine ⟨hslash, hescaped, ?_, ((prints_escaped hplain).2 (by decide)).2⟩
  rw [← hescaped]
  exact (prints_escaped hslash).1

end SqlTemplates
