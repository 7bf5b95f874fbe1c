import SqlTemplates.Proofs.Sections
import SqlTemplates.Proofs.WellFormed

/-!
# Printing nodes

Every row of well-formed nodes is what some template compiles to, and `Node.printAll`
writes this template (`compile_printAll`).  So well-formed nodes are just those that
templates can have.

Most nodes are printed as one would write them.  Two need care.

* Text cannot stand by itself, as the text after it would be read with it.  So an empty
  comment ends it.  If it ends in a brace or a backslash, a blank keeps the comment's
  delimiter from being read with that, and the comment trims the blank.
* A literal may hold two closing braces, but not three.  So its tag has three.

`Node.PrintsAs` says that a text is read as these nodes whatever text follows it.  It holds
of two texts in a row if it holds of each, and of a section if it holds of its body, so the
proof goes along the nodes.
-/

namespace SqlTemplates

/-! ## The printer -/

/-- The text in quotes that do not end it early, if there are any. -/
def Token.quoted (text : List Char) : List Char :=
  if closeQuote? '\'' false (text ++ ['\'']) = some (text, []) then inQuotes '\'' text
  else inQuotes '"' text

namespace Tag

/-- The expression with three braces around this content. -/
def writeWide (content : List Char) : List Char := openMark ++ '{' :: (content ++ wideCloseMark)

/-- A comment with nothing in it. -/
def emptyComment : List Char := openMark ++ '!' :: closeMark

/-- A comment with nothing in it that trims the text before it. -/
def trimmingComment : List Char := openMark ++ '~' :: '!' :: closeMark

end Tag

namespace Node

/-- A piece of text, and what ends it. -/
def printText (text : List Char) : List Char :=
  if text = Tag.openMark then '\\' :: Tag.openMark
  else if text.getLast? = some '{' ∨ text.getLast? = some '\\' then
    text ++ ' ' :: Tag.trimmingComment
  else text ++ Tag.emptyComment

/-- The value of a parameter. -/
def printArgument : Node → List Char
  | .paramName name => name.toList
  | .paramNode (.literal text) => Token.quoted text.toList
  | _ => []

/-- Parameters, each after a blank. -/
def printParams (params : List (String × Node)) : List Char :=
  params.flatMap fun (key, node) => ' ' :: (key.toList ++ '=' :: node.printArgument)

mutual

/-- A text that compiles to the node.  Parameters have none outside of a partial. -/
def print : Node → List Char
  | .content text => printText text.toList
  | .value name => Tag.write .expression name.toList
  | .literal text => Tag.writeWide (Token.quoted text.toList)
  | .paramName _ | .paramNode _ => []
  | .partialCall kind path params =>
      Tag.write .inclusion (kind.inclusionContent path.toList ++ printParams params)
  | .ifBlock kind condition body =>
      Tag.write .opening (kind.openContent condition.toList) ++
        (printAll body ++ Tag.write .closing kind.name.toList)
  | .ifElse kind condition body elseBody =>
      Tag.write .opening (kind.openContent condition.toList) ++
        (printAll body ++ (Tag.write .expression Tag.elseContent ++
          (printAll elseBody ++ Tag.write .closing kind.name.toList)))
  | .filter kind name => Tag.write .expression (kind.name.toList ++ ' ' :: name.toList)
  | .block kind body =>
      Tag.write .opening kind.blockName.toList ++
        (printAll body ++ Tag.write .closing kind.blockName.toList)
  | .sequence items => printAll items

/-- The texts of some nodes in a row. -/
def printAll : List Node → List Char
  | [] => []
  | node :: nodes => node.print ++ printAll nodes

end

end Node

/-! ## First tags -/

namespace Tag

/-- The comment ends the text before it. -/
theorem first?_emptyComment {text : List Char} (hnone : Text.cut? openMark text = none)
    (hend : EndsPlain text) (t : List Char) :
    first? (text ++ emptyComment ++ t) = .ok (some ⟨.comment, text, [], t, emptyComment⟩) := by
  have hcut : Text.cut? openMark (emptyComment ++ t) = some ([], '!' :: (closeMark ++ t)) := rfl
  refine first?_eq_some_iff.2 ⟨text, '!' :: (closeMark ++ t), ?_, ?_⟩
  · rw [List.append_assoc, cut?_openMark_append hnone (fun c hc => (hend c hc).1), hcut]
    simp
  · rw [ofCut, Lead.of_endsPlain hend]
    rfl

/-- The comment takes the blank that keeps it from the text before it. -/
theorem first?_trimmingComment {text : List Char} (hnone : Text.cut? openMark text = none)
    (hend : Text.EndsSolid text) (t : List Char) :
    first? (text ++ ' ' :: trimmingComment ++ t) =
      .ok (some ⟨.comment, text, [], t, trimmingComment⟩) := by
  have hspace : EndsPlain (text ++ [' ']) := fun c hc => by
    rw [List.getLast?_concat] at hc
    cases hc
    decide
  have hcut : Text.cut? openMark (trimmingComment ++ t) =
      some ([], '~' :: '!' :: (closeMark ++ t)) := rfl
  have htrim : Text.trimEnd (text ++ [' ']) = text := by
    have hblank : Text.trimEnd [' '] = [] := by decide
    rw [Text.trimEnd_append hend, hblank, List.append_nil]
  refine first?_eq_some_iff.2 ⟨text ++ [' '], '~' :: '!' :: (closeMark ++ t), ?_, ?_⟩
  · have hassoc : text ++ ' ' :: trimmingComment ++ t =
        (text ++ [' ']) ++ (trimmingComment ++ t) := by
      simp
    rw [hassoc, cut?_openMark_append (Text.cut?_concat_of_not_mem (by decide) (by decide) hnone)
      (fun c hc => (hspace c hc).1), hcut]
    simp
  · rw [ofCut, Lead.of_endsPlain hspace]
    simp only [Start.trimMark, htrim]
    rfl

theorem first?_escaped (t : List Char) :
    first? ('\\' :: openMark ++ t) = .ok (some ⟨.escaped, [], openMark, t, '\\' :: openMark⟩) := rfl

end Tag

/-! ## Literals -/

namespace Token

/-- A text that can be quoted is quoted. -/
theorem exists_quoted_eq {text : List Char}
    (h : ∃ quote, isQuote quote = true ∧ Quotable quote text) :
    ∃ quote, isQuote quote = true ∧ Quotable quote text ∧ quoted text = inQuotes quote text := by
  rw [quoted]
  split
  · next hclose =>
      exact ⟨'\'', by decide, (quotable_of_closeQuote? (by decide) hclose).1, rfl⟩
  · next hclose =>
      obtain ⟨quote, hquote, htext⟩ := h
      simp only [isQuote, Bool.or_eq_true, decide_eq_true_eq] at hquote
      rcases hquote with rfl | rfl
      · exact absurd (closeQuote?_append (by decide) htext []) hclose
      · exact ⟨'"', by decide, htext, rfl⟩

theorem ne_of_isQuote {quote c : Char} (h : isQuote quote = true) (hc : isQuote c = false) :
    quote ≠ c := by
  rintro rfl
  rw [h] at hc
  cases hc

theorem getLast?_inQuotes (quote : Char) (text : List Char) :
    (inQuotes quote text).getLast? = some quote := by
  rw [inQuotes, ← List.cons_append, List.getLast?_concat]

/-- Quotes do not become a part of a mark. -/
theorem cut?_inQuotes {mark text : List Char} {quote : Char} (hmark : mark ≠ [])
    (hquote : quote ∉ mark) (h : ¬ mark <:+: text) : Text.cut? mark (inQuotes quote text) = none := by
  have hopen : Text.cut? mark [quote] = none :=
    Text.cut?_concat_of_not_mem hmark hquote (Text.cut?_eq_none_iff.2 fun hm =>
      hmark (List.infix_nil.1 hm))
  have hclose := Text.cut?_concat_of_not_mem hmark hquote (Text.cut?_eq_none_iff.2 h)
  rw [inQuotes, ← List.singleton_append, Text.cut?_append_of_none hopen
    (fun c hc => by cases hc; exact hquote), hclose]
  rfl

end Token

/-- A quoted text can be written in a tag with three braces. -/
theorem Tag.first?_writeWide {quote : Char} {text : List Char} (hquote : Token.isQuote quote = true)
    (h : ¬ wideCloseMark <:+: text) (t : List Char) :
    first? (writeWide (Token.inQuotes quote text) ++ t) =
      .ok (some ⟨.expression, [], Token.inQuotes quote text, t,
        writeWide (Token.inQuotes quote text)⟩) := by
  have hbrace : quote ∉ wideCloseMark := by
    simpa [wideCloseMark] using Token.ne_of_isQuote (c := '}') hquote (by decide)
  have htilde : quote ≠ '~' := Token.ne_of_isQuote hquote (by decide)
  have hlast := Token.getLast?_inQuotes quote text
  have hends : Text.cut? wideCloseMark (Token.inQuotes quote text ++ wideCloseMark) =
      some (Token.inQuotes quote text, []) :=
    Text.cut?_append_mark (Token.cut?_inQuotes (by decide) hbrace h)
      fun c hc => by rw [hlast] at hc; cases hc; exact hbrace
  have huntrimmed : (Token.inQuotes quote text).getLast? ≠ some '~' := by
    rw [hlast]
    exact fun he => htilde (Option.some.inj he)
  have hsolid : Text.isAllBlank (Token.inQuotes quote text) = false := by
    simp [Token.inQuotes, Text.isAllBlank, Token.isBlank_of_isQuote hquote]
  have hwrite : writeWide (Token.inQuotes quote text) ++ t =
      openMark ++ '{' :: (Token.inQuotes quote text ++ (wideCloseMark ++ t)) := by
    simp [writeWide]
  have hclose : Start.close ⟨[], [], openMark ++ ['{']⟩ .expression wideCloseMark
      (Token.inQuotes quote text ++ (wideCloseMark ++ t)) = .ok _ :=
    Start.close_append_mark _ hends huntrimmed hsolid t
  rw [hwrite]
  refine first?_eq_some_iff.2 ⟨[], _, Text.cut?_append_of_not_mem List.not_mem_nil _, ?_⟩
  have hlead : Lead.of [] = .plain [] := rfl
  rw [ofCut, hlead]
  simp only [Start.trimMark_of_ne (show '{' ≠ '~' by decide), Start.tag]
  rw [Token.inQuotes, List.cons_append, Start.trimMark_of_ne htilde]
  simpa [Start.push, Token.inQuotes, writeWide] using hclose

/-! ## Reading what was printed -/

namespace Node

/-- The text is read as these nodes, whatever text follows it. -/
def PrintsAs (text : List Char) (nodes : List Node) : Prop :=
  ∃ trees, Compile.ofTrees trees = .ok nodes ∧
    ∀ {t : List Char} {es : List Event.Located},
      Event.Reads t es → Event.Reads (text ++ t) (Tree.eventsAll trees ++ es)

namespace PrintsAs

variable {s t : List Char} {xs ys : List Node}

theorem nil : PrintsAs [] [] := ⟨[], rfl, fun h => h⟩

theorem append (hs : PrintsAs s xs) (ht : PrintsAs t ys) : PrintsAs (s ++ t) (xs ++ ys) := by
  obtain ⟨trees, hxs, hreads⟩ := hs
  obtain ⟨trees', hys, hreads'⟩ := ht
  refine ⟨trees ++ trees', Compile.ofTrees_append_eq_ok_iff.2 ⟨xs, ys, hxs, hys, rfl⟩, fun h => ?_⟩
  rw [Tree.eventsAll_append, List.append_assoc, List.append_assoc]
  exact hreads (hreads' h)

/-- A template is what its nodes print as. -/
theorem compile_eq (h : PrintsAs s xs) : compile (String.ofList s) = .ok (.sequence xs) := by
  obtain ⟨trees, hxs, hreads⟩ := h
  have hall := hreads .nil
  rw [List.append_nil, List.append_nil] at hall
  refine compile_eq_ok_iff.2 ⟨trees, xs, ?_, hxs, rfl⟩
  rw [String.toList_ofList, hall.parse_iff]

/-- A tag that is found whatever follows it is read as the node of its tree. -/
theorem of_first? (tree : Tree) {kind : Tag.Kind} {before content raw : List Char} {node : Node}
    (hfirst : ∀ t, Tag.first? (s ++ t) = .ok (some ⟨kind, before, content, t, raw⟩))
    (hevents : Event.rowOfText before ++ Event.rowOfTag ⟨kind, before, content, [], raw⟩ =
      tree.events)
    (hnode : Compile.ofTree tree = .ok node) : PrintsAs s [node] := by
  refine ⟨[tree], Compile.ofTrees_singleton hnode, fun {t es} h => ?_⟩
  have hreads := Event.Reads.cons (hfirst t) h
  rw [← List.append_assoc] at hreads
  rwa [Tree.eventsAll, Tree.eventsAll, List.append_nil, ← hevents]

/-- An expression that is not an else is read as its node. -/
theorem expression {content raw : List Char} {node : Node}
    (hfirst : ∀ t, Tag.first? (s ++ t) = .ok (some ⟨.expression, [], content, t, raw⟩))
    (hword : Text.trim content ≠ Tag.elseContent)
    (hnode : Compile.ofExpression content raw = .ok node) : PrintsAs s [node] :=
  of_first? (.expression content raw) hfirst (if_neg hword) (by rw [Compile.ofTree, hnode])

/-- A piece of text and the comment after it. -/
theorem content {text : String} (hne : text ≠ "")
    (hmark : text.toList = Tag.openMark ∨ ¬ Tag.openMark <:+: text.toList) :
    PrintsAs (printText text.toList) [.content text] := by
  have hevent : ∀ {s raw : List Char}, s ≠ [] →
      Event.rowOfText s ++ Event.rowOfTag ⟨.comment, s, [], [], raw⟩ = Tree.events (.text s) :=
    fun {s raw} hs => by rw [Event.rowOfText, if_neg hs]; rfl
  have hnode : Compile.ofTree (.text text.toList) = .ok (.content text) := by
    rw [Compile.ofTree, String.ofList_toList]
  have hfull : text.toList ≠ [] := by simpa using hne
  rw [printText]
  split
  · next heq =>
      -- The delimiter is text because of its backslash, and needs nothing to end it.
      rw [heq] at hnode
      exact of_first? _ Tag.first?_escaped rfl hnode
  · next heq =>
      have hnone := Text.cut?_eq_none_iff.2 (hmark.resolve_left heq)
      split
      · next hlast =>
          -- A brace or a backslash is no blank, so the comment trims its own blank only.
          refine of_first? _ (Tag.first?_trimmingComment hnone fun c hc => ?_) (hevent hfull) hnode
          rw [Option.mem_def] at hc
          rcases hlast with h | h <;> rw [h] at hc <;> cases hc <;> decide
      · next hlast =>
          refine of_first? _ (Tag.first?_emptyComment hnone fun c hc => ?_) (hevent hfull) hnode
          rw [not_or] at hlast
          exact ⟨fun he => hlast.1 (he ▸ hc), fun he => hlast.2 (he ▸ hc)⟩

theorem value {name : String} (h : Name.isIdentifier name.toList = true) (helse : name ≠ "else") :
    PrintsAs (Tag.write .expression name.toList) [.value name] := by
  have hword : Text.trim name.toList ≠ Tag.elseContent := by
    rw [Text.trim_of_solid (Name.solid_of_isIdentifier h)]
    exact fun he => helse (String.toList_inj.1 he)
  refine expression (Tag.first?_write_append (Tag.writable_identifier (by decide) h)) hword ?_
  exact Compile.bind_eq_ok_iff.2 ⟨_, Compile.tokens_identifier h,
    Compile.bind_eq_ok_iff.2 ⟨name, Compile.identifier_eq_ok_iff.2 ⟨rfl, h⟩, rfl⟩⟩

theorem filter (kind : Filter) {name : String} (h : Name.isIdentifier name.toList = true) :
    PrintsAs (Tag.write .expression (kind.name.toList ++ ' ' :: name.toList))
      [.filter kind name] := by
  have hkind : Name.isIdentifier kind.name.toList = true := by cases kind <;> decide
  have htokens : Token.tokens (kind.name.toList ++ ' ' :: name.toList) =
      .ok [.name kind.name.toList, .name name.toList] := by
    have hrow := Token.tokens_row (.name (Token.isWord_of_isIdentifier hkind))
      (.cons_space (.name (Token.isWord_of_isIdentifier h)) .nil)
    rwa [List.append_nil] at hrow
  have hwords : Text.trim (kind.name.toList ++ ' ' :: name.toList) ≠ Tag.elseContent := by
    have hkindWord := Token.isWord_of_isIdentifier hkind
    have hword := Token.isWord_of_isIdentifier h
    rw [Text.trim_of_solid (hkindWord.solid_text.append_cons hkindWord.ne_nil hword.solid_text
      hword.ne_nil ' ')]
    intro helse
    have hmem : ' ' ∈ kind.name.toList ++ ' ' :: name.toList := by simp
    rw [helse] at hmem
    exact absurd hmem (by decide)
  refine expression (Tag.first?_write_append (Tag.writable_words (by decide) hkind h)) hwords ?_
  refine Compile.bind_eq_ok_iff.2 ⟨_, Compile.tokens_eq_ok_iff.2 htokens, ?_⟩
  refine Compile.bind_eq_ok_iff.2 ⟨_, Compile.identifier_eq_ok_iff.2 ⟨rfl, hkind⟩, ?_⟩
  refine Compile.bind_eq_ok_iff.2 ⟨kind, ?_, ?_⟩
  · rw [Compile.filterNamed, Filter.ofName?_name]
  · exact Compile.bind_eq_ok_iff.2 ⟨name, Compile.identifier_eq_ok_iff.2 ⟨rfl, h⟩, rfl⟩

theorem literal {text : String} (h : Token.QuotableBefore Tag.wideCloseMark text.toList) :
    PrintsAs (Tag.writeWide (Token.quoted text.toList)) [.literal text] := by
  obtain ⟨quote, hquote, htext, heq⟩ := Token.exists_quoted_eq h.quotable
  rw [heq]
  have hword : Text.trim (Token.inQuotes quote text.toList) ≠ Tag.elseContent := by
    rw [Text.trim_of_solid (Token.solid_inQuotes hquote _)]
    exact fun he => Token.ne_of_isQuote hquote (by decide) (List.cons.inj he).1
  refine expression (Tag.first?_writeWide hquote h.markless) hword ?_
  refine Compile.bind_eq_ok_iff.2
    ⟨_, Compile.tokens_eq_ok_iff.2 (Token.tokens_written (.literal hquote htext)), ?_⟩
  dsimp only
  rw [String.ofList_toList]
  rfl

end PrintsAs

/-! ## Partials -/

/-- A parameter that was printed can be read in the tag of a partial. -/
theorem IsArgument.printed {node : Node} (h : node.IsArgument) :
    Token.IsValue node.printArgument ∧ Tag.Closable node.printArgument := by
  cases h with
  | name h => exact ⟨.word (Token.isWord_of_isIdentifier h), Tag.closable_of_isIdentifier h⟩
  | @literal text h =>
      obtain ⟨quote, hquote, htext, heq⟩ := Token.exists_quoted_eq h.quotable
      have hbrace : quote ≠ '}' := Token.ne_of_isQuote hquote (by decide)
      have htilde : quote ≠ '~' := Token.ne_of_isQuote hquote (by decide)
      rw [printArgument, heq]
      refine ⟨.quoted hquote htext, ?_, fun c hc => ?_⟩
      · exact Token.cut?_inQuotes (by decide) (by simpa [Tag.closeMark] using hbrace) h.markless
      · rw [Token.getLast?_inQuotes] at hc
        cases hc
        exact ⟨hbrace, htilde⟩

/-- The token of a printed parameter. -/
def paramToken (param : String × Node) : Token :=
  .pair param.1.toList param.2.printArgument

theorem ofParameter_paramToken {param : String × Node}
    (hkey : Name.isIdentifier param.1.toList = true) (h : param.2.IsArgument) (raw : List Char) :
    Compile.ofParameter raw (paramToken param) = .ok param := by
  obtain ⟨key, node⟩ := param
  have hnode : Compile.ofParameterValue raw node.printArgument = .ok node := by
    cases h with
    | @name name h =>
        rw [printArgument, Compile.ofParameterValue_word (Token.isWord_of_isIdentifier h), if_pos h,
          String.ofList_toList]
    | @literal text h =>
        obtain ⟨quote, hquote, htext, heq⟩ := Token.exists_quoted_eq h.quotable
        rw [printArgument, heq, Compile.ofParameterValue_quoted hquote htext, String.ofList_toList]
  rw [paramToken, Compile.ofParameter, if_pos hkey, String.ofList_toList]
  exact Compile.bind_eq_ok_iff.2 ⟨node, hnode, rfl⟩

section

variable {params : List (String × Node)}
  (h : ∀ param ∈ params, Name.isIdentifier param.1.toList = true ∧ param.2.IsArgument)

include h

theorem row_printParams : Token.Row (params.map paramToken) (printParams params) := by
  induction params with
  | nil => exact .nil
  | cons param params ih =>
      obtain ⟨⟨hkey, hargument⟩, hothers⟩ := List.forall_mem_cons.1 h
      exact .cons_space (.pair (Token.isWord_of_isIdentifier hkey) hargument.printed.1)
        (ih hothers)

theorem closable_printParams : Tag.Closable (printParams params) := by
  induction params with
  | nil => exact .nil
  | cons param params ih =>
      obtain ⟨⟨hkey, hargument⟩, hothers⟩ := List.forall_mem_cons.1 h
      have hspace : Tag.Closable [' '] := .of_not_mem (by decide) (by decide)
      have hequals : Tag.Closable ['='] := .of_not_mem (by decide) (by decide)
      have hall := (((hspace.append (Tag.closable_of_isIdentifier hkey)).append hequals).append
        hargument.printed.2).append (ih hothers)
      simpa [printParams] using hall

theorem mapM_ofParameter (raw : List Char) :
    (params.map paramToken).mapM (Compile.ofParameter raw) = .ok params :=
  Compile.mapM_eq_ok_iff.2 <| List.forall₂_map_left_iff.2 <| List.forall₂_same.2
    fun param hparam => ofParameter_paramToken (h param hparam).1 (h param hparam).2 raw

theorem PrintsAs.partialCall (kind : Wrapper) {path : String}
    (hpath : Name.isDotPath path.toList = true) :
    PrintsAs (Tag.write .inclusion (kind.inclusionContent path.toList ++ printParams params))
      [.partialCall kind path params] := by
  have hwritable := kind.writable_inclusionContent_append hpath (closable_printParams h)
  refine of_first? (.inclusion _ _) (Tag.first?_write_append hwritable) rfl ?_
  rw [Compile.ofTree]
  exact Compile.ofInclusion_inclusionContent_append kind hpath (row_printParams h)
    (mapM_ofParameter h _)

end

/-! ## Sections -/

namespace PrintsAs

variable {body elseBody content name : List Char} {nodes elseNodes : List Node} {node : Node}

/-- A section is read as a node if its tags can be written and its body is read. -/
theorem block (h : PrintsAs body nodes) (hopen : Tag.Writable .opening content)
    (hclose : Tag.Writable .closing name) (hname : Text.trim name = Event.sectionName content)
    (hnode : ∀ {trees}, Compile.ofTrees trees = .ok nodes →
      Compile.ofTree (.block (.ofContent content) trees) = .ok node) :
    PrintsAs (Tag.write .opening content ++ (body ++ Tag.write .closing name)) [node] := by
  obtain ⟨trees, hnodes, hreads⟩ := h
  refine ⟨[.block (.ofContent content) trees], Compile.ofTrees_singleton (hnode hnodes),
    fun {t es} ht => ?_⟩
  have hall := Event.Reads.block hopen hname (hreads (Event.Reads.tag hclose ht))
  simpa [Tree.eventsAll] using hall

theorem blockElse (h : PrintsAs body nodes) (helse : PrintsAs elseBody elseNodes)
    (hopen : Tag.Writable .opening content) (hclose : Tag.Writable .closing name)
    (hname : Text.trim name = Event.sectionName content)
    (hnode : ∀ {trees elseTrees}, Compile.ofTrees trees = .ok nodes →
      Compile.ofTrees elseTrees = .ok elseNodes →
      Compile.ofTree (.blockElse (.ofContent content) trees elseTrees) = .ok node) :
    PrintsAs (Tag.write .opening content ++ (body ++ (Tag.write .expression Tag.elseContent ++
      (elseBody ++ Tag.write .closing name)))) [node] := by
  obtain ⟨trees, hnodes, hreads⟩ := h
  obtain ⟨elseTrees, helseNodes, helseReads⟩ := helse
  refine ⟨[.blockElse (.ofContent content) trees elseTrees],
    Compile.ofTrees_singleton (hnode hnodes helseNodes), fun {t es} ht => ?_⟩
  have hall := Event.Reads.blockElse hopen hname
    (hreads (Event.Reads.tag Tag.writable_elseContent (helseReads (Event.Reads.tag hclose ht))))
  simpa [Tree.eventsAll] using hall

theorem all {nodes : List Node} (h : ∀ node ∈ nodes, PrintsAs node.print [node]) :
    PrintsAs (printAll nodes) nodes := by
  induction nodes with
  | nil => exact nil
  | cons node nodes ih =>
      obtain ⟨hnode, hnodes⟩ := List.forall_mem_cons.1 h
      exact hnode.append (ih hnodes)

end PrintsAs

/-- A well-formed node is read from what it prints. -/
theorem WellFormed.printsAs {node : Node} (h : node.WellFormed) : PrintsAs node.print [node] := by
  induction h with
  | content hne hmark => exact .content hne hmark
  | value h helse => exact .value h helse
  | literal h => exact .literal h
  | filter h => exact .filter _ h
  | partialCall hpath hparams => exact .partialCall hparams _ hpath
  | @ifBlock kind name body hname _ ih =>
      exact (PrintsAs.all ih).block (kind.writable_openContent hname) kind.writable_name
        (by rw [kind.trim_name, (kind.section_openContent hname).1])
        (Compile.ofTree_openContent kind hname)
  | @ifElse kind name body elseBody hname _ _ ih ihElse =>
      exact (PrintsAs.all ih).blockElse (PrintsAs.all ihElse) (kind.writable_openContent hname)
        kind.writable_name (by rw [kind.trim_name, (kind.section_openContent hname).1])
        (Compile.ofTree_openContent_else kind hname)
  | @block kind body _ ih =>
      exact (PrintsAs.all ih).block
        (Tag.writable_identifier (by decide) kind.isIdentifier_blockName)
        (Tag.writable_identifier (by decide) kind.isIdentifier_blockName)
        (by cases kind <;> decide) (Compile.ofTree_blockName kind)

end Node

/-- Well-formed nodes are what the template that they print compiles to. -/
theorem compile_printAll {items : List Node} (h : ∀ item ∈ items, item.WellFormed) :
    compile (String.ofList (Node.printAll items)) = .ok (.sequence items) :=
  (Node.PrintsAs.all fun item hitem => (h item hitem).printsAs).compile_eq

/-- A text that ends in a backslash, and the delimiter as text. -/
example : String.ofList (Node.printAll [.content "a\\", .content "\x7b\x7b", .value "x"]) =
    "a\\ \x7b\x7b~!\x7d\x7d\\\x7b\x7b\x7b\x7bx\x7d\x7d" := by decide

/-- Texts that end in a backslash and in a brace, the delimiter as text, and a literal with
both a quote and braces in it. -/
theorem compile_printAll_section :
    ∃ items : List Node,
      items = [.content "a\\", .content "\x7b\x7b", .ifElse .whenFalse "x"
        [.content "b\x7b", .literal "it's \x7d\x7d"]
        [.partialCall .object "p.q" [("k", .paramName "n")]]] ∧
      (∀ item ∈ items, item.WellFormed) ∧
      compile (String.ofList (Node.printAll items)) = .ok (.sequence items) := by
  have hliteral : Token.QuotableBefore Tag.wideCloseMark "it's \x7d\x7d".toList :=
    ⟨⟨'"', by decide, .of_not_mem (by decide) (by decide)⟩, by decide⟩
  have hpartial : (Node.partialCall .object "p.q" [("k", .paramName "n")]).WellFormed :=
    .partialCall (by decide) fun param hparam => by
      cases List.mem_singleton.1 hparam
      exact ⟨by decide, .name (by decide)⟩
  have hitems : ∀ item ∈ ([.content "a\\", .content "\x7b\x7b", .ifElse .whenFalse "x"
      [.content "b\x7b", .literal "it's \x7d\x7d"]
      [.partialCall .object "p.q" [("k", .paramName "n")]]] : List Node), item.WellFormed := by
    simp only [List.forall_mem_cons, List.not_mem_nil, false_implies, implies_true, and_true]
    refine ⟨.content (by decide) (.inr (by decide)), .content (by decide) (.inl (by decide)),
      .ifElse (by decide) ?_ ?_⟩
    · simp only [List.forall_mem_cons, List.not_mem_nil, false_implies, implies_true, and_true]
      exact ⟨.content (by decide) (.inr (by decide)), .literal hliteral⟩
    · simpa using hpartial
  exact ⟨_, rfl, hitems, compile_printAll hitems⟩

end SqlTemplates
