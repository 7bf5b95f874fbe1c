import SqlTemplates.Proofs.Compiled

/-!
# What compiled templates look like

Compiling checks a template from its tags down to its tokens.  `Node.WellFormed` collects
what the checks come to: which names a node can have, what stands in its texts and where
each kind of node occurs.  Every template that compiles is a row of well-formed nodes
(`compile_wellFormed`), so the evaluation has nothing left to check.

The part about texts comes from the scan.  A search stops at the first mark, so no text
before a tag holds an opening delimiter and no content its closing one (`Tag.Markless`).
The part about names comes from the tokens, which stand in the content as they were
written (`Token.written_of_mem_tokens`).
-/

namespace SqlTemplates

/-! ## Well-formed nodes -/

/-- The text can stand in quotes of one of the two kinds in a tag that ends at this mark. -/
structure Token.QuotableBefore (mark text : List Char) : Prop where
  quotable : ∃ quote, isQuote quote = true ∧ Quotable quote text
  markless : ¬ mark <:+: text

namespace Node

/-- The node is the value of a parameter: a name, or a text in quotes. -/
inductive IsArgument : Node → Prop
  | name {name : String} : Name.isIdentifier name.toList = true → IsArgument (.paramName name)
  | literal {text : String} :
      Token.QuotableBefore Tag.closeMark text.toList → IsArgument (.paramNode (.literal text))

/-- The node can stand in a compiled template, below its root. -/
inductive WellFormed : Node → Prop
  /-- Text is not empty, and holds the opening delimiter only if it is just that. -/
  | content {text : String} :
      text ≠ "" → (text.toList = Tag.openMark ∨ ¬ Tag.openMark <:+: text.toList) →
      WellFormed (.content text)
  | value {name : String} :
      Name.isIdentifier name.toList = true → name ≠ "else" → WellFormed (.value name)
  | literal {text : String} :
      Token.QuotableBefore Tag.wideCloseMark text.toList → WellFormed (.literal text)
  | filter {kind : Filter} {name : String} :
      Name.isIdentifier name.toList = true → WellFormed (.filter kind name)
  | partialCall {kind : Wrapper} {path : String} {params : List (String × Node)} :
      Name.isDotPath path.toList = true →
      (∀ param ∈ params, Name.isIdentifier param.1.toList = true ∧ param.2.IsArgument) →
      WellFormed (.partialCall kind path params)
  | ifBlock {kind : Branch} {name : String} {body : List Node} :
      Name.isIdentifier name.toList = true → (∀ node ∈ body, WellFormed node) →
      WellFormed (.ifBlock kind name body)
  | ifElse {kind : Branch} {name : String} {body elseBody : List Node} :
      Name.isIdentifier name.toList = true → (∀ node ∈ body, WellFormed node) →
      (∀ node ∈ elseBody, WellFormed node) → WellFormed (.ifElse kind name body elseBody)
  | block {kind : Wrapper} {body : List Node} :
      (∀ node ∈ body, WellFormed node) → WellFormed (.block kind body)

end Node

/-! ## Tags between marks -/

namespace Tag

/-- The text before the tag holds no opening delimiter, and its content does not hold the
delimiter that closes a tag of its kind. -/
structure Markless (tag : Tag) : Prop where
  before : ¬ openMark <:+: tag.before
  expression : tag.kind = .expression → ¬ wideCloseMark <:+: tag.content
  inclusion : tag.kind = .inclusion → ¬ closeMark <:+: tag.content

namespace Start

theorem contentOf_isPrefix (inside : List Char) : contentOf inside <+: inside := by
  unfold contentOf
  split
  · exact List.dropLast_prefix inside
  · exact List.prefix_rfl

theorem before_trimMark_isPrefix (start : Start) (s : List Char) :
    (start.trimMark s).1.before <+: start.before := by
  unfold trimMark
  split
  · exact Text.trimEnd_isPrefix start.before
  · exact List.prefix_rfl

variable {start : Start} {s : List Char} {tag : Tag}

theorem markless_close {kind : Kind} {mark : List Char} (h : start.close kind mark s = .ok tag)
    (hbefore : ¬ openMark <:+: start.before) (hmark : mark ≠ [])
    (hexpression : kind = .expression → mark <:+: wideCloseMark)
    (hinclusion : kind = .inclusion → mark <:+: closeMark) : tag.Markless := by
  obtain ⟨inside, rest, hc, -, rfl⟩ := close_eq_ok_iff.1 h
  have hcontent : ¬ mark <:+: contentOf inside := fun hm =>
    Text.not_infix_of_cut? hmark hc (hm.trans (contentOf_isPrefix inside).isInfix)
  exact ⟨hbefore, fun hk hm => hcontent ((hexpression hk).trans hm),
    fun hk hm => hcontent ((hinclusion hk).trans hm)⟩

theorem markless_comment (h : start.comment s = .ok tag)
    (hbefore : ¬ openMark <:+: start.before) : tag.Markless := by
  unfold comment at h
  split at h
  · dsimp only at h
    split at h
    · cases h
    · cases h
      exact ⟨hbefore, nofun, nofun⟩
  · exact markless_close h hbefore (by decide) nofun nofun

theorem markless_tag (h : start.tag s = .ok tag) (hbefore : ¬ openMark <:+: start.before) :
    tag.Markless := by
  unfold Start.tag at h
  split at h
  · cases h
  · next s =>
      -- A third brace may have a trim mark of its own.
      have hwide : ¬ openMark <:+: ((start.push '{').trimMark s).1.before := fun hm =>
        hbefore (hm.trans (before_trimMark_isPrefix (start.push '{') s).isInfix)
      exact markless_close h hwide (by decide) (by decide) (by decide)
  · exact markless_comment h hbefore
  all_goals exact markless_close h hbefore (by decide) (by decide) (by decide)

end Start

/-- The text before a delimiter is left, up to its backslashes. -/
theorem Lead.isPrefix_of {lead text : List Char}
    (h : of lead = .escaped text ∨ of lead = .plain text) : text <+: lead := by
  rcases exists_slashes lead with ⟨s, rfl⟩ | ⟨s, rfl, hs⟩ | hlead
  · rw [of_two_slashes] at h
    obtain rfl : s ++ ['\\'] = text := by simpa using h
    exact ⟨['\\'], by simp⟩
  · rw [of_slash hs] at h
    obtain rfl : s = text := by simpa using h
    exact List.prefix_append s _
  · rw [of_no_slash hlead] at h
    obtain rfl : lead = text := by simpa using h
    exact List.prefix_rfl

/-- The tags of a scan end at their first closing delimiters. -/
theorem markless_of_first? {s : List Char} {tag : Tag} (h : first? s = .ok (some tag)) :
    tag.Markless := by
  obtain ⟨lead, rest, hc, ht⟩ := first?_eq_some_iff.1 h
  have hlead : ∀ text, text <+: lead → ¬ openMark <:+: text := fun text htext hm =>
    Text.not_infix_of_cut? (by decide) hc (hm.trans htext.isInfix)
  unfold ofCut at ht
  split at ht
  · next text hof =>
      cases ht
      exact ⟨hlead _ (Lead.isPrefix_of (.inl hof)), nofun, nofun⟩
  · next text hof =>
      have hstart := Start.before_trimMark_isPrefix ⟨lead, text, openMark⟩ rest
      exact Start.markless_tag ht (hlead _ (hstart.trans (Lead.isPrefix_of (.inr hof))))

end Tag

/-! ## Events of a text -/

namespace Event

/-- What the event of a tag or of a piece of text can hold. -/
def Sound : Event → Prop
  | .text s => s ≠ [] ∧ (s = Tag.openMark ∨ ¬ Tag.openMark <:+: s)
  | .expression content =>
      Text.trim content ≠ Tag.elseContent ∧ ¬ Tag.wideCloseMark <:+: content
  | .inclusion content => ¬ Tag.closeMark <:+: content
  | .opening _ _ | .otherwise | .closing _ => True

theorem sound_rowOfText {s : List Char} (h : ¬ Tag.openMark <:+: s) :
    ∀ e ∈ rowOfText s, e.event.Sound := by
  rw [rowOfText]
  split
  · exact fun e he => nomatch he
  · next hs =>
      rintro e he
      obtain rfl := List.mem_singleton.1 he
      exact ⟨hs, .inr h⟩

theorem sound_rowOfTag {tag : Tag} (h : tag.Markless) : ∀ e ∈ rowOfTag tag, e.event.Sound := by
  unfold rowOfTag
  split
  · exact fun e he => nomatch he
  · intro e he
    obtain rfl := List.mem_singleton.1 he
    exact ⟨List.cons_ne_nil _ _, .inl rfl⟩
  · next hkind =>
      intro e he
      split at he <;> obtain rfl := List.mem_singleton.1 he
      · trivial
      · next helse => exact ⟨helse, h.expression hkind⟩
  · next hkind =>
      intro e he
      obtain rfl := List.mem_singleton.1 he
      exact h.inclusion hkind
  · intro e he
    obtain rfl := List.mem_singleton.1 he
    trivial
  · intro e he
    obtain rfl := List.mem_singleton.1 he
    trivial

end Event

/-- The events of a template are sound. -/
theorem Tree.sound_of_parse {s : List Char} {trees : List Tree} (h : parse s = .ok trees) :
    ∀ e ∈ eventsAll trees, e.event.Sound := by
  obtain ⟨rest, hrest, hrow⟩ := Event.Reads.of_parse h
  rw [← hrow, Event.row]
  intro e he
  rcases List.mem_append.1 he with he | he
  · obtain ⟨tag, htag, he⟩ := List.mem_flatMap.1 he
    have hmarkless := Tag.forall_mem_scan (fun _ _ => Tag.markless_of_first?) s tag htag
    rcases List.mem_append.1 he with he | he
    · exact Event.sound_rowOfText hmarkless.before e he
    · exact Event.sound_rowOfTag hmarkless e he
  · exact Event.sound_rowOfText (Text.cut?_eq_none_iff.1 (Tag.rest_of_scan hrest).2) e he

/-! ## The nodes of tags -/

namespace Token

/-- A literal in a text without the mark can be quoted before the mark. -/
theorem quotableBefore_of_written {mark content text written : List Char}
    (hmark : ¬ mark <:+: content) (h : Written (.literal text) written)
    (hpart : written <:+: content) : QuotableBefore mark text := by
  cases h with
  | @literal quote _ hquote htext =>
      have hinside : text <:+: inQuotes quote text := ⟨[quote], [quote], by simp [inQuotes]⟩
      exact ⟨⟨quote, hquote, htext⟩, fun hm => hmark (hm.trans (hinside.trans hpart))⟩

end Token

namespace Compile

theorem wellFormed_ofExpression {content raw : List Char} {node : Node}
    (hsound : (Event.expression content).Sound) (h : ofExpression content raw = .ok node) :
    node.WellFormed := by
  obtain ⟨found, hfound, h⟩ := bind_eq_ok_iff.1 h
  rw [tokens_eq_ok_iff] at hfound
  split at h
  · cases h
  · next text =>
      cases h
      obtain ⟨written, hwritten, hpart⟩ :=
        Token.written_of_mem_tokens hfound _ (List.mem_singleton.2 rfl)
      refine .literal ?_
      rw [String.toList_ofList]
      exact Token.quotableBefore_of_written hsound.2 hwritten hpart
  · obtain ⟨name, hname, hnode⟩ := bind_eq_ok_iff.1 h
    obtain ⟨rfl, hidentifier⟩ := identifier_eq_ok_iff.1 hname
    cases hnode
    refine .value hidentifier ?_
    rintro rfl
    exact hsound.1 (Token.trim_of_tokens_name hfound)
  · obtain ⟨_, _, h⟩ := bind_eq_ok_iff.1 h
    obtain ⟨kind, _, h⟩ := bind_eq_ok_iff.1 h
    obtain ⟨name, hname, h⟩ := bind_eq_ok_iff.1 h
    cases h
    exact .filter (identifier_eq_ok_iff.1 hname).2
  · cases h

theorem isArgument_ofParameter {raw content : List Char} {token : Token} {param : String × Node}
    (hmark : ¬ Tag.closeMark <:+: content) {written : List Char}
    (hwritten : Token.Written token written) (hpart : written <:+: content)
    (h : ofParameter raw token = .ok param) :
    Name.isIdentifier param.1.toList = true ∧ param.2.IsArgument := by
  cases hwritten with
  | name _ => cases h
  | literal _ _ => cases h
  | @pair key value _ hvalue =>
      rw [ofParameter] at h
      split at h
      · next hkey =>
          obtain ⟨node, hnode, hparam⟩ := bind_eq_ok_iff.1 h
          cases hparam
          rw [String.toList_ofList]
          refine ⟨hkey, ?_⟩
          have hinside : value <:+: content :=
            ((List.suffix_cons '=' value).trans (List.suffix_append key _)).isInfix.trans hpart
          cases hvalue with
          | word hword =>
              rw [ofParameterValue_word hword] at hnode
              split at hnode
              · next hname =>
                  cases hnode
                  exact .name (by rwa [String.toList_ofList])
              · cases hnode
          | quoted hquote htext =>
              rw [ofParameterValue_quoted hquote htext] at hnode
              cases hnode
              refine .literal ?_
              rw [String.toList_ofList]
              exact Token.quotableBefore_of_written hmark (.literal hquote htext) hinside
      · cases h

theorem exists_of_mem_mapM {α β : Type} {f : α → Except Error β} {xs : List α} {ys : List β}
    (h : xs.mapM f = .ok ys) : ∀ y ∈ ys, ∃ x ∈ xs, f x = .ok y := by
  have hall := mapM_eq_ok_iff.1 h
  clear h
  induction hall with
  | nil => exact fun y hy => nomatch hy
  | @cons x y xs ys hxy _ ih =>
      intro z hz
      rcases List.mem_cons.1 hz with rfl | hz
      · exact ⟨x, List.mem_cons_self .., hxy⟩
      · obtain ⟨x', hx', hz⟩ := ih z hz
        exact ⟨x', List.mem_cons_of_mem _ hx', hz⟩

theorem wellFormed_ofInclusion {content raw : List Char} {node : Node}
    (hsound : (Event.inclusion content).Sound) (h : ofInclusion content raw = .ok node) :
    node.WellFormed := by
  obtain ⟨found, hfound, h⟩ := bind_eq_ok_iff.1 h
  rw [tokens_eq_ok_iff] at hfound
  split at h
  · next kindToken pathToken params =>
      obtain ⟨_, _, h⟩ := bind_eq_ok_iff.1 h
      obtain ⟨kind, _, h⟩ := bind_eq_ok_iff.1 h
      obtain ⟨path, hpath, h⟩ := bind_eq_ok_iff.1 h
      obtain ⟨nodes, hnodes, h⟩ := bind_eq_ok_iff.1 h
      cases h
      refine .partialCall (quotedPath_eq_ok_iff.1 hpath).2 fun param hmem => ?_
      obtain ⟨token, htoken, hparam⟩ := exists_of_mem_mapM hnodes param hmem
      obtain ⟨written, hwritten, hpart⟩ := Token.written_of_mem_tokens hfound token
        (List.mem_cons_of_mem _ (List.mem_cons_of_mem _ htoken))
      exact isArgument_ofParameter hsound hwritten hpart hparam
  · cases h

/-! ## The nodes of trees -/

theorem isIdentifier_of_headOf {opening : Opening} {kind : Branch} {name : String}
    (h : headOf opening = .ok (.condition kind name)) : Name.isIdentifier name.toList = true := by
  obtain ⟨args, _, hhead⟩ := bind_eq_ok_iff.1 h
  split at hhead
  · obtain ⟨found, hname, hcondition⟩ := bind_eq_ok_iff.1 hhead
    cases hcondition
    unfold conditionName at hname
    split at hname
    · exact (identifier_eq_ok_iff.1 hname).2
    · cases hname
    · cases hname
  · obtain ⟨wrapper, _, hwrapper⟩ := bind_eq_ok_iff.1 hhead
    split at hwrapper <;> cases hwrapper

mutual

/-- A tree with sound events compiles to a well-formed node. -/
theorem wellFormed_ofTree : ∀ (tree : Tree) {node : Node}, (∀ e ∈ tree.events, e.event.Sound) →
    ofTree tree = .ok node → node.WellFormed
  | .text s, _, hsound, h => by
      obtain ⟨hne, hmark⟩ := hsound ⟨.text s, []⟩ (List.mem_singleton.2 rfl)
      cases h
      refine .content ?_ ?_
      · simpa using hne
      · rwa [String.toList_ofList]
  | .expression content raw, _, hsound, h =>
      wellFormed_ofExpression (hsound ⟨.expression content, raw⟩ (List.mem_singleton.2 rfl)) h
  | .inclusion content raw, _, hsound, h =>
      wellFormed_ofInclusion (hsound ⟨.inclusion content, raw⟩ (List.mem_singleton.2 rfl)) h
  | .block opening body, _, hsound, h => by
      have hbody : ∀ e ∈ Tree.eventsAll body, e.event.Sound := fun e he =>
        hsound e (by simp [Tree.events, he])
      rw [ofTree] at h
      obtain ⟨head, hhead, hnode⟩ := bind_eq_ok_iff.1 h
      cases head with
      | condition kind name =>
          obtain ⟨nodes, hnodes, hpure⟩ := bind_eq_ok_iff.1 hnode
          cases hpure
          exact .ifBlock (isIdentifier_of_headOf hhead) (wellFormed_ofTrees body hbody hnodes)
      | wrapper kind =>
          obtain ⟨nodes, hnodes, hpure⟩ := bind_eq_ok_iff.1 hnode
          cases hpure
          exact .block (wellFormed_ofTrees body hbody hnodes)
  | .blockElse opening body elseBody, _, hsound, h => by
      have hbody : ∀ e ∈ Tree.eventsAll body, e.event.Sound := fun e he =>
        hsound e (by simp [Tree.events, he])
      have helseBody : ∀ e ∈ Tree.eventsAll elseBody, e.event.Sound := fun e he =>
        hsound e (by simp [Tree.events, he])
      rw [ofTree] at h
      obtain ⟨head, hhead, hnode⟩ := bind_eq_ok_iff.1 h
      cases head with
      | condition kind name =>
          obtain ⟨nodes, hnodes, hrest⟩ := bind_eq_ok_iff.1 hnode
          obtain ⟨elseNodes, helseNodes, hpure⟩ := bind_eq_ok_iff.1 hrest
          cases hpure
          exact .ifElse (isIdentifier_of_headOf hhead) (wellFormed_ofTrees body hbody hnodes)
            (wellFormed_ofTrees elseBody helseBody helseNodes)
      | wrapper kind => cases hnode

/-- Trees with sound events compile to well-formed nodes. -/
theorem wellFormed_ofTrees : ∀ (trees : List Tree) {nodes : List Node},
    (∀ e ∈ Tree.eventsAll trees, e.event.Sound) → ofTrees trees = .ok nodes →
      ∀ node ∈ nodes, node.WellFormed
  | [], nodes, _, h => by
      cases h
      exact fun node hnode => nomatch hnode
  | tree :: trees, nodes, hsound, h => by
      obtain ⟨node, rest, hnode, hrest, rfl⟩ := ofTrees_cons_eq_ok_iff.1 h
      rw [Tree.eventsAll] at hsound
      obtain ⟨hfirst, hothers⟩ := List.forall_mem_append.1 hsound
      exact List.forall_mem_cons.2
        ⟨wellFormed_ofTree tree hfirst hnode, wellFormed_ofTrees trees hothers hrest⟩

end

end Compile

/-- What compiles is a sequence of well-formed nodes. -/
theorem compile_wellFormed {template : String} {node : Node} (h : compile template = .ok node) :
    ∃ items, node = .sequence items ∧ ∀ item ∈ items, item.WellFormed := by
  obtain ⟨trees, items, htrees, hitems, rfl⟩ := compile_eq_ok_iff.1 h
  exact ⟨items, rfl, Compile.wellFormed_ofTrees trees (Tree.sound_of_parse htrees) hitems⟩

/-- A block with an escaped delimiter and a partial in it. -/
theorem compile_wellFormed_block :
    ∃ items, compile
        "\x7b\x7b#array\x7d\x7d\\\x7b\x7b\x7b\x7b> include 'p' k='v'\x7d\x7d\x7b\x7b/array\x7d\x7d" =
        .ok (.sequence items) ∧
      items = [.block .array [.content "\x7b\x7b",
        .partialCall .bare "p" [("k", .paramNode (.literal "v"))]]] ∧
      ∀ item ∈ items, item.WellFormed := by
  have hcompile : compile
      "\x7b\x7b#array\x7d\x7d\\\x7b\x7b\x7b\x7b> include 'p' k='v'\x7d\x7d\x7b\x7b/array\x7d\x7d" =
      .ok (.sequence [.block .array [.content "\x7b\x7b",
        .partialCall .bare "p" [("k", .paramNode (.literal "v"))]]]) := by cbv
  obtain ⟨items, he, hitems⟩ := compile_wellFormed hcompile
  cases he
  exact ⟨_, hcompile, rfl, hitems⟩

end SqlTemplates
