import SqlTemplates.Proofs.Tokens
import SqlTemplates.Proofs.Written
import SqlTemplates.Template.Compile

/-!
# Compiling a block and an included template

Two templates that are written around what they use: `Wrapper.blockAround` puts a text
into a block, and `Wrapper.inclusion` includes a stored template under its path.  The
first compiles to a block of what the text compiles to (`compile_blockAround`), and the
second to a partial (`compile_inclusion`).

A dot path can be quoted as it is, since it has neither quotes nor backslashes, and an
identifier can stand in any tag (`Tag.writable_identifier`).  What it takes for a step of
the compiler to give a value is said once for each (`Compile.identifier_eq_ok_iff`,
`compile_eq_ok_iff` and the like).
-/

namespace SqlTemplates

/-! ## The templates -/

namespace Wrapper

/-- The template that is one block around a text. -/
def blockAround (kind : Wrapper) (text : String) : String :=
  "\x7b\x7b#" ++ kind.blockName ++ "\x7d\x7d" ++ text ++ "\x7b\x7b/" ++ kind.blockName ++ "\x7d\x7d"

/-- The template that only includes the one stored under a path. -/
def inclusion (kind : Wrapper) (path : String) : String :=
  "\x7b\x7b> " ++ kind.partialName ++ " '" ++ path ++ "'\x7d\x7d"

theorem toList_blockAround (kind : Wrapper) (text : String) :
    (kind.blockAround text).toList =
      Tag.write .opening kind.blockName.toList ++
        (text.toList ++ Tag.write .closing kind.blockName.toList) := by
  simp [blockAround, Tag.write, Tag.Kind.sign, Tag.openMark, Tag.closeMark]

/-- What stands in the tag of an included template. -/
def inclusionContent (kind : Wrapper) (path : List Char) : List Char :=
  ' ' :: (kind.partialName.toList ++ ' ' :: '\'' :: (path ++ ['\'']))

theorem toList_inclusion (kind : Wrapper) (path : String) :
    (kind.inclusion path).toList =
      Tag.write .inclusion (kind.inclusionContent path.toList) := by
  simp [inclusion, inclusionContent, Tag.write, Tag.Kind.sign, Tag.openMark, Tag.closeMark]

end Wrapper

/-! ## Names and paths as tokens -/

/-- A dot path holds the characters of segments and dots only. -/
theorem Name.not_mem_of_isDotPath {s : List Char} {c : Char} (h : isDotPath s = true)
    (hc : isSegmentChar c = false) (hdot : c ≠ '.') : c ∉ s := by
  intro hm
  rw [← Text.joinWith_splitOn '.' s, Text.joinWith_eq_intercalate] at hm
  rcases Text.mem_intercalate hm with hm | ⟨part, hpart, hm⟩
  · exact hdot (List.mem_singleton.1 hm)
  · have hsegment : isSegment part = true := List.all_eq_true.1 h part hpart
    simp only [isSegment, Bool.and_eq_true, List.all_eq_true] at hsegment
    rw [hsegment.2 c hm] at hc
    cases hc

namespace Name

/-- The characters of identifiers are no blanks. -/
theorem isBlank_of_isWordChar {c : Char} (h : isWordChar c = true) : Text.isBlank c = false := by
  have hval : c.toNat = c.val.toNat := rfl
  simp only [isWordChar, Char.isAlphanum, Char.isAlpha, Char.isUpper, Char.isLower, Char.isDigit,
    Bool.or_eq_true, Bool.and_eq_true, decide_eq_true_eq, ge_iff_le, UInt32.le_iff_toNat_le] at h
  rcases h with h | rfl
  · simp only [Text.isBlank, Text.blankRanges, List.any_cons, List.any_nil, Bool.or_false,
      Bool.or_eq_false_iff, Bool.and_eq_false_iff, decide_eq_false_iff_not, hval]
    simp only [Char.isValue, Char.reduceVal, UInt32.reduceToNat] at h
    omega
  · decide

theorem isWordChar_of_isIdentifier {s : List Char} (h : isIdentifier s = true) :
    ∀ c ∈ s, isWordChar c = true := by
  cases s with
  | nil => cases h
  | cons c s =>
      simp only [isIdentifier, Bool.and_eq_true, Bool.or_eq_true, decide_eq_true_eq,
        List.all_eq_true] at h
      refine List.forall_mem_cons.2 ⟨?_, h.2⟩
      rcases h.1 with hc | rfl
      · simp [isWordChar, Char.isAlphanum, hc]
      · decide

/-- An identifier holds no other characters. -/
theorem not_mem_of_isIdentifier {s : List Char} {c : Char} (h : isIdentifier s = true)
    (hc : isWordChar c = false) : c ∉ s := by
  intro hm
  rw [isWordChar_of_isIdentifier h c hm] at hc
  cases hc

end Name

/-- An identifier can be written as a name. -/
theorem Token.isWord_of_isIdentifier {s : List Char} (h : Name.isIdentifier s = true) :
    IsWord s where
  ne_nil := by
    rintro rfl
    cases h
  unquoted c hc := by
    have hword := Name.isWordChar_of_isIdentifier h c (List.mem_of_mem_head? hc)
    by_contra hquote
    simp only [isQuote, Bool.not_eq_false, Bool.or_eq_true, decide_eq_true_eq] at hquote
    rcases hquote with rfl | rfl <;> exact absurd hword (by decide)
  solid c hc := by
    have hword := Name.isWordChar_of_isIdentifier h c hc
    have hequals : c ≠ '=' := by
      rintro rfl
      exact absurd hword (by decide)
    simp [isWordChar, Name.isBlank_of_isWordChar hword, hequals]

/-- A dot path can be quoted as it is. -/
theorem Token.written_path {path : List Char} (h : Name.isDotPath path = true) :
    Written (.literal path) (inQuotes '\'' path) :=
  .literal (by decide) (.of_not_mem (Name.not_mem_of_isDotPath h (by decide) (by decide))
    (Name.not_mem_of_isDotPath h (by decide) (by decide)))

/-! ## What compiles -/

namespace Compile

section

variable {α β : Type}

/-- A computation that goes on gives a value if both parts do. -/
theorem bind_eq_ok_iff {x : Except Error α} {f : α → Except Error β} {b : β} :
    (x >>= f) = .ok b ↔ ∃ a, x = .ok a ∧ f a = .ok b := by
  cases x <;> simp [bind, Except.bind]

theorem pure_eq_ok_iff {a b : α} : (pure a : Except Error α) = .ok b ↔ b = a := by
  simp [pure, Except.pure, eq_comm]

theorem mapError_eq_ok_iff {x : Except SyntaxError α} {a : α} :
    x.mapError Error.syntaxError = .ok a ↔ x = .ok a := by
  cases x <;> simp [Except.mapError]

/-- Computations in turn give the values of each. -/
theorem mapM_eq_ok_iff {f : α → Except Error β} {xs : List α} {ys : List β} :
    xs.mapM f = .ok ys ↔ List.Forall₂ (fun x y => f x = .ok y) xs ys := by
  induction xs generalizing ys with
  | nil => simp [pure_eq_ok_iff]
  | cons x xs ih =>
      simp only [List.mapM_cons, bind_eq_ok_iff, pure_eq_ok_iff, ih, List.forall₂_cons_left_iff]
      constructor
      · rintro ⟨y, hy, ys, hys, rfl⟩
        exact ⟨y, ys, hy, hys, rfl⟩
      · rintro ⟨y, ys, hy, hys, rfl⟩
        exact ⟨y, hy, ys, hys, rfl⟩

end

theorem identifier_eq_ok_iff {raw : List Char} {token : Token} {name : String} :
    identifier raw token = .ok name ↔
      token = .name name.toList ∧ Name.isIdentifier name.toList = true := by
  constructor
  · intro h
    unfold identifier at h
    split at h
    · next word =>
        split at h
        · next hword =>
            cases h
            simpa using hword
        · cases h
    · cases h
  · rintro ⟨rfl, hname⟩
    rw [identifier, if_pos hname, String.ofList_toList]

theorem tokens_eq_ok_iff {content : List Char} {found : List Token} :
    tokens content = .ok found ↔ Token.tokens content = .ok found :=
  mapError_eq_ok_iff

theorem quotedPath_eq_ok_iff {raw : List Char} {token : Token} {path : String} :
    quotedPath raw token = .ok path ↔
      token = .literal path.toList ∧ Name.isDotPath path.toList = true := by
  constructor
  · intro h
    unfold quotedPath at h
    split at h
    · split at h
      · next hpath =>
          cases h
          simpa using hpath
      · cases h
    · cases h
  · rintro ⟨rfl, hpath⟩
    rw [quotedPath, if_pos hpath, String.ofList_toList]

/-- A quoted text is passed as it is. -/
theorem ofParameterValue_quoted {quote : Char} {text : List Char}
    (hquote : Token.isQuote quote = true) (htext : Token.Quotable quote text) (raw : List Char) :
    ofParameterValue raw (Token.inQuotes quote text) =
      .ok (.paramNode (.literal (String.ofList text))) := by
  rw [ofParameterValue, Token.first?_written (.literal hquote htext)]
  rfl

/-- A word is passed as a name if it is one. -/
theorem ofParameterValue_word {word : List Char} (h : Token.IsWord word) (raw : List Char) :
    ofParameterValue raw word =
      if Name.isIdentifier word then .ok (.paramName (String.ofList word))
      else .error (.syntaxError ⟨.invalidName word, raw⟩) := by
  have hname : ofParameterValue raw word =
      identifier raw (.name word) >>= fun name => pure (Node.paramName name) := by
    rw [ofParameterValue, Token.first?_written (.name h)]
    rfl
  rw [hname, identifier]
  split <;> rfl

theorem ofTrees_cons_eq_ok_iff {tree : Tree} {trees : List Tree} {nodes : List Node} :
    ofTrees (tree :: trees) = .ok nodes ↔
      ∃ node rest, ofTree tree = .ok node ∧ ofTrees trees = .ok rest ∧ nodes = node :: rest := by
  simp only [ofTrees, bind_eq_ok_iff, pure_eq_ok_iff, exists_and_left]

/-- The nodes of two rows of trees follow each other. -/
theorem ofTrees_append_eq_ok_iff {xs ys : List Tree} {nodes : List Node} :
    ofTrees (xs ++ ys) = .ok nodes ↔
      ∃ first rest, ofTrees xs = .ok first ∧ ofTrees ys = .ok rest ∧ nodes = first ++ rest := by
  induction xs generalizing nodes with
  | nil => simp [ofTrees]
  | cons x xs ih =>
      rw [List.cons_append, ofTrees_cons_eq_ok_iff]
      constructor
      · rintro ⟨node, _, hx, hxs, rfl⟩
        obtain ⟨first, rest, hfirst, hrest, rfl⟩ := ih.1 hxs
        exact ⟨node :: first, rest, ofTrees_cons_eq_ok_iff.2 ⟨node, first, hx, hfirst, rfl⟩, hrest,
          rfl⟩
      · rintro ⟨_, rest, hfirst, hrest, rfl⟩
        obtain ⟨node, first, hx, hxs, rfl⟩ := ofTrees_cons_eq_ok_iff.1 hfirst
        exact ⟨node, first ++ rest, hx, ih.2 ⟨first, rest, hxs, hrest, rfl⟩, rfl⟩

theorem ofTrees_singleton {tree : Tree} {node : Node} (h : ofTree tree = .ok node) :
    ofTrees [tree] = .ok [node] :=
  ofTrees_cons_eq_ok_iff.2 ⟨node, [], h, rfl, rfl⟩

end Compile

theorem compile_eq_ok_iff {template : String} {node : Node} :
    compile template = .ok node ↔
      ∃ trees nodes, Tree.parse template.toList = .ok trees ∧
        Compile.ofTrees trees = .ok nodes ∧ node = .sequence nodes := by
  simp only [compile, Compile.bind_eq_ok_iff, Compile.mapError_eq_ok_iff, Compile.pure_eq_ok_iff,
    exists_and_left]

/-! ## Tags around names and paths -/

namespace Tag

variable {kind : Kind} {word name : List Char}

/-- No mark of a tag can stand in an identifier. -/
theorem not_mem_marks_of_isIdentifier (h : Name.isIdentifier word = true) :
    ∀ c ∈ word, c ∉ ['}', '~', '{', '!', '#', '/', '>'] := by
  intro c hc hm
  have hword := Name.isWordChar_of_isIdentifier h c hc
  simp only [List.mem_cons, List.not_mem_nil, or_false] at hm
  rcases hm with rfl | rfl | rfl | rfl | rfl | rfl | rfl <;> exact absurd hword (by decide)

theorem closable_of_isIdentifier (h : Name.isIdentifier word = true) : Closable word :=
  .of_not_mem (Name.not_mem_of_isIdentifier h (by decide))
    (Name.not_mem_of_isIdentifier h (by decide))

theorem writable_of_isIdentifier_append (hkind : kind ≠ .comment ∧ kind ≠ .escaped)
    (h : Name.isIdentifier word = true) {s : List Char} (hs : Closable s) :
    Writable kind (word ++ s) := by
  have hclosable := (closable_of_isIdentifier h).append hs
  have hmarks := not_mem_marks_of_isIdentifier h
  have hword := Name.isWordChar_of_isIdentifier h
  obtain ⟨c, word, rfl, -⟩ := (Token.isWord_of_isIdentifier h).exists_cons
  refine .of_closable hkind hclosable ?_ fun _ d hd => ?_
  · have hc := Name.isBlank_of_isWordChar (hword c (List.mem_cons_self ..))
    simp [Text.isAllBlank, hc]
  · cases hd
    have hc := hmarks c (List.mem_cons_self ..)
    simp only [List.mem_cons] at hc ⊢
    tauto

/-- An identifier can be written in any tag. -/
theorem writable_identifier (hkind : kind ≠ .comment ∧ kind ≠ .escaped)
    (h : Name.isIdentifier word = true) : Writable kind word := by
  have hwritable := writable_of_isIdentifier_append hkind h .nil
  rwa [List.append_nil] at hwritable

/-- Two identifiers with a blank between them can be written in any tag. -/
theorem writable_words (hkind : kind ≠ .comment ∧ kind ≠ .escaped)
    (hword : Name.isIdentifier word = true) (hname : Name.isIdentifier name = true) :
    Writable kind (word ++ ' ' :: name) :=
  writable_of_isIdentifier_append hkind hword
    ((Closable.of_not_mem (by decide) (by decide) : Closable [' ']).append
      (closable_of_isIdentifier hname))

end Tag

namespace Wrapper

theorem written_partialName (kind : Wrapper) :
    Token.Written (.name kind.partialName.toList) kind.partialName.toList :=
  .name (Token.isWord_of_isIdentifier (by cases kind <;> decide))

/-- An included template may have parameters after its path. -/
theorem tokens_inclusionContent_append (kind : Wrapper) {path : List Char}
    (h : Name.isDotPath path = true) {params : List Token} {s : List Char}
    (hparams : Token.Row params s) :
    Token.tokens (kind.inclusionContent path ++ s) =
      .ok (.name kind.partialName.toList :: .literal path :: params) := by
  have hrow := Token.tokens_row kind.written_partialName
    (Token.Row.cons_space (Token.written_path h) hparams)
  rw [inclusionContent, List.cons_append, Token.tokens_cons_of_isBlank (by decide), ← hrow]
  simp [Token.inQuotes]

theorem closable_inclusionContent (kind : Wrapper) {path : List Char}
    (h : Name.isDotPath path = true) : Tag.Closable (kind.inclusionContent path) := by
  have hclose : '}' ∉ path := Name.not_mem_of_isDotPath h (by decide) (by decide)
  have htrim : '~' ∉ path := Name.not_mem_of_isDotPath h (by decide) (by decide)
  refine .of_not_mem ?_ ?_ <;> cases kind <;> simp [inclusionContent, partialName, hclose, htrim]

/-- More text after the path may have parameters in it. -/
theorem writable_inclusionContent_append (kind : Wrapper) {path : List Char}
    (h : Name.isDotPath path = true) {s : List Char} (hs : Tag.Closable s) :
    Tag.Writable .inclusion (kind.inclusionContent path ++ s) := by
  refine .of_closable (by decide) ((kind.closable_inclusionContent h).append hs) ?_ nofun
  have hsolid : Text.isBlank '\'' = false := by decide
  simp [inclusionContent, Text.isAllBlank, hsolid]

theorem writable_inclusionContent (kind : Wrapper) {path : List Char}
    (h : Name.isDotPath path = true) : Tag.Writable .inclusion (kind.inclusionContent path) := by
  have hwritable := kind.writable_inclusionContent_append h .nil
  rwa [List.append_nil] at hwritable

theorem isIdentifier_blockName (kind : Wrapper) :
    Name.isIdentifier kind.blockName.toList = true := by
  cases kind <;> decide

end Wrapper

namespace Compile

theorem ofInclusion_inclusionContent_append (kind : Wrapper) {path : String}
    (h : Name.isDotPath path.toList = true) {raw s : List Char} {params : List Token}
    (hrow : Token.Row params s) {nodes : List (String × Node)}
    (hnodes : params.mapM (ofParameter raw) = .ok nodes) :
    ofInclusion (kind.inclusionContent path.toList ++ s) raw =
      .ok (.partialCall kind path nodes) := by
  have htokens := kind.tokens_inclusionContent_append h hrow
  have hname : identifier raw (.name kind.partialName.toList) = .ok kind.partialName :=
    identifier_eq_ok_iff.2 ⟨rfl, by cases kind <;> decide⟩
  have hkind : partialKindNamed kind.partialName = .ok kind := by
    rw [partialKindNamed, Wrapper.ofPartialName?_partialName]
  have hpath : quotedPath raw (.literal path.toList) = .ok path :=
    quotedPath_eq_ok_iff.2 ⟨rfl, h⟩
  refine bind_eq_ok_iff.2 ⟨_, tokens_eq_ok_iff.2 htokens, ?_⟩
  refine bind_eq_ok_iff.2 ⟨_, hname, bind_eq_ok_iff.2 ⟨_, hkind, bind_eq_ok_iff.2 ⟨_, hpath, ?_⟩⟩⟩
  exact bind_eq_ok_iff.2 ⟨_, hnodes, rfl⟩

theorem ofInclusion_inclusionContent (kind : Wrapper) {path : String}
    (h : Name.isDotPath path.toList = true) (raw : List Char) :
    ofInclusion (kind.inclusionContent path.toList) raw = .ok (.partialCall kind path []) := by
  have hnode : ofInclusion (kind.inclusionContent path.toList ++ []) raw =
      .ok (.partialCall kind path []) :=
    ofInclusion_inclusionContent_append kind h .nil rfl
  rwa [List.append_nil] at hnode

theorem headOf_blockName (kind : Wrapper) :
    headOf (.ofContent kind.blockName.toList) = .ok (.wrapper kind) := by
  have htokens : Token.tokens (Opening.ofContent kind.blockName.toList).args = .ok [] := by
    have hargs : Text.trim (Opening.ofContent kind.blockName.toList).args = [] := by
      cases kind <;> decide
    rw [Token.tokens, Token.tokenize, hargs, Token.tokensFrom_of_none rfl]
    rfl
  have hname : String.ofList (Opening.ofContent kind.blockName.toList).name = kind.blockName := by
    cases kind <;> decide
  have hbranch : Branch.ofName? kind.blockName = none := by cases kind <;> rfl
  have hkind : blockKindNamed kind.blockName = .ok kind := by
    rw [blockKindNamed, Wrapper.ofBlockName?_blockName]
  rw [headOf, tokens, htokens, hname, hbranch]
  simp only [Except.mapError, Bind.bind, Except.bind, hkind]
  rfl

theorem ofTree_blockName (kind : Wrapper) {trees : List Tree} {nodes : List Node}
    (h : ofTrees trees = .ok nodes) :
    ofTree (.block (.ofContent kind.blockName.toList) trees) = .ok (.block kind nodes) := by
  rw [ofTree]
  exact bind_eq_ok_iff.2 ⟨_, headOf_blockName kind, bind_eq_ok_iff.2 ⟨nodes, h, rfl⟩⟩

end Compile

/-- A block around a template compiles to a block of its nodes. -/
theorem compile_blockAround {text : String} {nodes : List Node}
    (h : compile text = .ok (.sequence nodes)) (hend : Tag.EndsPlain text.toList)
    (kind : Wrapper) :
    compile (kind.blockAround text) = .ok (.sequence [.block kind nodes]) := by
  obtain ⟨trees, nodes', ht, hn, he⟩ := compile_eq_ok_iff.1 h
  cases he
  have hparse : Tree.parse (kind.blockAround text).toList =
      .ok [.block (.ofContent kind.blockName.toList) trees] := by
    rw [Wrapper.toList_blockAround]
    exact Tree.parse_section ht hend
      (Tag.writable_identifier (by decide) kind.isIdentifier_blockName)
      (Tag.writable_identifier (by decide) kind.isIdentifier_blockName) (by cases kind <;> decide)
  exact compile_eq_ok_iff.2
    ⟨_, _, hparse, Compile.ofTrees_singleton (Compile.ofTree_blockName kind hn), rfl⟩

/-- A tag that includes a stored template compiles to a partial without parameters. -/
theorem compile_inclusion (kind : Wrapper) {path : String}
    (h : Name.isDotPath path.toList = true) :
    compile (kind.inclusion path) = .ok (.sequence [.partialCall kind path []]) := by
  have hparse := Tree.parse_inclusion (kind.writable_inclusionContent h)
  rw [← Wrapper.toList_inclusion] at hparse
  exact compile_eq_ok_iff.2 ⟨_, _, hparse,
    Compile.ofTrees_singleton (Compile.ofInclusion_inclusionContent kind h _), rfl⟩

end SqlTemplates
