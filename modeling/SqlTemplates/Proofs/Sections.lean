import SqlTemplates.Proofs.Compiled
import SqlTemplates.Proofs.Related
import SqlTemplates.Store.Texts

/-!
# Sections

A section is written around one template, or around two with an else between them.  What
it prints is said by what the templates print on their own (`Engine.call_section`): a
section on a name prints one of its branches, and a block wraps the text of its body.  The
branch that is not taken is not evaluated at all, so it adds neither text nor an error,
and the engine's memory is what the other branch leaves.

The templates inside may have sections, comments and trim marks of their own.  That each
of them compiles by itself is enough for the whole to compile to one node around the nodes
of both (`compile_aroundElse`).
-/

namespace SqlTemplates

/-! ## The templates -/

namespace Branch

/-- The template that is one section on a name around a text. -/
def around (kind : Branch) (name text : String) : String :=
  "\x7b\x7b#" ++ kind.name ++ " " ++ name ++ "\x7d\x7d" ++ text ++
    "\x7b\x7b/" ++ kind.name ++ "\x7d\x7d"

/-- The template that is one section on a name around two texts, with an else between. -/
def aroundElse (kind : Branch) (name text elseText : String) : String :=
  "\x7b\x7b#" ++ kind.name ++ " " ++ name ++ "\x7d\x7d" ++ text ++
    "\x7b\x7belse\x7d\x7d" ++ elseText ++ "\x7b\x7b/" ++ kind.name ++ "\x7d\x7d"

/-- What stands in the tag that opens a section on a name. -/
def openContent (kind : Branch) (name : List Char) : List Char :=
  kind.name.toList ++ ' ' :: name

theorem toList_around (kind : Branch) (name text : String) :
    (kind.around name text).toList =
      Tag.write .opening (kind.openContent name.toList) ++
        (text.toList ++ Tag.write .closing kind.name.toList) := by
  unfold around
  simp only [openContent, Tag.write, Tag.Kind.sign, Tag.openMark, Tag.closeMark,
    String.toList_append, List.append_assoc, List.cons_append, List.nil_append]
  rfl

theorem toList_aroundElse (kind : Branch) (name text elseText : String) :
    (kind.aroundElse name text elseText).toList =
      Tag.write .opening (kind.openContent name.toList) ++
        (text.toList ++ (Tag.write .expression Tag.elseContent ++
          (elseText.toList ++ Tag.write .closing kind.name.toList))) := by
  unfold aroundElse
  simp only [openContent, Tag.elseContent, Tag.write, Tag.Kind.sign, Tag.openMark, Tag.closeMark,
    String.toList_append, List.append_assoc, List.cons_append, List.nil_append]
  rfl

end Branch

/-! ## Reading the tags -/

/-- A section's tag is its name and, after a blank, its arguments. -/
theorem Event.section_of_words {word args : List Char} (hword : word ≠ [])
    (hsolid : ∀ c ∈ word, Text.isBlank c = false) (hargs : args ≠ []) (htrim : Text.Solid args) :
    sectionName (word ++ ' ' :: args) = word ∧ sectionArgs (word ++ ' ' :: args) = args := by
  have hspace : Text.isBlank ' ' = true := by decide
  have hwhole : Text.trim (word ++ ' ' :: args) = word ++ ' ' :: args :=
    Text.trim_of_solid (.append_cons (.of_forall hsolid) hword htrim hargs ' ')
  have hall : ∀ c ∈ word, (!Text.isBlank c) = true := fun c hc => by rw [hsolid c hc]; rfl
  rw [sectionName, sectionArgs, hwhole, List.takeWhile_append_of_pos hall,
    List.dropWhile_append_of_pos hall]
  simp only [List.takeWhile_cons, List.dropWhile_cons, hspace, Bool.not_true, Bool.false_eq_true,
    if_false, List.append_nil, true_and]
  exact (Text.trim_cons_of_isBlank hspace args).trans (Text.trim_of_solid htrim)

theorem Name.solid_of_isIdentifier {s : List Char} (h : isIdentifier s = true) :
    Text.Solid s :=
  .of_forall fun c hc => isBlank_of_isWordChar (isWordChar_of_isIdentifier h c hc)

namespace Branch

theorem isIdentifier_name (kind : Branch) : Name.isIdentifier kind.name.toList = true := by
  cases kind <;> decide

theorem writable_openContent (kind : Branch) {name : List Char}
    (h : Name.isIdentifier name = true) : Tag.Writable .opening (kind.openContent name) :=
  Tag.writable_words (by decide) kind.isIdentifier_name h

theorem writable_name (kind : Branch) : Tag.Writable .closing kind.name.toList :=
  Tag.writable_identifier (by decide) kind.isIdentifier_name

theorem section_openContent (kind : Branch) {name : List Char}
    (h : Name.isIdentifier name = true) :
    Event.sectionName (kind.openContent name) = kind.name.toList ∧
      Event.sectionArgs (kind.openContent name) = name := by
  have hkind := Name.isWordChar_of_isIdentifier kind.isIdentifier_name
  exact Event.section_of_words (Token.isWord_of_isIdentifier kind.isIdentifier_name).ne_nil
    (fun c hc => Name.isBlank_of_isWordChar (hkind c hc)) (Token.isWord_of_isIdentifier h).ne_nil
    (Name.solid_of_isIdentifier h)

theorem trim_name (kind : Branch) : Text.trim kind.name.toList = kind.name.toList :=
  Text.trim_of_solid (Name.solid_of_isIdentifier kind.isIdentifier_name)

end Branch

namespace Compile

theorem tokens_identifier {name : List Char} (h : Name.isIdentifier name = true) :
    tokens name = .ok [.name name] :=
  tokens_eq_ok_iff.2 (Token.tokens_written (.name (Token.isWord_of_isIdentifier h)))

theorem headOf_openContent (kind : Branch) {name : String}
    (h : Name.isIdentifier name.toList = true) :
    headOf (.ofContent (kind.openContent name.toList)) = .ok (.condition kind name) := by
  obtain ⟨hname, hargs⟩ := kind.section_openContent h
  rw [headOf, Opening.ofContent, hname, hargs, String.ofList_toList, Branch.ofName?_name]
  exact bind_eq_ok_iff.2
    ⟨_, tokens_identifier h, bind_eq_ok_iff.2 ⟨name, identifier_eq_ok_iff.2 ⟨rfl, h⟩, rfl⟩⟩

section

variable {name : String} {trees elseTrees : List Tree} {nodes elseNodes : List Node}

theorem ofTree_openContent (kind : Branch) (hname : Name.isIdentifier name.toList = true)
    (h : ofTrees trees = .ok nodes) :
    ofTree (.block (.ofContent (kind.openContent name.toList)) trees) =
      .ok (.ifBlock kind name nodes) := by
  rw [ofTree]
  exact bind_eq_ok_iff.2 ⟨_, headOf_openContent kind hname, bind_eq_ok_iff.2 ⟨nodes, h, rfl⟩⟩

theorem ofTree_openContent_else (kind : Branch) (hname : Name.isIdentifier name.toList = true)
    (h : ofTrees trees = .ok nodes) (helse : ofTrees elseTrees = .ok elseNodes) :
    ofTree (.blockElse (.ofContent (kind.openContent name.toList)) trees elseTrees) =
      .ok (.ifElse kind name nodes elseNodes) := by
  rw [ofTree]
  exact bind_eq_ok_iff.2 ⟨_, headOf_openContent kind hname,
    bind_eq_ok_iff.2 ⟨nodes, h, bind_eq_ok_iff.2 ⟨elseNodes, helse, rfl⟩⟩⟩

end

end Compile

/-! ## Compiling sections -/

section

variable {name text elseText : String} {nodes elseNodes : List Node}

theorem compile_around (kind : Branch) (hname : Name.isIdentifier name.toList = true)
    (h : compile text = .ok (.sequence nodes)) (hend : Tag.EndsPlain text.toList) :
    compile (kind.around name text) = .ok (.sequence [.ifBlock kind name nodes]) := by
  obtain ⟨trees, _, ht, hn, he⟩ := compile_eq_ok_iff.1 h
  cases he
  have hparse := Tree.parse_section ht hend (kind.writable_openContent hname) kind.writable_name
    (by rw [kind.trim_name, (kind.section_openContent hname).1])
  rw [← Branch.toList_around] at hparse
  exact compile_eq_ok_iff.2
    ⟨_, _, hparse, Compile.ofTrees_singleton (Compile.ofTree_openContent kind hname hn), rfl⟩

theorem compile_aroundElse (kind : Branch) (hname : Name.isIdentifier name.toList = true)
    (h : compile text = .ok (.sequence nodes)) (hend : Tag.EndsPlain text.toList)
    (helse : compile elseText = .ok (.sequence elseNodes))
    (hendElse : Tag.EndsPlain elseText.toList) :
    compile (kind.aroundElse name text elseText) =
      .ok (.sequence [.ifElse kind name nodes elseNodes]) := by
  obtain ⟨trees, _, ht, hn, he⟩ := compile_eq_ok_iff.1 h
  obtain ⟨elseTrees, _, ht', hn', he'⟩ := compile_eq_ok_iff.1 helse
  cases he
  cases he'
  have hparse := Tree.parse_sectionElse ht hend ht' hendElse (kind.writable_openContent hname)
    kind.writable_name (by rw [kind.trim_name, (kind.section_openContent hname).1])
  rw [← Branch.toList_aroundElse] at hparse
  exact compile_eq_ok_iff.2 ⟨_, _, hparse,
    Compile.ofTrees_singleton (Compile.ofTree_openContent_else kind hname hn hn'), rfl⟩

end

/-! ## What decides -/

/-- The name is bound to something other than false and absence. -/
def Bindings.Holds (data : Bindings) (name : String) : Prop :=
  ∃ value, data[name]? = some value ∧ value ≠ .bool false ∧ value ≠ .absent

/-- The section on a name prints its body, and not its other branch. -/
def Branch.Picks : Branch → Bindings → String → Prop
  | .whenTrue, data, name => data.Holds name
  | .whenFalse, data, name => ¬ data.Holds name

theorem Bindings.truthy_iff_holds (data : Bindings) (name : String) :
    (data[name]?.getD .absent).truthy = true ↔ data.Holds name := by
  constructor
  · intro h
    cases hget : data[name]? with
    | none => rw [hget] at h; cases h
    | some value =>
        rw [hget, Option.getD_some] at h
        refine ⟨value, hget, ?_, ?_⟩ <;> rintro rfl <;> cases h
  · rintro ⟨value, hget, hfalse, habsent⟩
    rw [hget, Option.getD_some]
    cases ht : value.truthy with
    | true => rfl
    | false => exact ((Value.truthy_eq_false_iff.1 ht).elim hfalse habsent).elim

/-- Nothing covers the data when a template is called. -/
theorem Branch.printsBody_iff_picks (kind : Branch) (data : Bindings) (maxDepth : Nat)
    (name : String) :
    kind.printsBody (Context.get { data, maxDepth } name).truthy = true ↔ kind.Picks data name := by
  have hget : Context.get { data, maxDepth } name = data[name]?.getD .absent := by
    simp [Context.get]
  have hholds := data.truthy_iff_holds name
  rw [hget]
  cases kind with
  | whenTrue => exact hholds
  | whenFalse => rw [printsBody, Picks, ← hholds, Bool.not_eq_true', Bool.not_eq_true]

/-! ## Calling sections -/

theorem Engine.perform_map {S α β : Type} (engine : Engine S) (f : α → β) (run : Run Memory α) :
    engine.perform (f <$> run) = ((engine.perform run).1.map f, (engine.perform run).2) := by
  have h := Run.exec_map f run engine.memory
  rw [Run.exec] at h
  rw [perform, h]
  rfl

section

variable {S : Type} [Source S]

theorem Engine.callNode_block (store : S) (options : Options) (kind : Wrapper)
    (nodes : List Node) (data : Bindings) :
    callNode store options (.sequence [.block kind nodes]) data =
      kind.wrap <$> callNode store options (.sequence nodes) data := by
  rw [callNode_sequence, Node.textAll_singleton, Node.text, callNode_sequence, map_eq_pure_bind]

variable (engine : Engine S) (data : Bindings)

theorem Engine.call_ifElse (kind : Branch) (name : String) (nodes elseNodes : List Node) :
    (kind.Picks data name → engine.call (.sequence [.ifElse kind name nodes elseNodes]) data =
        engine.call (.sequence nodes) data) ∧
      (¬ kind.Picks data name → engine.call (.sequence [.ifElse kind name nodes elseNodes]) data =
        engine.call (.sequence elseNodes) data) := by
  rw [← kind.printsBody_iff_picks data engine.options.maxDepth name]
  simp only [call, callNode_sequence, Node.textAll_singleton, Node.text]
  refine ⟨fun h => ?_, fun h => ?_⟩
  · rw [if_pos h]
  · rw [if_neg h]

theorem Engine.call_ifBlock (kind : Branch) (name : String) (nodes : List Node) :
    (kind.Picks data name → engine.call (.sequence [.ifBlock kind name nodes]) data =
        engine.call (.sequence nodes) data) ∧
      (¬ kind.Picks data name → engine.call (.sequence [.ifBlock kind name nodes]) data =
        (.ok "", engine)) := by
  rw [← kind.printsBody_iff_picks data engine.options.maxDepth name]
  simp only [call, callNode_sequence, Node.textAll_singleton, Node.text]
  refine ⟨fun h => ?_, fun h => ?_⟩
  · rw [if_pos h]
  · rw [if_neg h]
    rfl

/-- A section on a name prints its body or its other branch, as the value of the name says,
and without an else the other branch is empty.  A block wraps what its body prints: an array
block reads all rows of this query, an object block reads its row, and a plain block leaves the
query as it is. -/
theorem Engine.call_section {name a b : String} {nodeA nodeB : Node}
    (hname : Name.isIdentifier name.toList = true) (ha : compile a = .ok nodeA)
    (hb : compile b = .ok nodeB) (hendA : ∀ c ∈ a.toList.getLast?, c ≠ '{' ∧ c ≠ '\\')
    (hendB : ∀ c ∈ b.toList.getLast?, c ≠ '{' ∧ c ≠ '\\') :
    (∀ kind : Branch, ∃ node, compile (kind.aroundElse name a b) = .ok node ∧
        (kind.Picks data name → engine.call node data = engine.call nodeA data) ∧
        (¬ kind.Picks data name → engine.call node data = engine.call nodeB data)) ∧
      (∀ kind : Branch, ∃ node, compile (kind.around name a) = .ok node ∧
        (kind.Picks data name → engine.call node data = engine.call nodeA data) ∧
        (¬ kind.Picks data name → engine.call node data = (.ok "", engine))) ∧
      (∀ kind : Wrapper, ∃ node, compile (kind.blockAround a) = .ok node ∧
        engine.call node data =
          ((engine.call nodeA data).1.map kind.wrap, (engine.call nodeA data).2)) ∧
      ∀ query, Wrapper.array.wrap query =
          "(SELECT COALESCE(array_to_json(array_agg(row_to_json(array_row))),'[]'::json) FROM (\n"
            ++ query ++ "\n) array_row)" ∧
        Wrapper.object.wrap query =
          "(SELECT COALESCE(row_to_json(object_row),'\x7b\x7d'::json) FROM (\n"
            ++ query ++ "\n) object_row)" ∧
        Wrapper.bare.wrap query = query := by
  obtain ⟨_, nodes, _, _, rfl⟩ := compile_eq_ok_iff.1 ha
  obtain ⟨_, elseNodes, _, _, rfl⟩ := compile_eq_ok_iff.1 hb
  refine ⟨fun kind => ?_, fun kind => ?_, fun kind => ?_, fun query => ⟨rfl, rfl, rfl⟩⟩
  · exact ⟨_, compile_aroundElse kind hname ha hendA hb hendB,
      engine.call_ifElse data kind name nodes elseNodes⟩
  · exact ⟨_, compile_around kind hname ha hendA, engine.call_ifBlock data kind name nodes⟩
  · refine ⟨_, compile_blockAround ha hendA kind, ?_⟩
    rw [call, callNode_block, perform_map]
    rfl

end

/-- The body fails on its own, and the other branch has a section in it.  A block around the
body fails alike, and one around the other branch wraps its text. -/
theorem Engine.call_section_skipped :
    ∃ (engine : Engine Texts) (data : Bindings) (nodeA nodeB node object array : Node),
      Name.isIdentifier "x".toList = true ∧
      compile "{{int y}}" = .ok nodeA ∧
      compile (Branch.whenFalse.around "x" "b" ++ "c") = .ok nodeB ∧
      compile (Branch.whenTrue.aroundElse "x" "{{int y}}"
        (Branch.whenFalse.around "x" "b" ++ "c")) = .ok node ∧
      compile (Wrapper.object.blockAround "{{int y}}") = .ok object ∧
      compile (Wrapper.array.blockAround (Branch.whenFalse.around "x" "b" ++ "c")) = .ok array ∧
      (engine.call nodeA data).1 = .error (.filterType "y" .int) ∧
      (engine.call node data).1 = .ok "bc" ∧
      (engine.call object data).1 = .error (.filterType "y" .int) ∧
      (engine.call array data).1 = .ok
        ("(SELECT COALESCE(array_to_json(array_agg(row_to_json(array_row))),'[]'::json) FROM (\n"
          ++ "bc" ++ "\n) array_row)") := by
  let engine : Engine Texts := { store := .ofList [] }
  let data : Bindings := Bindings.bindAll ∅ [("x", .bool false)]
  have hname : Name.isIdentifier "x".toList = true := by decide
  have ha : compile "{{int y}}" = .ok (.sequence [.filter .int "y"]) := by cbv
  have hb : compile (Branch.whenFalse.around "x" "b" ++ "c") =
      .ok (.sequence [.ifBlock .whenFalse "x" [.content "b"], .content "c"]) := by cbv
  have hlastA : "{{int y}}".toList.getLast? = some '}' := by decide
  have hlastB : (Branch.whenFalse.around "x" "b" ++ "c").toList.getLast? = some 'c' := by decide
  have hendA := Tag.EndsPlain.of_getLast? hlastA (by decide)
  have hendB := Tag.EndsPlain.of_getLast? hlastB (by decide)
  have hpicks : ¬ Branch.whenTrue.Picks data "x" := by
    rintro ⟨value, hget, hfalse, -⟩
    have hbound : data["x"]? = some (.bool false) := by cbv
    exact hfalse (Option.some.inj (hget.symm.trans hbound))
  have hfails : (engine.call (.sequence [.filter .int "y"]) data).1 =
      .error (.filterType "y" .int) := by cbv
  have htext : (engine.call (.sequence [.ifBlock .whenFalse "x" [.content "b"], .content "c"])
      data).1 = .ok "bc" := by cbv
  obtain ⟨hbranch, -, hblock, -⟩ := engine.call_section data hname ha hb hendA hendB
  obtain ⟨node, hnode, -, hcall⟩ := hbranch .whenTrue
  obtain ⟨object, hobject, hcallObject⟩ := hblock .object
  obtain ⟨-, -, hblock', hwrap⟩ := engine.call_section data hname hb ha hendB hendA
  obtain ⟨array, harray, hcallArray⟩ := hblock' .array
  refine ⟨engine, data, _, _, node, object, array, hname, ha, hb, hnode, hobject, harray,
    hfails, ?_, ?_, ?_⟩
  · rw [hcall hpicks, htext]
  · rw [hcallObject, hfails]
    rfl
  · rw [hcallArray, htext]
    exact congrArg Except.ok (hwrap "bc").1

end SqlTemplates
