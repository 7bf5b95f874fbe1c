import SqlTemplates.Value
import SqlTemplates.Error

/-!
# Bindings

A template is evaluated against names bound to values.  A name has one binding, and
a later binding replaces an earlier one.  Bindings are compared by what they bind,
so they carry no order; where they are listed it is by name.
-/

namespace SqlTemplates

/-- Names bound to values. -/
abbrev Bindings := Std.ExtTreeMap String Value

namespace Bindings

/-- Binds the names of a list in turn, so that of two bindings of one name the later
stays. -/
def bindAll (data : Bindings) (items : List (String × Value)) : Bindings :=
  items.foldl (fun data item => data.insert item.1 item.2) data

/-- All bindings of `top`, and those of `base` for the names that `top` does not bind. -/
def overlay (base top : Bindings) : Bindings := base ∪ top

/-- Binds each member of a JSON object by its name. -/
def ofMembers (members : List (String × Json)) : Bindings :=
  bindAll ∅ (members.map fun (name, value) => (name, Value.ofJson value))

/-- The bindings of a JSON value, which has to be an object. -/
def ofJson (json : Json) : Except Error Bindings :=
  match json.members? with
  | some members => .ok (ofMembers members)
  | none => .error (.invalidData json.write)

/-- The same names are bound, to equal values. -/
def equals (a b : Bindings) : Bool :=
  (a.toList.map Prod.fst == b.toList.map Prod.fst) &&
    Value.beqAll (a.toList.map Prod.snd) (b.toList.map Prod.snd)

theorem getElem?_overlay (base top : Bindings) (name : String) :
    (base.overlay top)[name]? = top[name]?.or base[name]? :=
  Std.ExtTreeMap.getElem?_union

@[simp] theorem overlay_empty (base : Bindings) : base.overlay ∅ = base := by
  apply Std.ExtTreeMap.ext_getElem?
  intro name
  rw [getElem?_overlay]
  simp

@[simp] theorem bindAll_nil (data : Bindings) : data.bindAll [] = data := rfl

@[simp] theorem bindAll_cons (data : Bindings) (name : String) (value : Value)
    (items : List (String × Value)) :
    data.bindAll ((name, value) :: items) = bindAll (data.insert name value) items := rfl

theorem bindAll_append (data : Bindings) (xs ys : List (String × Value)) :
    data.bindAll (xs ++ ys) = (data.bindAll xs).bindAll ys :=
  List.foldl_append

/-- A name has the value of its last binding in the list, or else the one it had. -/
theorem getElem?_bindAll (data : Bindings) (items : List (String × Value)) (name : String) :
    (data.bindAll items)[name]? = (items.reverse.lookup name).or data[name]? := by
  induction items generalizing data with
  | nil => simp
  | cons item items ih =>
      obtain ⟨key, value⟩ := item
      rw [bindAll_cons, ih, List.reverse_cons, List.lookup_append,
        Std.ExtTreeMap.getElem?_insert]
      by_cases h : key = name
      · subst h
        simp
      · have hne : (name == key) = false := by simpa using Ne.symm h
        simp [List.lookup_cons, h, hne]

/-- A name is bound after some bindings in turn if one of them binds it, or if it was bound
before. -/
theorem mem_bindAll (data : Bindings) (items : List (String × Value)) (name : String) :
    name ∈ data.bindAll items ↔ (∃ item ∈ items, item.1 = name) ∨ name ∈ data := by
  induction items generalizing data with
  | nil => simp
  | cons item items ih =>
      obtain ⟨key, value⟩ := item
      rw [bindAll_cons, ih, Std.ExtTreeMap.mem_insert, Std.compare_eq_iff_eq]
      simp only [List.mem_cons, exists_eq_or_imp]
      rw [or_left_comm, or_assoc]

end Bindings

end SqlTemplates
