import SqlTemplates.Template.Kind

/-!
# Compiled templates

A compiled template is a tree of nodes in which every word that names a kind has
been resolved.  Nodes have decidable equality, by `Node.beq` and the lemma that it
holds of equal nodes and of no others.
-/

namespace SqlTemplates

/-- A node of a compiled template. -/
inductive Node
  | content (text : String)
  /-- The text of a value. -/
  | value (name : String)
  | literal (text : String)
  /-- A parameter of a partial that is a name. -/
  | paramName (name : String)
  /-- A parameter of a partial that is a node. -/
  | paramNode (inner : Node)
  /-- The stored template under a path, with its parameters in order. -/
  | partialCall (kind : Wrapper) (path : String) (params : List (String × Node))
  | ifBlock (kind : Branch) (condition : String) (body : List Node)
  | ifElse (kind : Branch) (condition : String) (body elseBody : List Node)
  /-- A value that passes a filter. -/
  | filter (kind : Filter) (name : String)
  /-- A wrapped part of the template. -/
  | block (kind : Wrapper) (body : List Node)
  | sequence (items : List Node)
deriving Inhabited, Repr

namespace Node

/-! ## Equality -/

mutual

/-- The nodes are equal. -/
def beq : Node → Node → Bool
  | .content a, .content b => a == b
  | .value a, .value b => a == b
  | .literal a, .literal b => a == b
  | .paramName a, .paramName b => a == b
  | .paramNode a, .paramNode b => a.beq b
  | .partialCall k p xs, .partialCall l q ys => k == l && p == q && beqParams xs ys
  | .ifBlock k c xs, .ifBlock l d ys => k == l && c == d && beqAll xs ys
  | .ifElse k c xs zs, .ifElse l d ys ws => k == l && c == d && beqAll xs ys && beqAll zs ws
  | .filter k a, .filter l b => k == l && a == b
  | .block k xs, .block l ys => k == l && beqAll xs ys
  | .sequence xs, .sequence ys => beqAll xs ys
  | _, _ => false

/-- The lists have equal nodes in the same places. -/
def beqAll : List Node → List Node → Bool
  | [], [] => true
  | x :: xs, y :: ys => x.beq y && beqAll xs ys
  | _, _ => false

/-- The lists have equal parameters in the same places. -/
def beqParams : List (String × Node) → List (String × Node) → Bool
  | [], [] => true
  | (k, x) :: xs, (l, y) :: ys => k == l && x.beq y && beqParams xs ys
  | _, _ => false

end

mutual

theorem eq_of_beq : ∀ {x y : Node}, x.beq y = true → x = y
  | .content _, y, h => by cases y <;> simp_all [beq]
  | .value _, y, h => by cases y <;> simp_all [beq]
  | .literal _, y, h => by cases y <;> simp_all [beq]
  | .paramName _, y, h => by cases y <;> simp_all [beq]
  | .paramNode _, y, h => by
      cases y with
      | paramNode b => exact congrArg Node.paramNode (eq_of_beq (by simpa only [beq] using h))
      | _ => simp [beq] at h
  | .partialCall _ _ _, y, h => by
      cases y with
      | partialCall l q ys =>
          simp only [beq, Bool.and_eq_true, beq_iff_eq] at h
          rw [h.1.1, h.1.2, eq_of_beqParams h.2]
      | _ => simp [beq] at h
  | .ifBlock _ _ _, y, h => by
      cases y with
      | ifBlock l d ys =>
          simp only [beq, Bool.and_eq_true, beq_iff_eq] at h
          rw [h.1.1, h.1.2, eq_of_beqAll h.2]
      | _ => simp [beq] at h
  | .ifElse _ _ _ _, y, h => by
      cases y with
      | ifElse l d ys ws =>
          simp only [beq, Bool.and_eq_true, beq_iff_eq] at h
          rw [h.1.1.1, h.1.1.2, eq_of_beqAll h.1.2, eq_of_beqAll h.2]
      | _ => simp [beq] at h
  | .filter _ _, y, h => by cases y <;> simp_all [beq]
  | .block _ _, y, h => by
      cases y with
      | block l ys =>
          simp only [beq, Bool.and_eq_true, beq_iff_eq] at h
          rw [h.1, eq_of_beqAll h.2]
      | _ => simp [beq] at h
  | .sequence _, y, h => by
      cases y with
      | sequence ys => exact congrArg Node.sequence (eq_of_beqAll (by simpa only [beq] using h))
      | _ => simp [beq] at h

theorem eq_of_beqAll : ∀ {xs ys : List Node}, beqAll xs ys = true → xs = ys
  | [], ys, h => by cases ys <;> simp_all [beqAll]
  | x :: xs, ys, h => by
      cases ys with
      | nil => simp [beqAll] at h
      | cons y ys =>
          simp only [beqAll, Bool.and_eq_true] at h
          rw [eq_of_beq h.1, eq_of_beqAll h.2]

theorem eq_of_beqParams : ∀ {xs ys : List (String × Node)}, beqParams xs ys = true → xs = ys
  | [], ys, h => by cases ys <;> simp_all [beqParams]
  | (k, x) :: xs, ys, h => by
      cases ys with
      | nil => simp [beqParams] at h
      | cons y ys =>
          obtain ⟨l, y⟩ := y
          simp only [beqParams, Bool.and_eq_true, beq_iff_eq] at h
          rw [h.1.1, eq_of_beq h.1.2, eq_of_beqParams h.2]

end

mutual

theorem beq_self : ∀ x : Node, x.beq x = true
  | .content _ | .value _ | .literal _ | .paramName _ | .filter _ _ => by simp [beq]
  | .paramNode x => by simp [beq, beq_self x]
  | .partialCall _ _ xs => by simp [beq, beqParams_self xs]
  | .ifBlock _ _ xs => by simp [beq, beqAll_self xs]
  | .ifElse _ _ xs ys => by simp [beq, beqAll_self xs, beqAll_self ys]
  | .block _ xs => by simp [beq, beqAll_self xs]
  | .sequence xs => by simp [beq, beqAll_self xs]

theorem beqAll_self : ∀ xs : List Node, beqAll xs xs = true
  | [] => rfl
  | x :: xs => by simp [beqAll, beq_self x, beqAll_self xs]

theorem beqParams_self : ∀ xs : List (String × Node), beqParams xs xs = true
  | [] => rfl
  | (k, x) :: xs => by simp [beqParams, beq_self x, beqParams_self xs]

end

instance : DecidableEq Node := fun x y =>
  if h : x.beq y = true then isTrue (eq_of_beq h)
  else isFalse fun e => h (e ▸ beq_self x)

end Node

end SqlTemplates
