import SqlTemplates.Text.Quoted

/-!
# File names

To a file system a name is a row of bytes.  Most names are texts, and such a name is the
row of its characters here.  Bytes that no character is made of are kept as they are: a
name is a row of parts, each of which is a character or some broken bytes.

There are two ways to read a name.  Strictly, a name with a broken part is not read at all
(`text?`).  Loosely, every broken part is read as the replacement character (`shown`).
Where the name is a text, both give that text.
-/

namespace SqlTemplates

/-- A part of a file name. -/
inductive FileName.Part
  | char (c : Char)
  /-- Bytes that no character is made of, as many as show as one. -/
  | broken (bytes : List UInt8)
deriving DecidableEq, Repr

/-- The name of a file or of a directory. -/
structure FileName where
  parts : List FileName.Part
deriving DecidableEq, Repr, Inhabited

namespace FileName

/-- The name that is a text. -/
def ofText (s : List Char) : FileName := ⟨s.map .char⟩

instance : Coe String FileName := ⟨fun s => ofText s.toList⟩

instance : Append FileName := ⟨fun a b => ⟨a.parts ++ b.parts⟩⟩

/-! ## Order -/

/-- The bytes of a part. -/
def Part.bytes : Part → List UInt8
  | .char c => String.utf8EncodeChar c
  | .broken bytes => bytes

/-- The bytes of a name. -/
def bytes (name : FileName) : List UInt8 := name.parts.flatMap Part.bytes

/-- Names are ordered by their bytes. -/
instance : LT FileName := ⟨fun a b => a.bytes < b.bytes⟩

instance (a b : FileName) : Decidable (a < b) := inferInstanceAs (Decidable (a.bytes < b.bytes))

example : ("Z" : FileName) < ("a" : FileName) := by decide

/-! ## Reading -/

/-- A way to read names. -/
abbrev Reading := FileName → Option (List Char)

/-- The characters of parts none of which is broken. -/
def Part.chars? : List Part → Option (List Char)
  | [] => some []
  | .char c :: parts => (chars? parts).map (c :: ·)
  | .broken _ :: _ => none

/-- The text that a name is, if it is one. -/
def text? : Reading := fun name => Part.chars? name.parts

/-- The character that a part is shown as. -/
def Part.shown : Part → Char
  | .char c => c
  | .broken _ => '\uFFFD'

/-- The name with the replacement character in the place of every broken part. -/
def shown (name : FileName) : List Char := name.parts.map Part.shown

/-- Reads a name as it is shown. -/
def loose : Reading := fun name => some name.shown

theorem Part.chars?_eq_some_iff {parts : List Part} {s : List Char} :
    chars? parts = some s ↔ parts = s.map .char := by
  induction parts generalizing s with
  | nil => cases s <;> simp [chars?]
  | cons part parts ih =>
      cases part with
      | char c =>
          rw [chars?, Option.map_eq_some_iff]
          constructor
          · rintro ⟨rest, hrest, rfl⟩
            rw [ih.1 hrest, List.map_cons]
          · intro h
            cases s with
            | nil => cases h
            | cons d s =>
                obtain ⟨⟨rfl⟩, hrest⟩ := List.cons.inj h
                exact ⟨s, ih.2 hrest, rfl⟩
      | broken bytes => cases s <;> simp [chars?]

/-- A name is read strictly as the text that it is. -/
theorem text?_eq_some_iff {name : FileName} {s : List Char} :
    name.text? = some s ↔ name = ofText s := by
  rw [text?, Part.chars?_eq_some_iff, ofText]
  cases name
  simp

@[simp] theorem text?_ofText (s : List Char) : (ofText s).text? = some s :=
  text?_eq_some_iff.2 rfl

@[simp] theorem shown_ofText (s : List Char) : (ofText s).shown = s := by
  rw [shown, ofText, List.map_map]
  exact List.map_id s

/-- A name that is shown without the replacement character is a text. -/
theorem eq_ofText_shown {name : FileName} (h : '\uFFFD' ∉ name.shown) :
    name = ofText name.shown := by
  obtain ⟨parts⟩ := name
  rw [ofText, shown, mk.injEq, List.map_map]
  refine (List.map_id parts).symm.trans (List.map_congr_left fun part hpart => ?_)
  cases part with
  | char c => rfl
  | broken bytes => exact absurd (List.mem_map.2 ⟨Part.broken bytes, hpart, rfl⟩) h

/-! ## Messages -/

/-- A byte inside quotes, in hexadecimal digits. -/
def quoteByte (b : UInt8) : List Char :=
  ['\\', 'x', (Nat.digitChar (b.toNat / 16)).toUpper, (Nat.digitChar (b.toNat % 16)).toUpper]

/-- A part inside quotes. -/
def Part.quoted : Part → List Char
  | .char c => Text.quoteChar c
  | .broken bytes => bytes.flatMap quoteByte

/-- The name in double quotes, with nothing in it hidden from the reader. -/
def quoted (name : FileName) : String :=
  String.ofList ('"' :: name.parts.flatMap Part.quoted ++ ['"'])

example : quoted ⟨[.char 'a', .broken [0xFF]]⟩ = "\"a\\xFF\"" := by decide +kernel

end FileName

end SqlTemplates
