import Latticed.Rust.Json

/-!
# The texts of a document

The part of the grammar of JSON that programs write which print without white space: numbers without a
sign, strings, arrays and objects, nested not too deep.  There are many texts of one document, since a
character may be escaped or not.

* `stringText_of_plain` : a string without special characters stands for itself.
* `itemsText_flatMap` : items one after the other, with commas between them.
-/

namespace Latticed

namespace Rust

/-- The characters that may follow a backslash, and what they stand for. -/
def escapes : List (UInt8 × UInt8) :=
  [(0x22, 0x22), (0x5C, 0x5C), (0x2F, 0x2F), (0x62, 0x08), (0x66, 0x0C), (0x6E, 0x0A), (0x72, 0x0D),
    (0x74, 0x09)]

/-- A byte that may stand in a string as it is. -/
def PlainByte (b : UInt8) : Prop := 0x20 ≤ b ∧ b ≠ 0x22 ∧ b ≠ 0x5C

instance (b : UInt8) : Decidable (PlainByte b) := inferInstanceAs (Decidable (_ ∧ _ ∧ _))

/-- What stands between the quotes, and the bytes of the string. -/
inductive StringText : List UInt8 → List UInt8 → Prop
  | nil : StringText [] []
  | plain {b text value} : PlainByte b → StringText text value → StringText (b :: text) (b :: value)
  | escape {c b text value} :
      (c, b) ∈ escapes → StringText text value → StringText (0x5C :: c :: text) (b :: value)
  | code {b : UInt8} {text value} :
      b < 0x80 → StringText text value →
        StringText (0x5C :: 0x75 :: (asBytes (hex 4 b.toNat) ++ text)) (b :: value)

/-- The name of a member, and the colon. -/
def keyText (key : List UInt8) : List UInt8 := 0x22 :: (key ++ [0x22, 0x3A])

mutual

/-- A text of a document that is nested at most so deep. -/
inductive JsonText : ℕ → List UInt8 → Json → Prop
  | number {depth n : ℕ} : n < 2 ^ 64 → JsonText depth (asBytes (toString n)) (.number n)
  | string {depth body s} :
      StringText body (asBytes s) → JsonText depth (0x22 :: (body ++ [0x22])) (.string s)
  | array {depth body items} :
      ItemsText depth body items → JsonText (depth + 1) (0x5B :: (body ++ [0x5D])) (.array items)
  | object {depth body members} :
      MembersText depth body members → JsonText (depth + 1) (0x7B :: (body ++ [0x7D])) (.object members)

inductive ItemsText : ℕ → List UInt8 → List Json → Prop
  | nil {depth} : ItemsText depth [] []
  | one {depth text item} : JsonText depth text item → ItemsText depth text [item]
  | cons {depth text item rest items} :
      JsonText depth text item → ItemsText depth rest items → items ≠ [] →
        ItemsText depth (text ++ 0x2C :: rest) (item :: items)

inductive MembersText : ℕ → List UInt8 → List (String × Json) → Prop
  | nil {depth} : MembersText depth [] []
  | one {depth key name text value} :
      StringText key (asBytes name) → JsonText depth text value →
        MembersText depth (keyText key ++ text) [(name, value)]
  | cons {depth key name text value rest members} :
      StringText key (asBytes name) → JsonText depth text value → MembersText depth rest members →
        members ≠ [] → MembersText depth (keyText key ++ text ++ 0x2C :: rest) ((name, value) :: members)

end

/-- White space. -/
def jsonSpaces : List UInt8 := [0x20, 0x09, 0x0A, 0x0D]

/-- The bytes are a text of the document, and white space about it. -/
def JsonDocument (depth : ℕ) (bytes : List UInt8) (doc : Json) : Prop :=
  ∃ before text after, bytes = before ++ text ++ after ∧ (∀ b ∈ before, b ∈ jsonSpaces) ∧
    (∀ b ∈ after, b ∈ jsonSpaces) ∧ JsonText depth text doc

theorem stringText_of_plain {value : List UInt8} (h : ∀ b ∈ value, PlainByte b) :
    StringText value value := by
  induction value with
  | nil => exact .nil
  | cons b value ih =>
    obtain ⟨hb, hvalue⟩ := List.forall_mem_cons.1 h
    exact .plain hb (ih hvalue)

/-- **Items in a row.** -/
theorem itemsText_flatMap {α : Type*} {depth : ℕ} {text : α → List UInt8} {doc : α → Json} (a : α)
    (as : List α) (h : ∀ x ∈ a :: as, JsonText depth (text x) (doc x)) :
    ItemsText depth (text a ++ as.flatMap fun x => 0x2C :: text x) ((a :: as).map doc) := by
  induction as generalizing a with
  | nil =>
    rw [List.flatMap_nil, List.append_nil]
    exact .one (h a List.mem_cons_self)
  | cons b as ih =>
    obtain ⟨ha, hrest⟩ := List.forall_mem_cons.1 h
    exact .cons ha (ih b hrest) (List.cons_ne_nil _ _)

end Rust

end Latticed
