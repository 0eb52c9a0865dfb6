import Latticed.Rust.Bytes
import Latticed.Rust.Outcome
import Latticed.Rust.Text

/-!
# JSON documents

What `serde` makes of a value before `serde_json` prints it, and what it makes of a document that was parsed.
A `Format` is a type's `Serialize` and `Deserialize`, and that they fit together.

* `Format.list`, `Format.array`, `Format.convert` : the formats of lists, of arrays, and of types that are
  written as another.
* `Json.fields`, `Format.required`, `Format.optional` : the fields of a structure.
-/

namespace Latticed

namespace Rust

/-- A document.  A number that is not an integer is kept as it is printed. -/
inductive Json where
  | null
  | bool (b : Bool)
  | number (n : ℤ)
  | float (text : String)
  | string (text : String)
  | array (items : List Json)
  | object (members : List (String × Json))

mutual

/-- Equality of documents, computed. -/
def Json.same : Json → Json → Bool
  | .null, .null => true
  | .bool a, .bool b => a = b
  | .number a, .number b => a = b
  | .float a, .float b => a = b
  | .string a, .string b => a = b
  | .array as, .array bs => Json.sameItems as bs
  | .object as, .object bs => Json.sameMembers as bs
  | _, _ => false

def Json.sameItems : List Json → List Json → Bool
  | [], [] => true
  | a :: as, b :: bs => a.same b && Json.sameItems as bs
  | _, _ => false

def Json.sameMembers : List (String × Json) → List (String × Json) → Bool
  | [], [] => true
  | (name, a) :: as, (name', b) :: bs => name = name' && a.same b && Json.sameMembers as bs
  | _, _ => false

end

mutual

theorem Json.same_iff (a b : Json) : a.same b = true ↔ a = b := by
  cases a with
  | array as => cases b <;> simp [Json.same, Json.sameItems_iff as]
  | object as => cases b <;> simp [Json.same, Json.sameMembers_iff as]
  | _ => cases b <;> simp [Json.same]

theorem Json.sameItems_iff (as bs : List Json) : Json.sameItems as bs = true ↔ as = bs := by
  cases as with
  | nil => cases bs <;> simp [Json.sameItems]
  | cons a as => cases bs <;> simp [Json.sameItems, Json.same_iff a, Json.sameItems_iff as]

theorem Json.sameMembers_iff (as bs : List (String × Json)) :
    Json.sameMembers as bs = true ↔ as = bs := by
  cases as with
  | nil => cases bs <;> simp [Json.sameMembers]
  | cons member as =>
    obtain ⟨name, a⟩ := member
    cases bs <;>
      simp [Json.sameMembers, Json.same_iff a, Json.sameMembers_iff as, Prod.ext_iff]

end

instance : DecidableEq Json := fun a b => decidable_of_iff _ (Json.same_iff a b)

/-- `Serialize` and `Deserialize` of a type. -/
structure Format (α : Type) where
  write : α → Json
  read : Json → Except String α
  read_write : ∀ a, read (write a) = .ok a

namespace Format

variable {α β : Type}

/-- An unsigned type of `bits` bits. -/
def unsigned (bits : ℕ) (toNat : α → ℕ) (ofNat : ℕ → α) (hlt : ∀ a, toNat a < 2 ^ bits)
    (hof : ∀ a, ofNat (toNat a) = a) : Format α where
  write a := .number (toNat a)
  read
    | .number n => if 0 ≤ n ∧ n < 2 ^ bits then .ok (ofNat n.toNat) else .error "invalid value"
    | _ => .error "invalid type"
  read_write a := by
    have h := hlt a
    have hrange : (0 : ℤ) ≤ toNat a ∧ (toNat a : ℤ) < 2 ^ bits := ⟨by omega, by exact_mod_cast h⟩
    show (if _ then Except.ok (ofNat (toNat a : ℤ).toNat) else _) = _
    rw [if_pos hrange, Int.toNat_natCast, hof]

/-- `u8`. -/
def u8 : Format UInt8 := unsigned 8 UInt8.toNat UInt8.ofNat UInt8.toNat_lt fun _ => UInt8.ofNat_toNat

/-- `u64`. -/
def u64 : Format UInt64 :=
  unsigned 64 UInt64.toNat UInt64.ofNat UInt64.toNat_lt fun _ => UInt64.ofNat_toNat

/-- `String`. -/
def string : Format String where
  write := .string
  read
    | .string text => .ok text
    | _ => .error "invalid type"
  read_write _ := rfl

theorem mapM_write (f : Format α) (as : List α) : (as.map f.write).mapM f.read = .ok as := by
  induction as with
  | nil => rfl
  | cons a as ih => rw [List.map_cons, List.mapM_cons, f.read_write, ih]; rfl

/-- `Vec`. -/
def list (f : Format α) : Format (List α) where
  write as := .array (as.map f.write)
  read
    | .array items => items.mapM f.read
    | _ => .error "invalid type"
  read_write as := f.mapM_write as

/-- A type that is written as another. -/
def convert (f : Format β) (into : α → β) (of : β → Except String α) (h : ∀ a, of (into a) = .ok a) :
    Format α where
  write a := f.write (into a)
  read value := (f.read value).bind of
  read_write a := by
    rw [f.read_write]
    exact h a

/-- `[T; n]`. -/
def array (f : Format α) (n : ℕ) : Format (Vector α n) :=
  f.list.convert Vector.toList
    (fun as => if h : as.length = n then .ok ⟨as.toArray, by simpa using h⟩ else .error "invalid length")
    fun v => by
      rw [dif_pos Vector.length_toList]
      exact congrArg Except.ok (Vector.toArray_inj.1 Array.toArray_toList)

end Format

/-! ### Structures -/

/-- The fields of a structure: an object has them by their names, and what it has besides is skipped; an array
has them in the order of their declaration. -/
def Json.fields (names : List String) : Json → Except String (List (String × Json))
  | .object members => .ok members
  | .array items => if items.length ≤ names.length then .ok (names.zip items) else .error "invalid length"
  | _ => .error "invalid type"

/-- A field that is there once at most. -/
def Json.field (fields : List (String × Json)) (name : String) : Except String (Option Json) :=
  match fields.filter (·.1 = name) with
  | [] => .ok none
  | [(_, value)] => .ok (some value)
  | _ => .error ("duplicate field `" ++ name ++ "`")

variable {α : Type}

/-- A field that has to be there. -/
def Format.required (f : Format α) (fields : List (String × Json)) (name : String) :
    Except String α :=
  (Json.field fields name).bind fun
    | some value => f.read value
    | none => .error ("missing field `" ++ name ++ "`")

/-- A field that may be left out, or be `null`. -/
def Format.optional (f : Format α) (fields : List (String × Json)) (name : String) :
    Except String (Option α) :=
  (Json.field fields name).bind fun
    | none => .ok none
    | some .null => .ok none
    | some value => (f.read value).map some

theorem Json.field_eq_none {fields : List (String × Json)} {name : String}
    (h : name ∉ fields.map (·.1)) : Json.field fields name = .ok none := by
  have hfilter : fields.filter (·.1 = name) = [] := by
    refine List.filter_eq_nil_iff.2 fun member hmem heq => h ?_
    exact List.mem_map.2 ⟨member, hmem, of_decide_eq_true heq⟩
  rw [Json.field, hfilter]

theorem Json.field_eq_some {fields : List (String × Json)} {name : String} {value : Json}
    (hnodup : (fields.map (·.1)).Nodup) (h : (name, value) ∈ fields) :
    Json.field fields name = .ok (some value) := by
  have hfilter : fields.filter (·.1 = name) = [(name, value)] := by
    induction fields with
    | nil => cases h
    | cons member fields ih =>
      obtain ⟨hmember, hrest⟩ := List.nodup_cons.1 hnodup
      rcases List.mem_cons.1 h with rfl | hmem
      · -- the name does not come again
        rw [List.filter_cons_of_pos (by simp), List.filter_eq_nil_iff.2]
        exact fun other hother heq =>
          hmember (List.mem_map.2 ⟨other, hother, of_decide_eq_true heq⟩)
      · rw [List.filter_cons_of_neg, ih hrest hmem]
        intro heq
        exact hmember (List.mem_map.2 ⟨(name, value), hmem, (of_decide_eq_true heq).symm⟩)
  rw [Json.field, hfilter]

/-- **A field that was written is read back.** -/
theorem Format.required_write (f : Format α) {fields : List (String × Json)} {name : String} {a : α}
    (hnodup : (fields.map (·.1)).Nodup) (h : (name, f.write a) ∈ fields) :
    f.required fields name = .ok a := by
  rw [Format.required, Json.field_eq_some hnodup h]
  exact f.read_write a

theorem Format.optional_write (f : Format α) {fields : List (String × Json)} {name : String} {a : α}
    (hnodup : (fields.map (·.1)).Nodup) (h : (name, f.write a) ∈ fields) (hnull : f.write a ≠ .null) :
    f.optional fields name = .ok (some a) := by
  rw [Format.optional, Json.field_eq_some hnodup h]
  have hread := f.read_write a
  cases hvalue : f.write a with
  | null => exact absurd hvalue hnull
  | _ =>
    rw [hvalue] at hread
    exact congrArg (Except.map some) hread

theorem Format.optional_absent (f : Format α) {fields : List (String × Json)} {name : String}
    (h : name ∉ fields.map (·.1)) : f.optional fields name = .ok none := by
  rw [Format.optional, Json.field_eq_none h]
  rfl

end Rust

end Latticed
