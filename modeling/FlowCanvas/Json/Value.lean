import FlowCanvas.Number.Style

/-!
JSON values as they are read and written. A value keeps the fields of an object in order, with
repetitions; a canonical value has them sorted by key, each key once, and holds only numbers that a
text can carry. What a document passes along without looking at it is canonical by type.
-/

namespace FlowCanvas

inductive Number
  | integer (i : Int)
  | single (x : Float32)
  | double (x : Float)

/-- `unreadable` stands for a spelling without a value, such as half of a surrogate pair: a reader
may skip it, but not look at it. -/
inductive Json
  | null
  | bool (b : Bool)
  | number (n : Number)
  | text (s : String)
  | array (items : List Json)
  | object (fields : List (String × Json))
  | unreadable

namespace Number

/-- Whole numbers are carried along if they fit sixty-four bits, with or without a sign, and
doubles if they are finite. -/
def isPortable : Number → Bool
  | .integer i => -0x8000000000000000 ≤ i ∧ i < 0x10000000000000000
  | .single _ => false
  | .double x => Binary.isFinite (Binary.ofDouble x)

def toSingle : Number → Float32
  | .integer i => Float32.ofInt i
  | .single x => x
  | .double x => Binary.narrow x

end Number

namespace Json

mutual

def isReadable : Json → Bool
  | .unreadable => false
  | .array items => itemsReadable items
  | .object fields => fieldsReadable fields
  | _ => true

def itemsReadable : List Json → Bool
  | [] => true
  | j :: js => j.isReadable && itemsReadable js

def fieldsReadable : List (String × Json) → Bool
  | [] => true
  | (_, j) :: fs => j.isReadable && fieldsReadable fs

end

mutual

def depth : Json → Nat
  | .array items => itemsDepth items + 1
  | .object fields => fieldsDepth fields + 1
  | _ => 0

def itemsDepth : List Json → Nat
  | [] => 0
  | j :: js => max j.depth (itemsDepth js)

def fieldsDepth : List (String × Json) → Nat
  | [] => 0
  | (_, j) :: fs => max j.depth (fieldsDepth fs)

end

def insertField (key : String) (j : Json) : List (String × Json) → List (String × Json)
  | [] => [(key, j)]
  | (k, v) :: fs =>
    if key < k then (key, j) :: (k, v) :: fs
    else if key = k then (k, v) :: fs
    else (k, v) :: insertField key j fs

mutual

/-- Sorts the fields of all objects by key and keeps the last of those with the same key; what
cannot be carried along becomes null. -/
def canonical : Json → Json
  | .number n => if n.isPortable then .number n else .null
  | .array items => .array (canonicalItems items)
  | .object fields => .object (canonicalFields fields)
  | .unreadable => .null
  | j => j

def canonicalItems : List Json → List Json
  | [] => []
  | j :: js => j.canonical :: canonicalItems js

def canonicalFields : List (String × Json) → List (String × Json)
  | [] => []
  | (k, j) :: fs => insertField k j.canonical (canonicalFields fs)

end

def precedes (key : String) : List (String × Json) → Bool
  | [] => true
  | (k, _) :: _ => key < k

mutual

def isCanonical : Json → Bool
  | .number n => n.isPortable
  | .array items => itemsCanonical items
  | .object fields => fieldsCanonical fields
  | .unreadable => false
  | _ => true

def itemsCanonical : List Json → Bool
  | [] => true
  | j :: js => j.isCanonical && itemsCanonical js

def fieldsCanonical : List (String × Json) → Bool
  | [] => true
  | (k, j) :: fs => j.isCanonical && precedes k fs && fieldsCanonical fs

end

theorem precedes_insertField {key k : String} {j : Json} {fs : List (String × Json)}
    (h : k < key) (hp : precedes k fs = true) : precedes k (insertField key j fs) = true := by
  cases fs with
  | nil => simpa [insertField, precedes] using h
  | cons f fs =>
    obtain ⟨k', v⟩ := f
    simp only [insertField]
    split
    · simpa [precedes] using h
    · split <;> simpa [precedes] using hp

theorem fieldsCanonical_insertField {key : String} {j : Json} (hj : j.isCanonical = true) :
    ∀ {fs : List (String × Json)}, fieldsCanonical fs = true →
      fieldsCanonical (insertField key j fs) = true
  | [], _ => by simp [insertField, fieldsCanonical, precedes, hj]
  | (k, v) :: fs, h => by
    simp only [fieldsCanonical, Bool.and_eq_true] at h
    obtain ⟨⟨hv, hp⟩, hfs⟩ := h
    simp only [insertField]
    split
    · rename_i hlt
      have hk : precedes key ((k, v) :: fs) = true := by simpa [precedes] using hlt
      simp [fieldsCanonical, hk, hj, hv, hfs, hp]
    · split
      · simp [fieldsCanonical, hv, hp, hfs]
      · rename_i hlt hne
        have hk : k < key := Std.lt_of_le_of_ne (Std.not_lt.1 hlt) (fun h => hne h.symm)
        simp [fieldsCanonical, hv, precedes_insertField hk hp,
          fieldsCanonical_insertField hj hfs]

mutual

theorem isCanonical_canonical : ∀ j : Json, j.canonical.isCanonical = true
  | .null => rfl
  | .bool _ => rfl
  | .number n => by
    simp only [canonical]
    split
    · assumption
    · rfl
  | .text _ => rfl
  | .array items => by simpa [canonical, isCanonical] using itemsCanonical_canonicalItems items
  | .object fields => by
    simpa [canonical, isCanonical] using fieldsCanonical_canonicalFields fields
  | .unreadable => rfl

theorem itemsCanonical_canonicalItems : ∀ js : List Json,
    itemsCanonical (canonicalItems js) = true
  | [] => rfl
  | j :: js => by
    simp [canonicalItems, itemsCanonical, isCanonical_canonical j,
      itemsCanonical_canonicalItems js]

theorem fieldsCanonical_canonicalFields : ∀ fs : List (String × Json),
    fieldsCanonical (canonicalFields fs) = true
  | [] => rfl
  | (_, j) :: fs => by
    simpa [canonicalFields] using
      fieldsCanonical_insertField (isCanonical_canonical j) (fieldsCanonical_canonicalFields fs)

end

def fields? (known : List String) : Json → Option (List (String × Json))
  | .object fields =>
    if known.all fun k => fields.countP (·.1 == k) ≤ 1 then some fields else none
  | _ => none

/-- Like `fields?`, and as well a sequence of exactly the values of the `known` keys, in order. -/
def record? (known : List String) : Json → Option (List (String × Json))
  | .array items => if items.length = known.length then some (known.zip items) else none
  | j => j.fields? known

def text? : Json → Option String
  | .text s => some s
  | _ => none

def single? : Json → Option Float32
  | .number n => some n.toSingle
  | _ => none

def count? : Json → Option Nat
  | .number (.integer i) => if 0 ≤ i ∧ i < 0x10000000000000000 then some i.toNat else none
  | _ => none

def items? : Json → Option (List Json)
  | .array items => some items
  | _ => none

end Json

structure Payload where
  json : Json
  canonical : json.isCanonical = true

structure Extras where
  fields : List (String × Json)
  canonical : Json.fieldsCanonical fields = true

namespace Payload

def ofJson (j : Json) : Payload := ⟨j.canonical, j.isCanonical_canonical⟩

def null : Payload := ⟨.null, rfl⟩

def isNull (p : Payload) : Bool :=
  match p.json with
  | .null => true
  | _ => false

end Payload

namespace Extras

def ofFields (fields : List (String × Json)) : Extras :=
  ⟨Json.canonicalFields fields, Json.fieldsCanonical_canonicalFields fields⟩

def none : Extras := ⟨[], rfl⟩

def isEmpty (e : Extras) : Bool := e.fields.isEmpty

end Extras

end FlowCanvas
