import Autofix.Json.Reader

/-! Codecs: how a value of a type is found in a JSON text, and in a JSON value. Records are read from
objects, whose unknown fields are passed over, or from arrays that hold the fields in order. -/
namespace Autofix.Json

/-- The two ways to read a value of type `α`. -/
structure Codec (α : Type) where
  read : Reader α
  ofValue? : Json → Option α

namespace Codec

def filterMap (f : α → Option β) (c : Codec α) : Codec β where
  read t := do
    let (a, rest) ← c.read t
    match f a with
    | some b => .ok (b, rest)
    | none => .error .shape
  ofValue? v := (c.ofValue? v).bind f

def map (f : α → β) (c : Codec α) : Codec β := c.filterMap fun a => some (f a)

def string : Codec String where
  read t :=
    match skipSpace t with
    | '"' :: rest => readStringTail rest
    | t => .error (wrongShape t)
  ofValue?
    | .string s => some s
    | _ => none

def bool : Codec Bool where
  read t :=
    match skipSpace t with
    | 't' :: rest => (readWord "rue".toList rest).map (true, ·)
    | 'f' :: rest => (readWord "alse".toList rest).map (false, ·)
    | t => .error (wrongShape t)
  ofValue?
    | .bool b => some b
    | _ => none

/-- An integer from 0 to `bound`. -/
def natural (bound : Nat) : Codec Nat where
  read t :=
    match skipSpace t with
    | c :: rest =>
        if startsNumber c then do
          let (n, rest) ← readNumber (c :: rest)
          match n.natural? with
          | some n => if n ≤ bound then .ok (n, rest) else .error .shape
          | none => .error .shape
        else .error (wrongShape (c :: rest))
    | [] => .error .endOfText
  ofValue?
    | .number literal =>
        ((numeral? literal).bind Numeral.natural?).filter (· ≤ bound)
    | _ => none

def optional (c : Codec α) : Codec (Option α) where
  read t :=
    match skipSpace t with
    | 'n' :: rest => (readWord "ull".toList rest).map (none, ·)
    | t => (c.read t).map fun (a, rest) => (some a, rest)
  ofValue?
    | .null => some none
    | v => (c.ofValue? v).map some

/-- A name of a table, alone or as the one field of an object whose value is `null`. -/
def choice (table : List (String × α)) : Codec α where
  read t :=
    match skipSpace t with
    | [] => .error .endOfText
    | '"' :: rest => do
        let (name, rest) ← readStringTail rest
        match table.lookup name with
        | some a => .ok (a, rest)
        | none => .error .shape
    | '\x7b' :: rest => do
        let (name, rest) ← string.read rest
        match table.lookup name with
        | none => .error .shape
        | some a =>
            let rest ← readColon rest
            match skipSpace rest with
            | 'n' :: rest =>
                let rest ← readWord "ull".toList rest
                match skipSpace rest with
                | '\x7d' :: rest => .ok (a, rest)
                | t => .error (unexpected t)
            | t => .error (wrongShape t)
    | _ => .error .syntaxError
  ofValue?
    | .string name => table.lookup name
    | .object [(name, .null)] => table.lookup name
    | _ => none

def list (c : Codec α) : Codec (List α) where
  read t :=
    match skipSpace t with
    | '[' :: rest =>
        (foldItems (fun items t => (c.read t).map fun (a, rest) => (a :: items, rest))
          (rest.length + 1) true [] rest).map fun (items, rest) => (items.reverse, rest)
    | t => .error (wrongShape t)
  ofValue?
    | .array items => items.mapM c.ofValue?
    | _ => none

end Codec

/-- A field of a record under construction. -/
structure Slot (σ : Type) where
  /-- The names that the field goes by. -/
  names : List String
  isSet : σ → Bool
  required : Bool
  codec : Codec (σ → σ)

namespace Slot

/-- A slot for the field that `set` puts into place. -/
def of (names : List String) (get : σ → Option α) (set : σ → Option α → σ) (required : Bool)
    (c : Codec α) : Slot σ :=
  { names, required, isSet := fun s => (get s).isSome, codec := c.map fun a s => set s (some a) }

end Slot

/-- One field of an object: its value is put into its slot, which must be empty, and passed over if there is no
slot for it. A field that is given twice is a fault, under whichever of its names. -/
def readField (slots : List (Slot σ)) (s : σ) (name : String) : Reader σ := fun t =>
  match slots.find? fun slot => slot.names.contains name with
  | none => do
      let t ← readColon t
      (skipValue (t.length + 1) t).map (s, ·)
  | some slot =>
      if slot.isSet s then .error .shape
      else do
        let t ← readColon t
        (slot.codec.read t).map fun (f, rest) => (f s, rest)

/-- The items of an array, one a slot. Slots at the end may stay empty if their fields need not be
there; items past the last slot are a fault. -/
def readSlots (slots : List (Slot σ)) (first : Bool) (s : σ) : Reader σ := fun t =>
  match slots with
  | [] =>
      match skipSpace t with
      | ']' :: rest => .ok (s, rest)
      | t => .error (unexpected t)
  | slot :: slots => do
      let (more, rest) ← nextItem first t
      if more then
        let (f, rest) ← slot.codec.read rest
        readSlots slots false (f s) rest
      else if slot.required then .error .shape
      else readSlots slots first s rest

/-- The fields of an object value put into their slots. -/
def fillFields (slots : List (Slot σ)) : List (String × Json) → σ → Option σ
  | [], s => some s
  | (name, value) :: fields, s =>
      match slots.find? fun slot => slot.names.contains name with
      | none => fillFields slots fields s
      | some slot =>
          if slot.isSet s then none
          else do
            let f ← slot.codec.ofValue? value
            fillFields slots fields (f s)

/-- The items of an array value put into the slots. -/
def fillSlots : List (Slot σ) → List Json → σ → Option σ
  | [], [], s => some s
  | [], _ :: _, _ => none
  | slot :: slots, [], s => if slot.required then none else fillSlots slots [] s
  | slot :: slots, item :: items, s => do
      let f ← slot.codec.ofValue? item
      fillSlots slots items (f s)

/-- A record that is built from its slots; `finish` fails if a field is missing. -/
def Codec.record (slots : List (Slot σ)) (empty : σ) (finish : σ → Option α) : Codec α where
  read t := do
    let (s, rest) ← match skipSpace t with
      | '[' :: rest => readSlots slots true empty rest
      | '\x7b' :: rest => foldFields (readField slots) (rest.length + 1) true empty rest
      | t => .error (wrongShape t)
    match finish s with
    | some a => .ok (a, rest)
    | none => .error .shape
  ofValue?
    | .array items => (fillSlots slots items empty).bind finish
    | .object fields => (fillFields slots fields empty).bind finish
    | _ => none

def maxWord : Nat := UInt64.size - 1

def maxHalfWord : Nat := UInt32.size - 1

end Autofix.Json
