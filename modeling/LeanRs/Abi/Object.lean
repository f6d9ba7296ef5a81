import LeanRs.Abi.Types
import LeanRs.General.LittleEndian

/-! What a decoder sees of a Lean object, and what it takes each kind of object for. An object is
seen through its header and its slots; whether the slots hold whole objects or addresses is left
open. -/
namespace LeanRs

inductive HeapKind where
  | promise
  | closure
  | structArray
  | mpz
  | thunk
  | task
  | ref
  | external
  | reserved
  deriving DecidableEq

def HeapKind.tag : HeapKind → Nat
  | promise => 244
  | closure => 245
  | structArray => 247
  | mpz => 250
  | thunk => 251
  | task => 252
  | ref => 253
  | external => 254
  | reserved => 255

/-- One object: a scalar-tagged pointer, or the header, the slots and the bytes of a heap object. -/
inductive View (A : Type) where
  | scalar (payload : Nat)
  | ctor (tag : Nat) (fields : List A) (scalars : List UInt8)
  | string (bytes : ByteArray)
  | array (elements : List A)
  | sarray (elemSize : Nat) (bytes : List UInt8)
  | other (kind : HeapKind) (children : List A)

inductive LeanObj where
  | scalar (payload : Nat)
  | ctor (tag : Nat) (fields : List LeanObj) (scalars : List UInt8)
  | string (bytes : ByteArray)
  | array (elements : List LeanObj)
  | sarray (elemSize : Nat) (bytes : List UInt8)
  | other (kind : HeapKind) (children : List LeanObj)

def LeanObj.view : LeanObj → View LeanObj
  | scalar payload => .scalar payload
  | ctor tag fields scalars => .ctor tag fields scalars
  | string bytes => .string bytes
  | array elements => .array elements
  | sarray elemSize bytes => .sarray elemSize bytes
  | other kind children => .other kind children

def View.objTag {A : Type} : View A → Nat
  | scalar payload => payload % 2 ^ 32
  | ctor tag _ _ => tag
  | array _ => 246
  | sarray _ _ => 248
  | string _ => 249
  | other kind _ => kind.tag

@[reducible] def BaseType.Value : BaseType → Type
  | unit => Unit
  | bool => Bool
  | u8 => UInt8
  | u16 => UInt16
  | u32 => UInt32
  | i8 => Int8
  | i16 => Int16
  | i32 => Int32
  | u64 => UInt64
  | usize => UInt64
  | i64 => Int64
  | isize => Int64
  | char => Char
  | f64 => UInt64
  | string => String

@[reducible] def RustType.Value (H : Type) : RustType → Type
  | base type => type.Value
  | option inner => Option (inner.Value H)
  | result ok err => Except (err.Value H) (ok.Value H)
  | vec element => List (element.Value H)
  | pair first second => first.Value H × second.Value H
  | triple first second third => first.Value H × second.Value H × third.Value H
  | obj => H

/-- A read outside the object is not an error that the code reports. -/
inductive DecodeError where
  | outOfBounds
  | conversion (failure : HostFailure)
  deriving DecidableEq

section Read

variable {A : Type}

def conversionError {B : Type} (message : String) : Except HostFailure B :=
  .error (.abiConversion message)

def foundScalar {B : Type} (expected : String) : Except HostFailure B :=
  conversionError ("expected Lean " ++ expected ++ ", found scalar-tagged object")

def foundObject {B : Type} (expected : String) (view : View A) : Except HostFailure B :=
  conversionError ("expected Lean " ++ expected ++ ", found object with tag " ++
    toString view.objTag)

def outOfRange {B : Type} (expected : String) : Except HostFailure B :=
  conversionError ("Lean value does not fit Rust " ++ expected)

def requireScalar (expected : String) : View A → Except HostFailure Nat
  | .scalar payload => .ok payload
  | view => foundObject expected view

/-- The object fields and the scalar bytes of a constructor, whatever its tag. -/
def requireCtor (expected : String) : View A → Except HostFailure (List A × List UInt8)
  | .scalar _ => foundScalar expected
  | .ctor _ fields scalars => .ok (fields, scalars)
  | view => foundObject expected view

def requireString : View A → Except HostFailure ByteArray
  | .scalar _ => foundScalar "String"
  | .string bytes => .ok bytes
  | view => foundObject "String" view

/-- An integer of at most 32 bits: the payload has to fit the unsigned type of its width. -/
def smallInt {B : Type} (expected : String) (width : Nat) (cast : Nat → B) (view : View A) :
    Except HostFailure B := do
  let payload ← requireScalar expected view
  if payload < 2 ^ width then .ok (cast payload) else outOfRange expected

def scalarArea (scalars : List UInt8) : Except DecodeError UInt64 :=
  if 8 ≤ scalars.length then .ok (UInt64.ofNat (LittleEndian.ofBytes (scalars.take 8)))
  else .error .outOfBounds

/-- `lean_unbox_uint64` and `lean_unbox_float`: eight bytes after the object fields. -/
def unboxUInt64 (expected : String) (view : View A) : Except DecodeError UInt64 :=
  match requireCtor expected view with
  | .error failure => .error (.conversion failure)
  | .ok (_, scalars) => scalarArea scalars

/-- `lean_unbox_usize`: the word in slot 0, which is an object field if there is one. -/
def unboxUSize (bits : A → UInt64) (expected : String) (view : View A) :
    Except DecodeError UInt64 :=
  match requireCtor expected view with
  | .error failure => .error (.conversion failure)
  | .ok (field :: _, _) => .ok (bits field)
  | .ok ([], scalars) => scalarArea scalars

def hexDigits (n : Nat) : String := "0x" ++ String.ofList (Nat.toDigits 16 n)

def readBool (view : View A) : Except HostFailure Bool := do
  let payload ← requireScalar "Bool" view
  if payload = 0 then .ok false
  else if payload = 1 then .ok true
  else outOfRange "bool"

def readChar (view : View A) : Except HostFailure Char := do
  let payload ← requireScalar "char" view
  if payload < 2 ^ 32 then
    if payload.isValidChar then .ok (Char.ofNat payload)
    else conversionError ("Lean char " ++ hexDigits payload ++ " is not a Unicode scalar value")
  else outOfRange "char"

def readString (view : View A) : Except HostFailure String := do
  let bytes ← requireString view
  match String.fromUTF8? bytes with
  | some text => .ok text
  | none => conversionError "Lean string bytes were not valid UTF-8"

/-- `try_from_lean` of the base types. `bits` is the address in a slot as a number. -/
def BaseType.read (bits : A → UInt64) : (type : BaseType) → View A → Except DecodeError type.Value
  | unit, view => ((requireScalar "Unit" view).map fun _ => ()).mapError .conversion
  | bool, view => (readBool view).mapError .conversion
  | u8, view => (smallInt "u8" 8 UInt8.ofNat view).mapError .conversion
  | u16, view => (smallInt "u16" 16 UInt16.ofNat view).mapError .conversion
  | u32, view => (smallInt "u32" 32 UInt32.ofNat view).mapError .conversion
  | i8, view => (smallInt "i8" 8 (fun n => (UInt8.ofNat n).toInt8) view).mapError .conversion
  | i16, view => (smallInt "i16" 16 (fun n => (UInt16.ofNat n).toInt16) view).mapError .conversion
  | i32, view => (smallInt "i32" 32 (fun n => (UInt32.ofNat n).toInt32) view).mapError .conversion
  | u64, view => unboxUInt64 "u64" view
  | usize, view => unboxUSize bits "usize" view
  | i64, view => (unboxUInt64 "i64" view).map UInt64.toInt64
  | isize, view => (unboxUSize bits "isize" view).map UInt64.toInt64
  | char, view => (readChar view).mapError .conversion
  | f64, view => unboxUInt64 "f64" view
  | string, view => (readString view).mapError .conversion

/-- `CtorView::new` and the tag check: the fields of the expected constructor. -/
def ctorFields (expectedTag : Nat) (label : String) : View A → Except HostFailure (List A)
  | .scalar _ => foundScalar "constructor"
  | .ctor tag fields _ =>
    if tag = expectedTag then .ok fields
    else conversionError ("expected Lean " ++ label ++ " ctor (tag " ++ toString expectedTag ++
      "), found tag " ++ toString tag)
  | view => foundObject "constructor" view

def fieldCount {B : Type} (expected : Nat) (label : String) (found : List A) :
    Except HostFailure B :=
  conversionError ("expected Lean " ++ label ++ " ctor with " ++ toString expected ++
    " object field(s), found " ++ toString found.length)

def takeOne (expectedTag : Nat) (label : String) (view : View A) : Except HostFailure A :=
  match ctorFields expectedTag label view with
  | .error failure => .error failure
  | .ok [field] => .ok field
  | .ok fields => fieldCount 1 label fields

def takeTwo (expectedTag : Nat) (label : String) (view : View A) : Except HostFailure (A × A) :=
  match ctorFields expectedTag label view with
  | .error failure => .error failure
  | .ok [first, second] => .ok (first, second)
  | .ok fields => fieldCount 2 label fields

/-- What `Option::try_from_lean` finds: nothing, or the slot of `some`. -/
def optionSlot (view : View A) : Except HostFailure (Option A) :=
  match view with
  | .scalar payload =>
    if payload = 0 then .ok none
    else conversionError ("expected Lean Option.none (scalar tag 0), found scalar payload " ++
      toString payload)
  | .ctor tag _ _ =>
    if tag = 1 then (takeOne 1 "Option::some" view).map some
    else conversionError ("expected Lean Option.some ctor (tag 1), found heap ctor with tag " ++
      toString tag)
  | _ => conversionError ("expected Lean Option ctor or scalar tag, found object with tag " ++
      toString view.objTag)

/-- What `Except::try_from_lean` finds: the slot of `error` or that of `ok`. -/
def exceptSlot (view : View A) : Except HostFailure (Except A A) :=
  match view with
  | .scalar _ => foundScalar "constructor"
  | .ctor tag _ _ =>
    if tag = 0 then (takeOne 0 "Except::error" view).map .error
    else if tag = 1 then (takeOne 1 "Except::ok" view).map .ok
    else conversionError ("expected Lean Except ctor (tag 0 = error, 1 = ok), found tag " ++
      toString tag)
  | _ => foundObject "constructor" view

def pairSlots (view : View A) : Except HostFailure (A × A) := takeTwo 0 "Prod.mk" view

def arraySlots : View A → Except HostFailure (List A)
  | .scalar _ => foundScalar "Array"
  | .array elements => .ok elements
  | view => foundObject "Array" view

end Read

section Slots

variable {A : Type} {view : View A} {first second slot : A}

theorem map_ok {E B C : Type} {r : Except E B} {f : B → C} {c : C} :
    r.map f = .ok c ↔ ∃ b, r = .ok b ∧ f b = c := by
  cases r with
  | error e => simp [Except.map]
  | ok b => simp [Except.map]

theorem map_error {E B C : Type} {r : Except E B} {f : B → C} {e : E} :
    r.map f = .error e ↔ r = .error e := by
  cases r with
  | error e' => simp [Except.map]
  | ok b => simp [Except.map]

theorem takeOne_ok (tag : Nat) (label : String) :
    takeOne tag label view = .ok slot ↔ ∃ scalars, view = .ctor tag [slot] scalars := by
  constructor
  · intro h
    cases view with
    | ctor tag' fields scalars =>
      by_cases same : tag' = tag
      · subst same
        match fields with
        | [] | _ :: _ :: _ => simp [takeOne, ctorFields, fieldCount, conversionError] at h
        | [field] =>
          simp only [takeOne, ctorFields, if_true] at h
          cases h
          exact ⟨scalars, rfl⟩
      · simp [takeOne, ctorFields, conversionError, same] at h
    | scalar _ | string _ | array _ | sarray _ _ | other _ _ => cases h
  · rintro ⟨scalars, rfl⟩
    simp [takeOne, ctorFields]

theorem pairSlots_ok :
    pairSlots view = .ok (first, second) ↔ ∃ scalars, view = .ctor 0 [first, second] scalars := by
  constructor
  · intro h
    cases view with
    | ctor tag fields scalars =>
      by_cases same : tag = 0
      · subst same
        match fields with
        | [] | [_] | _ :: _ :: _ :: _ =>
          simp [pairSlots, takeTwo, ctorFields, fieldCount, conversionError] at h
        | [a, b] =>
          simp only [pairSlots, takeTwo, ctorFields, if_true] at h
          cases h
          exact ⟨scalars, rfl⟩
      · simp [pairSlots, takeTwo, ctorFields, conversionError, same] at h
    | scalar _ | string _ | array _ | sarray _ _ | other _ _ => cases h
  · rintro ⟨scalars, rfl⟩
    simp [pairSlots, takeTwo, ctorFields]

theorem optionSlot_some :
    optionSlot view = .ok (some slot) ↔ ∃ scalars, view = .ctor 1 [slot] scalars := by
  cases view with
  | ctor tag fields scalars =>
    by_cases same : tag = 1
    · rw [← takeOne_ok 1 "Option::some"]
      simp [optionSlot, same, map_ok]
    · simp [optionSlot, conversionError, same]
  | scalar payload =>
    simp only [optionSlot]
    split <;> simp [conversionError]
  | string _ | array _ | sarray _ _ | other _ _ => simp [optionSlot, conversionError]

theorem optionSlot_none : optionSlot view = .ok none ↔ view = .scalar 0 := by
  cases view with
  | ctor tag fields scalars =>
    simp only [optionSlot]
    split
    · simp [map_ok]
    · simp [conversionError]
  | scalar payload =>
    simp only [optionSlot]
    split <;> simp [conversionError, *]
  | string _ | array _ | sarray _ _ | other _ _ => simp [optionSlot, conversionError]

theorem exceptSlot_error :
    exceptSlot view = .ok (.error slot) ↔ ∃ scalars, view = .ctor 0 [slot] scalars := by
  cases view with
  | ctor tag fields scalars =>
    by_cases same : tag = 0
    · rw [← takeOne_ok 0 "Except::error"]
      simp [exceptSlot, same, map_ok]
    · simp only [exceptSlot, if_neg same]
      split
      · simp [map_ok, same]
      · simp [conversionError, same]
  | scalar _ | string _ | array _ | sarray _ _ | other _ _ =>
    simp [exceptSlot, foundScalar, foundObject, conversionError]

theorem exceptSlot_ok :
    exceptSlot view = .ok (.ok slot) ↔ ∃ scalars, view = .ctor 1 [slot] scalars := by
  cases view with
  | ctor tag fields scalars =>
    by_cases same : tag = 1
    · rw [← takeOne_ok 1 "Except::ok"]
      simp [exceptSlot, same, map_ok]
    · simp only [exceptSlot, if_neg same]
      split
      · simp [map_ok, same]
      · simp [conversionError, same]
  | scalar _ | string _ | array _ | sarray _ _ | other _ _ =>
    simp [exceptSlot, foundScalar, foundObject, conversionError]

theorem arraySlots_ok {slots : List A} : arraySlots view = .ok slots ↔ view = .array slots := by
  cases view with
  | array elements => simp [arraySlots]
  | scalar _ | ctor _ _ _ | string _ | sarray _ _ | other _ _ =>
    simp [arraySlots, foundScalar, foundObject, conversionError]

end Slots

end LeanRs
