import LeanRs.Abi.Decode

/-! Which objects a decoder reads safely. Every kind of object is told apart before it is read,
except that the decoders of 64-bit numbers take any constructor for a boxed number. -/
namespace LeanRs

mutual

/-- The first object has the shape of the second: its kind, and for a constructor its tag, its
number of fields, fields of the same shapes and at least as many scalar bytes. -/
def SameShape : LeanObj → LeanObj → Prop
  | .scalar _, .scalar _ => True
  | .ctor tag fields scalars, .ctor tag' fields' scalars' =>
    tag = tag' ∧ SameShapes fields fields' ∧ scalars'.length ≤ scalars.length
  | .string _, .string _ => True
  | .array elements, .array elements' => SameShapes elements elements'
  | .sarray elemSize _, .sarray elemSize' _ => elemSize = elemSize'
  | .other kind children, .other kind' children' =>
    kind = kind' ∧ SameShapes children children'
  | _, _ => False

def SameShapes : List LeanObj → List LeanObj → Prop
  | [], [] => True
  | o :: rest, o' :: rest' => SameShape o o' ∧ SameShapes rest rest'
  | _, _ => False

end

mutual

theorem SameShape.refl : (o : LeanObj) → SameShape o o
  | .scalar _ => trivial
  | .ctor _ fields _ => ⟨rfl, SameShapes.refl fields, Nat.le_refl _⟩
  | .string _ => trivial
  | .array elements => SameShapes.refl elements
  | .sarray _ _ => rfl
  | .other _ children => ⟨rfl, SameShapes.refl children⟩

theorem SameShapes.refl : (os : List LeanObj) → SameShapes os os
  | [] => trivial
  | o :: rest => ⟨SameShape.refl o, SameShapes.refl rest⟩

end

/-- The object has the shape of some value of the type. -/
def HasShape (type : RustType) (o : LeanObj) : Prop := ∃ v, SameShape o (type.intoLeanObj v)

/-- A constructor that is read as a 64-bit number has the bytes that are read. The pointer-width
decoders read the first word, which may be an object field. -/
def BaseType.InBounds : BaseType → View LeanObj → Prop
  | u64, .ctor _ _ scalars | i64, .ctor _ _ scalars | f64, .ctor _ _ scalars => 8 ≤ scalars.length
  | usize, .ctor _ fields scalars | isize, .ctor _ fields scalars =>
    fields = [] → 8 ≤ scalars.length
  | _, _ => True

def BaseType.Accepted : BaseType → View LeanObj → Prop
  | unit, .scalar _ => True
  | bool, .scalar payload => payload < 2
  | u8, .scalar payload | i8, .scalar payload => payload < 2 ^ 8
  | u16, .scalar payload | i16, .scalar payload => payload < 2 ^ 16
  | u32, .scalar payload | i32, .scalar payload => payload < 2 ^ 32
  | char, .scalar payload => payload < 2 ^ 32 ∧ payload.isValidChar
  | u64, .ctor _ _ _ | usize, .ctor _ _ _ | i64, .ctor _ _ _ | isize, .ctor _ _ _
  | f64, .ctor _ _ _ => True
  | string, .string bytes => bytes.IsValidUTF8
  | _, _ => False

/-- A constructor that is read as a 64-bit number is a boxed one. -/
def BaseType.Exact : BaseType → View LeanObj → Prop
  | u64, .ctor tag fields _ | usize, .ctor tag fields _ | i64, .ctor tag fields _
  | isize, .ctor tag fields _ | f64, .ctor tag fields _ => tag = 0 ∧ fields = []
  | _, _ => True

section Parts

variable (I A E J B F : LeanObj → Prop)

def OptionBounds (o : LeanObj) : Prop := ∀ slot, optionSlot o.view = .ok (some slot) → I slot

def OptionAccepted (o : LeanObj) : Prop :=
  ∃ found, optionSlot o.view = .ok found ∧ ∀ slot, found = some slot → A slot

def ResultBounds (o : LeanObj) : Prop :=
  (∀ slot, exceptSlot o.view = .ok (.error slot) → J slot) ∧
    ∀ slot, exceptSlot o.view = .ok (.ok slot) → I slot

def ResultAccepted (o : LeanObj) : Prop :=
  (∃ slot, exceptSlot o.view = .ok (.error slot) ∧ B slot) ∨
    ∃ slot, exceptSlot o.view = .ok (.ok slot) ∧ A slot

/-- An element is only reached if every element before it was accepted. -/
def EachBounds : List LeanObj → Prop
  | [] => True
  | slot :: rest => I slot ∧ (A slot → EachBounds rest)

def VecBounds (o : LeanObj) : Prop := ∀ slots, arraySlots o.view = .ok slots → EachBounds I A slots

def VecAccepted (o : LeanObj) : Prop :=
  ∃ slots, arraySlots o.view = .ok slots ∧ ∀ slot ∈ slots, A slot

def VecExact (o : LeanObj) : Prop :=
  ∀ slots, arraySlots o.view = .ok slots → ∀ slot ∈ slots, E slot

def PairBounds (o : LeanObj) : Prop :=
  ∀ first second, pairSlots o.view = .ok (first, second) → I first ∧ (A first → J second)

def PairAccepted (o : LeanObj) : Prop :=
  ∃ first second, pairSlots o.view = .ok (first, second) ∧ A first ∧ B second

def PairExact (o : LeanObj) : Prop :=
  ∀ first second, pairSlots o.view = .ok (first, second) → E first ∧ F second

end Parts

namespace RustType

def Accepted : RustType → LeanObj → Prop
  | base type => fun o => type.Accepted o.view
  | option inner => OptionAccepted inner.Accepted
  | result ok err => ResultAccepted ok.Accepted err.Accepted
  | vec element => VecAccepted element.Accepted
  | pair first second => PairAccepted first.Accepted second.Accepted
  | triple first second third => PairAccepted first.Accepted
      (PairAccepted second.Accepted third.Accepted)
  | obj => fun _ => True

/-- Every constructor that the decoder comes to as a 64-bit number has the bytes it reads. -/
def InBounds : RustType → LeanObj → Prop
  | base type => fun o => type.InBounds o.view
  | option inner => OptionBounds inner.InBounds
  | result ok err => ResultBounds ok.InBounds err.InBounds
  | vec element => VecBounds element.InBounds element.Accepted
  | pair first second => PairBounds first.InBounds first.Accepted second.InBounds
  | triple first second third => PairBounds first.InBounds first.Accepted
      (PairBounds second.InBounds second.Accepted third.InBounds)
  | obj => fun _ => True

/-- Every constructor in the place of a 64-bit number is a boxed one. -/
def Exact : RustType → LeanObj → Prop
  | base type => fun o => type.Exact o.view
  | option inner => OptionBounds inner.Exact
  | result ok err => ResultBounds ok.Exact err.Exact
  | vec element => VecExact element.Exact
  | pair first second => PairExact first.Exact second.Exact
  | triple first second third => PairExact first.Exact (PairExact second.Exact third.Exact)
  | obj => fun _ => True

end RustType

section Slots

variable {A : Type}

/-- A failure that is reported belongs to the conversion stage. -/
def Staged {B : Type} (r : Except HostFailure B) : Prop :=
  ∀ failure, r = .error failure → failure.stage = .conversion

theorem staged_error {B : Type} (message : String) :
    Staged (conversionError message : Except HostFailure B) := by
  rintro _ ⟨⟩
  rfl

theorem staged_ok {B : Type} (b : B) : Staged (.ok b : Except HostFailure B) := by
  rintro _ ⟨⟩

theorem Staged.map {B C : Type} {r : Except HostFailure B} (h : Staged r) (f : B → C) :
    Staged (r.map f) := by
  intro failure same
  cases r with
  | ok b => cases same
  | error failure' =>
    cases same
    exact h failure rfl

theorem ctorFields_staged (tag : Nat) (label : String) (view : View A) :
    Staged (ctorFields tag label view) := by
  unfold ctorFields
  split
  · exact staged_error _
  · split
    · exact staged_ok _
    · exact staged_error _
  · exact staged_error _

theorem takeOne_staged (tag : Nat) (label : String) (view : View A) :
    Staged (takeOne tag label view) := by
  have first := ctorFields_staged tag label view
  unfold takeOne
  split
  next same => exact fun failure h => first failure (by rw [same]; cases h; rfl)
  · exact staged_ok _
  · exact staged_error _

theorem takeTwo_staged (tag : Nat) (label : String) (view : View A) :
    Staged (takeTwo tag label view) := by
  have first := ctorFields_staged tag label view
  unfold takeTwo
  split
  next same => exact fun failure h => first failure (by rw [same]; cases h; rfl)
  · exact staged_ok _
  · exact staged_error _

theorem optionSlot_staged (view : View A) : Staged (optionSlot view) := by
  unfold optionSlot
  split
  · split
    · exact staged_ok _
    · exact staged_error _
  · split
    · exact (takeOne_staged _ _ _).map _
    · exact staged_error _
  · exact staged_error _

theorem exceptSlot_staged (view : View A) : Staged (exceptSlot view) := by
  unfold exceptSlot
  split
  · exact staged_error _
  · split
    · exact (takeOne_staged _ _ _).map _
    · split
      · exact (takeOne_staged _ _ _).map _
      · exact staged_error _
  · exact staged_error _

theorem arraySlots_staged (view : View A) : Staged (arraySlots view) := by
  unfold arraySlots
  split
  · exact staged_error _
  · exact staged_ok _
  · exact staged_error _

theorem LeanObj.view_ctor {o : LeanObj} {tag : Nat} {fields : List LeanObj}
    {scalars : List UInt8} : o.view = .ctor tag fields scalars ↔ o = .ctor tag fields scalars := by
  cases o <;> simp [LeanObj.view]

theorem pairSlots_obj {o first second : LeanObj} :
    pairSlots o.view = .ok (first, second) ↔ ∃ scalars, o = .ctor 0 [first, second] scalars := by
  simp only [pairSlots_ok, LeanObj.view_ctor]

theorem optionSlot_obj {o slot : LeanObj} :
    optionSlot o.view = .ok (some slot) ↔ ∃ scalars, o = .ctor 1 [slot] scalars := by
  simp only [optionSlot_some, LeanObj.view_ctor]

theorem optionSlot_none_obj {o : LeanObj} : optionSlot o.view = .ok none ↔ o = .scalar 0 := by
  rw [optionSlot_none]
  cases o <;> simp [LeanObj.view]

theorem exceptSlot_error_obj {o slot : LeanObj} :
    exceptSlot o.view = .ok (.error slot) ↔ ∃ scalars, o = .ctor 0 [slot] scalars := by
  simp only [exceptSlot_error, LeanObj.view_ctor]

theorem exceptSlot_ok_obj {o slot : LeanObj} :
    exceptSlot o.view = .ok (.ok slot) ↔ ∃ scalars, o = .ctor 1 [slot] scalars := by
  simp only [exceptSlot_ok, LeanObj.view_ctor]

theorem arraySlots_obj {o : LeanObj} {slots : List LeanObj} :
    arraySlots o.view = .ok slots ↔ o = .array slots := by
  rw [arraySlots_ok]
  cases o <;> simp [LeanObj.view]

end Slots

/-- What decides the outcome of a decoder: it leaves the object unless `I`, it returns if also
`A`, and what it returns is encoded in the shape of the object exactly if `E`. -/
structure Decides {V : Type} (f : Decoder V) (enc : V → LeanObj) (I A E : LeanObj → Prop) :
    Prop where
  bounds : ∀ o, f o = .error .outOfBounds ↔ ¬I o
  accepts : ∀ o, (∃ v, f o = .ok v) ↔ I o ∧ A o
  shaped : ∀ o v, f o = .ok v → E o → SameShape o (enc v)
  exact : ∀ o v, SameShape o (enc v) → E o
  staged : ∀ o failure, f o = .error (.conversion failure) → failure.stage = .conversion

section Base

variable {V : Type}

theorem mapError_bounds (r : Except HostFailure V) :
    r.mapError DecodeError.conversion ≠ .error .outOfBounds := by
  cases r <;> simp [Except.mapError]

theorem mapError_accepts (r : Except HostFailure V) :
    (∃ v, r.mapError DecodeError.conversion = .ok v) ↔ ∃ v, r = .ok v := by
  cases r <;> simp [Except.mapError]

theorem mapError_staged {r : Except HostFailure V} (staged : Staged r) (failure : HostFailure)
    (h : r.mapError DecodeError.conversion = .error (.conversion failure)) :
    failure.stage = .conversion := by
  cases r with
  | ok v => cases h
  | error failure' =>
    cases h
    exact staged failure rfl

theorem requireScalar_staged (expected : String) (view : View LeanObj) :
    Staged (requireScalar expected view) := by
  unfold requireScalar
  split
  · exact staged_ok _
  · exact staged_error _

theorem Staged.bind {B C : Type} {r : Except HostFailure B} {f : B → Except HostFailure C}
    (first : Staged r) (next : ∀ b, Staged (f b)) : Staged (r >>= f) := by
  cases r with
  | ok b => exact next b
  | error failure => exact fun failure' h => first failure' (by cases h; rfl)

theorem smallInt_staged (expected : String) (width : Nat) (cast : Nat → V)
    (view : View LeanObj) : Staged (smallInt expected width cast view) := by
  apply (requireScalar_staged _ _).bind
  intro payload
  split
  · exact staged_ok _
  · exact staged_error _

theorem smallInt_accepts (expected : String) (width : Nat) (cast : Nat → V) (o : LeanObj) :
    (∃ v, smallInt expected width cast o.view = .ok v) ↔
      ∃ payload, o = .scalar payload ∧ payload < 2 ^ width := by
  cases o with
  | scalar payload =>
    simp only [LeanObj.view, smallInt, requireScalar, bind, Except.bind]
    split <;> simp [outOfRange, conversionError, *]
  | ctor _ _ _ | string _ | array _ | sarray _ _ | other _ _ =>
    simp [LeanObj.view, smallInt, requireScalar, foundObject, conversionError, bind, Except.bind]

theorem decides_checked {r : LeanObj → Except HostFailure V} {enc : V → LeanObj}
    {I A E : LeanObj → Prop} (inside : ∀ o, I o) (accepts : ∀ o, (∃ v, r o = .ok v) ↔ A o)
    (shaped : ∀ o v, r o = .ok v → SameShape o (enc v)) (exact : ∀ o, E o)
    (staged : ∀ o, Staged (r o)) :
    Decides (fun o => (r o).mapError .conversion) enc I A E := by
  constructor
  · intro o
    simp [mapError_bounds, inside]
  · intro o
    rw [mapError_accepts, accepts]
    simp [inside]
  · intro o v h _
    cases found : r o with
    | error failure =>
      rw [found] at h
      cases h
    | ok v' =>
      rw [found] at h
      cases h
      exact shaped o v found
  · intro o _ _
    exact exact o
  · intro o
    exact mapError_staged (staged o)

theorem decides_smallInt (expected : String) (width : Nat) (cast : Nat → V)
    {enc : V → LeanObj} {I A E : LeanObj → Prop} (inside : ∀ o, I o)
    (range : ∀ o, A o ↔ ∃ payload, o = .scalar payload ∧ payload < 2 ^ width)
    (encodes : ∀ v, ∃ payload, enc v = .scalar payload) (exact : ∀ o, E o) :
    Decides (fun o => (smallInt expected width cast o.view).mapError .conversion) enc I A E := by
  apply decides_checked inside _ _ exact fun o => smallInt_staged expected width cast o.view
  · intro o
    rw [smallInt_accepts, range]
  · intro o v h
    obtain ⟨payload, rfl, -⟩ := (smallInt_accepts expected width cast o).mp ⟨v, h⟩
    obtain ⟨payload', same⟩ := encodes v
    rw [same]
    trivial

theorem decides_unbox {r : LeanObj → Except DecodeError V} {enc : V → LeanObj}
    {I A E : LeanObj → Prop} {need : List LeanObj → List UInt8 → Prop}
    (reads : ∀ tag fields scalars,
      (need fields scalars ∧ ∃ v, r (.ctor tag fields scalars) = .ok v) ∨
        ¬need fields scalars ∧ r (.ctor tag fields scalars) = .error .outOfBounds)
    (refuses : ∀ o, (∀ tag fields scalars, o ≠ .ctor tag fields scalars) →
      ∃ failure, r o = .error (.conversion failure) ∧ failure.stage = .conversion)
    (short : ∀ fields scalars, need fields scalars → fields = [] → 8 ≤ scalars.length)
    (encodes : ∀ v, ∃ n, enc v = .boxed n)
    (inside : ∀ o, I o ↔ ∀ tag fields scalars, o = .ctor tag fields scalars → need fields scalars)
    (kind : ∀ o, A o ↔ ∃ tag fields scalars, o = .ctor tag fields scalars)
    (exact : ∀ o, E o ↔ ∀ tag fields scalars, o = .ctor tag fields scalars →
      tag = 0 ∧ fields = []) : Decides r enc I A E := by
  have other : ∀ o, ¬A o → (∃ failure, r o = .error (.conversion failure) ∧
      failure.stage = .conversion) ∧ I o := by
    intro o apart
    have apart' : ∀ tag fields scalars, o ≠ .ctor tag fields scalars :=
      fun tag fields scalars same => apart ((kind o).mpr ⟨tag, fields, scalars, same⟩)
    exact ⟨refuses o apart', (inside o).mpr fun tag fields scalars same =>
      absurd same (apart' tag fields scalars)⟩
  constructor
  · intro o
    by_cases ctor : A o
    · obtain ⟨tag, fields, scalars, rfl⟩ := (kind o).mp ctor
      rw [inside]
      rcases reads tag fields scalars with ⟨enough, v, h⟩ | ⟨lacks, h⟩
      · simp [h, enough]
      · simp [h, lacks]
    · obtain ⟨⟨failure, h, -⟩, within⟩ := other o ctor
      simp [h, within]
  · intro o
    by_cases ctor : A o
    · obtain ⟨tag, fields, scalars, rfl⟩ := (kind o).mp ctor
      rw [inside]
      rcases reads tag fields scalars with ⟨enough, v, h⟩ | ⟨lacks, h⟩
      · simp [h, enough, ctor]
      · simp [h, lacks]
    · obtain ⟨⟨failure, h, -⟩, -⟩ := other o ctor
      simp [h, ctor]
  · intro o v h plain
    by_cases ctor : A o
    · obtain ⟨tag, fields, scalars, rfl⟩ := (kind o).mp ctor
      obtain ⟨rfl, rfl⟩ := (exact _).mp plain tag fields scalars rfl
      obtain ⟨n, same⟩ := encodes v
      rcases reads 0 [] scalars with ⟨enough, -⟩ | ⟨-, failed⟩
      · rw [same]
        exact ⟨rfl, trivial, by simpa using short [] scalars enough rfl⟩
      · rw [failed] at h
        cases h
    · obtain ⟨⟨failure, failed, -⟩, -⟩ := other o ctor
      rw [failed] at h
      cases h
  · intro o v shape
    rw [exact]
    rintro tag fields scalars rfl
    obtain ⟨n, same⟩ := encodes v
    rw [same] at shape
    obtain ⟨rfl, fields', -⟩ := shape
    cases fields with
    | nil => exact ⟨rfl, rfl⟩
    | cons field rest => cases fields'
  · intro o failure h
    by_cases ctor : A o
    · obtain ⟨tag, fields, scalars, rfl⟩ := (kind o).mp ctor
      rcases reads tag fields scalars with ⟨-, v, ok⟩ | ⟨-, failed⟩
      · rw [ok] at h
        cases h
      · rw [failed] at h
        cases h
    · obtain ⟨⟨failure', failed, stage⟩, -⟩ := other o ctor
      rw [failed] at h
      cases h
      exact stage

theorem scalarArea_reads (scalars : List UInt8) :
    (8 ≤ scalars.length ∧ ∃ v, scalarArea scalars = .ok v) ∨
      ¬8 ≤ scalars.length ∧ scalarArea scalars = .error .outOfBounds := by
  unfold scalarArea
  by_cases enough : 8 ≤ scalars.length
  · left
    rw [if_pos enough]
    exact ⟨enough, _, rfl⟩
  · right
    rw [if_neg enough]
    exact ⟨enough, rfl⟩

theorem decides_unboxUInt64 (expected : String) (cast : UInt64 → V) {enc : V → LeanObj}
    {I A E : LeanObj → Prop} (encodes : ∀ v, ∃ n, enc v = .boxed n)
    (inside : ∀ o, I o ↔ ∀ tag fields scalars, o = LeanObj.ctor tag fields scalars →
      8 ≤ scalars.length)
    (kind : ∀ o, A o ↔ ∃ tag fields scalars, o = .ctor tag fields scalars)
    (exact : ∀ o, E o ↔ ∀ tag fields scalars, o = .ctor tag fields scalars →
      tag = 0 ∧ fields = []) :
    Decides (fun o => (unboxUInt64 expected o.view).map cast) enc I A E := by
  apply decides_unbox _ _ _ encodes inside kind exact
  · intro tag fields scalars
    rcases scalarArea_reads scalars with ⟨enough, v, h⟩ | ⟨lacks, h⟩
    · left
      exact ⟨enough, cast v, by simp [LeanObj.view, unboxUInt64, requireCtor, h, Except.map]⟩
    · right
      exact ⟨lacks, by simp [LeanObj.view, unboxUInt64, requireCtor, h, Except.map]⟩
  · intro o apart
    cases o with
    | ctor tag fields scalars => exact absurd rfl (apart tag fields scalars)
    | scalar _ | string _ | array _ | sarray _ _ | other _ _ => exact ⟨_, rfl, rfl⟩
  · intro _ scalars enough _
    exact enough

theorem decides_unboxUSize (bits : LeanObj → UInt64) (expected : String) (cast : UInt64 → V)
    {enc : V → LeanObj} {I A E : LeanObj → Prop} (encodes : ∀ v, ∃ n, enc v = .boxed n)
    (inside : ∀ o, I o ↔ ∀ tag fields scalars, o = LeanObj.ctor tag fields scalars →
      fields = [] → 8 ≤ scalars.length)
    (kind : ∀ o, A o ↔ ∃ tag fields scalars, o = .ctor tag fields scalars)
    (exact : ∀ o, E o ↔ ∀ tag fields scalars, o = .ctor tag fields scalars →
      tag = 0 ∧ fields = []) :
    Decides (fun o => (unboxUSize bits expected o.view).map cast) enc I A E := by
  apply decides_unbox _ _ _ encodes inside kind exact
  · intro tag fields scalars
    cases fields with
    | cons field rest =>
      left
      constructor
      · intro none
        cases none
      · exact ⟨cast (bits field), rfl⟩
    | nil =>
      rcases scalarArea_reads scalars with ⟨enough, v, h⟩ | ⟨lacks, h⟩
      · left
        exact ⟨fun _ => enough, cast v, by
          simp [LeanObj.view, unboxUSize, requireCtor, h, Except.map]⟩
      · right
        exact ⟨fun all => lacks (all rfl), by
          simp [LeanObj.view, unboxUSize, requireCtor, h, Except.map]⟩
  · intro o apart
    cases o with
    | ctor tag fields scalars => exact absurd rfl (apart tag fields scalars)
    | scalar _ | string _ | array _ | sarray _ _ | other _ _ => exact ⟨_, rfl, rfl⟩
  · intro _ scalars enough
    exact enough

theorem readBool_accepts (o : LeanObj) :
    (∃ v, readBool o.view = .ok v) ↔ BaseType.Accepted .bool o.view := by
  cases o with
  | scalar payload =>
    simp only [LeanObj.view, readBool, requireScalar, bind, Except.bind, BaseType.Accepted]
    split
    · simp [*]
    · split
      · simp [*]
      · simp only [outOfRange, conversionError, reduceCtorEq, exists_false, false_iff]
        omega
  | ctor _ _ _ | string _ | array _ | sarray _ _ | other _ _ =>
    simp [LeanObj.view, readBool, requireScalar, foundObject, conversionError, bind, Except.bind,
      BaseType.Accepted]

theorem readBool_staged (view : View LeanObj) : Staged (readBool view) := by
  apply (requireScalar_staged _ _).bind
  intro payload
  split
  · exact staged_ok _
  · split
    · exact staged_ok _
    · exact staged_error _

theorem readChar_accepts (o : LeanObj) :
    (∃ v, readChar o.view = .ok v) ↔ BaseType.Accepted .char o.view := by
  cases o with
  | scalar payload =>
    simp only [LeanObj.view, readChar, requireScalar, bind, Except.bind, BaseType.Accepted]
    by_cases fits : payload < 2 ^ 32
    · rw [if_pos fits]
      by_cases valid : payload.isValidChar
      · rw [if_pos valid]
        exact ⟨fun _ => ⟨fits, valid⟩, fun _ => ⟨_, rfl⟩⟩
      · rw [if_neg valid]
        constructor
        · rintro ⟨v, ⟨⟩⟩
        · exact fun accepted => absurd accepted.2 valid
    · rw [if_neg fits]
      constructor
      · rintro ⟨v, ⟨⟩⟩
      · exact fun accepted => absurd accepted.1 fits
  | ctor _ _ _ | string _ | array _ | sarray _ _ | other _ _ =>
    simp [LeanObj.view, readChar, requireScalar, foundObject, conversionError, bind, Except.bind,
      BaseType.Accepted]

theorem readChar_staged (view : View LeanObj) : Staged (readChar view) := by
  apply (requireScalar_staged _ _).bind
  intro payload
  split
  · split
    · exact staged_ok _
    · exact staged_error _
  · exact staged_error _

theorem readString_accepts (o : LeanObj) :
    (∃ v, readString o.view = .ok v) ↔ BaseType.Accepted .string o.view := by
  cases o with
  | string bytes =>
    simp only [LeanObj.view, readString, requireString, bind, Except.bind, BaseType.Accepted]
    by_cases valid : bytes.IsValidUTF8
    · simp [String.fromUTF8?, valid]
    · simp [String.fromUTF8?, valid, conversionError]
  | scalar _ | ctor _ _ _ | array _ | sarray _ _ | other _ _ =>
    simp [LeanObj.view, readString, requireString, foundScalar, foundObject, conversionError, bind,
      Except.bind, BaseType.Accepted]

theorem readString_staged (view : View LeanObj) : Staged (readString view) := by
  have bytes : Staged (requireString view) := by
    unfold requireString
    split
    · exact staged_error _
    · exact staged_ok _
    · exact staged_error _
  apply bytes.bind
  intro found
  split
  · exact staged_ok _
  · exact staged_error _

theorem unit_accepts (o : LeanObj) :
    (∃ v, (requireScalar "Unit" o.view).map (fun _ => ()) = .ok v) ↔
      BaseType.Accepted .unit o.view := by
  cases o <;> simp [LeanObj.view, requireScalar, foundObject, conversionError, Except.map,
    BaseType.Accepted]

theorem decides_base (bits : LeanObj → UInt64) (type : BaseType) :
    Decides (fun o => type.read bits o.view) type.intoLeanObj (fun o => type.InBounds o.view)
      (fun o => type.Accepted o.view) (fun o => type.Exact o.view) := by
  cases type with
  | unit =>
    apply decides_checked (fun _ => trivial) unit_accepts _ (fun _ => trivial)
      fun o => (requireScalar_staged _ _).map _
    intro o v h
    have accepted := (unit_accepts o).mp ⟨v, h⟩
    cases o with
    | scalar _ => trivial
    | ctor _ _ _ | string _ | array _ | sarray _ _ | other _ _ => exact accepted.elim
  | bool =>
    apply decides_checked (fun _ => trivial) readBool_accepts _ (fun _ => trivial)
      fun o => readBool_staged _
    intro o v h
    have accepted := (readBool_accepts o).mp ⟨v, h⟩
    cases o with
    | scalar _ => trivial
    | ctor _ _ _ | string _ | array _ | sarray _ _ | other _ _ => exact accepted.elim
  | char =>
    apply decides_checked (fun _ => trivial) readChar_accepts _ (fun _ => trivial)
      fun o => readChar_staged _
    intro o v h
    have accepted := (readChar_accepts o).mp ⟨v, h⟩
    cases o with
    | scalar _ => trivial
    | ctor _ _ _ | string _ | array _ | sarray _ _ | other _ _ => exact accepted.elim
  | string =>
    apply decides_checked (fun _ => trivial) readString_accepts _ (fun _ => trivial)
      fun o => readString_staged _
    intro o v h
    have accepted := (readString_accepts o).mp ⟨v, h⟩
    cases o with
    | string _ => trivial
    | ctor _ _ _ | scalar _ | array _ | sarray _ _ | other _ _ => exact accepted.elim
  | u8 | u16 | u32 | i8 | i16 | i32 =>
    apply decides_smallInt _ _ _ (fun _ => trivial) _ (fun v => ⟨_, rfl⟩) (fun _ => trivial)
    intro o
    cases o <;> simp [LeanObj.view, BaseType.Accepted]
  | i64 =>
    apply decides_unboxUInt64 _ _ fun v => ⟨_, rfl⟩
    all_goals
      intro o
      cases o <;> simp [LeanObj.view, BaseType.InBounds, BaseType.Accepted, BaseType.Exact]
  | isize =>
    apply decides_unboxUSize _ _ _ fun v => ⟨_, rfl⟩
    all_goals
      intro o
      cases o <;> simp [LeanObj.view, BaseType.InBounds, BaseType.Accepted, BaseType.Exact]
  | u64 | f64 =>
    have same : ∀ expected, (fun o : LeanObj => unboxUInt64 expected o.view) =
        fun o => (unboxUInt64 expected o.view).map id := by
      intro expected
      funext o
      rw [Except.map_id]
      rfl
    simp only [BaseType.read, same]
    apply decides_unboxUInt64 _ _ fun v => ⟨_, rfl⟩
    all_goals
      intro o
      cases o <;> simp [LeanObj.view, BaseType.InBounds, BaseType.Accepted, BaseType.Exact]
  | usize =>
    have same : (fun o : LeanObj => unboxUSize bits "usize" o.view) =
        fun o => (unboxUSize bits "usize" o.view).map id := by
      funext o
      rw [Except.map_id]
      rfl
    simp only [BaseType.read, same]
    apply decides_unboxUSize _ _ _ fun v => ⟨_, rfl⟩
    all_goals
      intro o
      cases o <;> simp [LeanObj.view, BaseType.InBounds, BaseType.Accepted, BaseType.Exact]

end Base

section Containers

variable {V W : Type} {f : Decoder V} {g : Decoder W} {enc : V → LeanObj} {enc' : W → LeanObj}
  {I A E J B F : LeanObj → Prop}

theorem Decides.cases (h : Decides f enc I A E) (o : LeanObj) :
    (¬I o ∧ f o = .error .outOfBounds) ∨
      (I o ∧ ¬A o ∧ ∃ failure, f o = .error (.conversion failure) ∧
        failure.stage = .conversion) ∨
      I o ∧ A o ∧ ∃ v, f o = .ok v := by
  cases ends : f o with
  | ok v =>
    obtain ⟨inside, accepted⟩ := (h.accepts o).mp ⟨v, ends⟩
    exact Or.inr (Or.inr ⟨inside, accepted, v, rfl⟩)
  | error e =>
    cases e with
    | outOfBounds => exact Or.inl ⟨(h.bounds o).mp ends, rfl⟩
    | conversion failure =>
      have inside : I o := by
        by_contra outside
        rw [(h.bounds o).mpr outside] at ends
        cases ends
      refine Or.inr (Or.inl ⟨inside, ?_, failure, rfl, h.staged o failure ends⟩)
      intro accepted
      obtain ⟨v, ok⟩ := (h.accepts o).mpr ⟨inside, accepted⟩
      rw [ok] at ends
      cases ends

theorem decides_option (h : Decides f enc I A E) :
    Decides (decodeOption f) (fun v => .ofOption (v.map enc)) (OptionBounds I) (OptionAccepted A)
      (OptionBounds E) := by
  constructor
  · intro o
    unfold decodeOption OptionBounds
    cases found : optionSlot o.view with
    | error failure => simp
    | ok slot =>
      cases slot with
      | none => simp
      | some slot =>
        rcases h.cases slot with
          ⟨outside, ends⟩ | ⟨inside, -, failure, ends, -⟩ | ⟨inside, -, v, ends⟩
        · simp [ends, outside, Except.map]
        · simp [ends, inside, Except.map]
        · simp [ends, inside, Except.map]
  · intro o
    unfold decodeOption OptionBounds OptionAccepted
    cases found : optionSlot o.view with
    | error failure => simp
    | ok slot =>
      cases slot with
      | none => simp
      | some slot =>
        rcases h.cases slot with ⟨outside, ends⟩ | ⟨-, refused, failure, ends, -⟩ |
          ⟨inside, accepted, v, ends⟩
        · simp [ends, outside, Except.map]
        · simp [ends, refused, Except.map]
        · simp [ends, inside, accepted, Except.map]
  · intro o v ends plain
    unfold decodeOption at ends
    cases found : optionSlot o.view with
    | error failure =>
      rw [found] at ends
      cases ends
    | ok slot =>
      rw [found] at ends
      cases slot with
      | none =>
        cases ends
        rw [optionSlot_none_obj.mp found]
        trivial
      | some slot =>
        obtain ⟨v', inner, rfl⟩ := map_ok.mp ends
        have shape := h.shaped slot v' inner (plain slot found)
        obtain ⟨scalars, rfl⟩ := optionSlot_obj.mp found
        exact ⟨rfl, ⟨shape, trivial⟩, Nat.zero_le _⟩
  · rintro o v shape slot found
    obtain ⟨scalars, rfl⟩ := optionSlot_obj.mp found
    cases v with
    | none => exact shape.elim
    | some v => exact h.exact slot v shape.2.1.1
  · intro o failure ends
    unfold decodeOption at ends
    cases found : optionSlot o.view with
    | error failure' =>
      rw [found] at ends
      cases ends
      exact optionSlot_staged _ failure found
    | ok slot =>
      rw [found] at ends
      cases slot with
      | none => cases ends
      | some slot =>
        exact h.staged slot failure (map_error.mp ends)

theorem decides_result (h : Decides f enc I A E) (k : Decides g enc' J B F) :
    Decides (decodeResult f g) (fun v => .ofExcept ((v.map enc).mapError enc'))
      (ResultBounds I J) (ResultAccepted A B) (ResultBounds E F) := by
  constructor
  · intro o
    unfold decodeResult ResultBounds
    cases found : exceptSlot o.view with
    | error failure => simp
    | ok slot =>
      cases slot with
      | error slot =>
        rcases k.cases slot with
          ⟨outside, ends⟩ | ⟨inside, -, failure, ends, -⟩ | ⟨inside, -, v, ends⟩
        · simp [ends, outside, Except.map]
        · simp [ends, inside, Except.map]
        · simp [ends, inside, Except.map]
      | ok slot =>
        rcases h.cases slot with
          ⟨outside, ends⟩ | ⟨inside, -, failure, ends, -⟩ | ⟨inside, -, v, ends⟩
        · simp [ends, outside, Except.map]
        · simp [ends, inside, Except.map]
        · simp [ends, inside, Except.map]
  · intro o
    unfold decodeResult ResultBounds ResultAccepted
    cases found : exceptSlot o.view with
    | error failure => simp
    | ok slot =>
      cases slot with
      | error slot =>
        rcases k.cases slot with ⟨outside, ends⟩ | ⟨-, refused, failure, ends, -⟩ |
          ⟨inside, accepted, v, ends⟩
        · simp [ends, outside, Except.map]
        · simp [ends, refused, Except.map]
        · simp [ends, inside, accepted, Except.map]
      | ok slot =>
        rcases h.cases slot with ⟨outside, ends⟩ | ⟨-, refused, failure, ends, -⟩ |
          ⟨inside, accepted, v, ends⟩
        · simp [ends, outside, Except.map]
        · simp [ends, refused, Except.map]
        · simp [ends, inside, accepted, Except.map]
  · intro o v ends plain
    unfold decodeResult at ends
    cases found : exceptSlot o.view with
    | error failure =>
      rw [found] at ends
      cases ends
    | ok slot =>
      rw [found] at ends
      cases slot with
      | error slot =>
        obtain ⟨v', inner, rfl⟩ := map_ok.mp ends
        have shape := k.shaped slot v' inner (plain.1 slot found)
        obtain ⟨scalars, rfl⟩ := exceptSlot_error_obj.mp found
        exact ⟨rfl, ⟨shape, trivial⟩, Nat.zero_le _⟩
      | ok slot =>
        obtain ⟨v', inner, rfl⟩ := map_ok.mp ends
        have shape := h.shaped slot v' inner (plain.2 slot found)
        obtain ⟨scalars, rfl⟩ := exceptSlot_ok_obj.mp found
        exact ⟨rfl, ⟨shape, trivial⟩, Nat.zero_le _⟩
  · intro o v shape
    constructor
    · intro slot found
      obtain ⟨scalars, rfl⟩ := exceptSlot_error_obj.mp found
      cases v with
      | error v => exact k.exact slot v shape.2.1.1
      | ok v =>
        obtain ⟨tag, -⟩ := shape
        cases tag
    · intro slot found
      obtain ⟨scalars, rfl⟩ := exceptSlot_ok_obj.mp found
      cases v with
      | error v =>
        obtain ⟨tag, -⟩ := shape
        cases tag
      | ok v => exact h.exact slot v shape.2.1.1
  · intro o failure ends
    unfold decodeResult at ends
    cases found : exceptSlot o.view with
    | error failure' =>
      rw [found] at ends
      cases ends
      exact exceptSlot_staged _ failure found
    | ok slot =>
      rw [found] at ends
      cases slot with
      | error slot =>
        exact k.staged slot failure (map_error.mp ends)
      | ok slot =>
        exact h.staged slot failure (map_error.mp ends)

theorem decides_pair (h : Decides f enc I A E) (k : Decides g enc' J B F) :
    Decides (decodePair f g) (fun v => .ofPair (enc v.1) (enc' v.2)) (PairBounds I A J)
      (PairAccepted A B) (PairExact E F) := by
  constructor
  · intro o
    unfold decodePair PairBounds
    cases found : pairSlots o.view with
    | error failure => simp
    | ok slots =>
      obtain ⟨first, second⟩ := slots
      rcases h.cases first with ⟨outside, ends⟩ | ⟨inside, refused, failure, ends, -⟩ |
        ⟨inside, accepted, v, ends⟩
      · simp [ends, outside]
      · simp [ends, inside, refused]
      · rcases k.cases second with ⟨outside, ends'⟩ | ⟨inside', -, failure, ends', -⟩ |
          ⟨inside', -, w, ends'⟩
        · simp [ends, ends', inside, accepted, outside, Except.map]
        · simp [ends, ends', inside, inside', Except.map]
        · simp [ends, ends', inside, inside', Except.map]
  · intro o
    unfold decodePair PairBounds PairAccepted
    cases found : pairSlots o.view with
    | error failure => simp
    | ok slots =>
      obtain ⟨first, second⟩ := slots
      rcases h.cases first with ⟨outside, ends⟩ | ⟨inside, refused, failure, ends, -⟩ |
        ⟨inside, accepted, v, ends⟩
      · simp [ends, outside]
      · simp [ends, refused]
      · rcases k.cases second with ⟨outside, ends'⟩ | ⟨inside', refused, failure, ends', -⟩ |
          ⟨inside', accepted', w, ends'⟩
        · simp [ends, ends', accepted, outside, Except.map]
        · simp [ends, ends', refused, Except.map]
        · simp [ends, ends', inside, inside', accepted, accepted', Except.map]
  · intro o v ends plain
    unfold decodePair at ends
    cases found : pairSlots o.view with
    | error failure =>
      rw [found] at ends
      cases ends
    | ok slots =>
      obtain ⟨first, second⟩ := slots
      rw [found] at ends
      dsimp only at ends
      split at ends
      · cases ends
      next v' outcome =>
        obtain ⟨w, inner, rfl⟩ := map_ok.mp ends
        obtain ⟨left, right⟩ := plain first second found
        have shape := h.shaped first v' outcome left
        have shape' := k.shaped second w inner right
        obtain ⟨scalars, rfl⟩ := pairSlots_obj.mp found
        exact ⟨rfl, ⟨shape, shape', trivial⟩, Nat.zero_le _⟩
  · rintro o v shape first second found
    obtain ⟨scalars, rfl⟩ := pairSlots_obj.mp found
    obtain ⟨-, ⟨left, right, -⟩, -⟩ := shape
    exact ⟨h.exact first v.1 left, k.exact second v.2 right⟩
  · intro o failure ends
    unfold decodePair at ends
    cases found : pairSlots o.view with
    | error failure' =>
      rw [found] at ends
      cases ends
      exact takeTwo_staged _ _ _ failure found
    | ok slots =>
      obtain ⟨first, second⟩ := slots
      rw [found] at ends
      dsimp only at ends
      split at ends
      next e outcome =>
        cases ends
        exact h.staged first failure outcome
      · exact k.staged second failure (map_error.mp ends)

theorem decodeEach_bounds (h : Decides f enc I A E) (slots : List LeanObj) :
    decodeEach f slots = .error .outOfBounds ↔ ¬EachBounds I A slots := by
  induction slots with
  | nil => simp [decodeEach, EachBounds]
  | cons slot rest ih =>
    rcases h.cases slot with ⟨outside, ends⟩ | ⟨inside, refused, failure, ends, -⟩ |
      ⟨inside, accepted, v, ends⟩
    · simp [decodeEach, EachBounds, ends, outside]
    · simp [decodeEach, EachBounds, ends, inside, refused]
    · simp [decodeEach, EachBounds, ends, inside, accepted, map_error, ih]

theorem decodeEach_accepts (h : Decides f enc I A E) (slots : List LeanObj) :
    (∃ vs, decodeEach f slots = .ok vs) ↔ EachBounds I A slots ∧ ∀ slot ∈ slots, A slot := by
  induction slots with
  | nil => simp [decodeEach, EachBounds]
  | cons slot rest ih =>
    rw [List.forall_mem_cons]
    rcases h.cases slot with ⟨outside, ends⟩ | ⟨-, refused, failure, ends, -⟩ |
      ⟨inside, accepted, v, ends⟩
    · simp [decodeEach, EachBounds, ends, outside]
    · simp [decodeEach, ends, refused]
    · simp only [decodeEach, EachBounds, ends, inside, accepted, map_ok, true_and, true_implies]
      rw [← ih]
      constructor
      · rintro ⟨_, vs, others, -⟩
        exact ⟨vs, others⟩
      · rintro ⟨vs, others⟩
        exact ⟨_, vs, others, rfl⟩

theorem decodeEach_shaped (h : Decides f enc I A E) (slots : List LeanObj) (vs : List V)
    (ends : decodeEach f slots = .ok vs) (plain : ∀ slot ∈ slots, E slot) :
    SameShapes slots (vs.map enc) := by
  induction slots generalizing vs with
  | nil =>
    cases ends
    trivial
  | cons slot rest ih =>
    obtain ⟨here, others⟩ := List.forall_mem_cons.mp plain
    unfold decodeEach at ends
    split at ends
    · cases ends
    next v outcome =>
      obtain ⟨vs', inner, rfl⟩ := map_ok.mp ends
      exact ⟨h.shaped slot v outcome here, ih vs' inner others⟩

theorem sameShapes_exact (h : Decides f enc I A E) (slots : List LeanObj) (vs : List V)
    (shape : SameShapes slots (vs.map enc)) : ∀ slot ∈ slots, E slot := by
  induction slots generalizing vs with
  | nil =>
    intro slot mem
    cases mem
  | cons slot rest ih =>
    cases vs with
    | nil => exact shape.elim
    | cons v vs =>
      exact List.forall_mem_cons.mpr ⟨h.exact slot v shape.1, ih vs shape.2⟩

theorem decodeEach_staged (h : Decides f enc I A E) (slots : List LeanObj)
    (failure : HostFailure) (ends : decodeEach f slots = .error (.conversion failure)) :
    failure.stage = .conversion := by
  induction slots with
  | nil => cases ends
  | cons slot rest ih =>
    unfold decodeEach at ends
    split at ends
    next e outcome =>
      cases ends
      exact h.staged slot failure outcome
    · exact ih (map_error.mp ends)

theorem decides_vec (h : Decides f enc I A E) :
    Decides (decodeVec f) (fun vs => .array (vs.map enc)) (VecBounds I A) (VecAccepted A)
      (VecExact E) := by
  constructor
  · intro o
    unfold decodeVec VecBounds
    cases found : arraySlots o.view with
    | error failure => simp
    | ok slots => simp [decodeEach_bounds h]
  · intro o
    unfold decodeVec VecBounds VecAccepted
    cases found : arraySlots o.view with
    | error failure => simp
    | ok slots => simp [decodeEach_accepts h]
  · intro o vs ends plain
    unfold decodeVec at ends
    cases found : arraySlots o.view with
    | error failure =>
      rw [found] at ends
      cases ends
    | ok slots =>
      rw [found] at ends
      rw [arraySlots_obj.mp found]
      exact decodeEach_shaped h slots vs ends (plain slots found)
  · intro o vs shape slots found
    rw [arraySlots_obj.mp found] at shape
    exact sameShapes_exact h slots vs shape
  · intro o failure ends
    unfold decodeVec at ends
    cases found : arraySlots o.view with
    | error failure' =>
      rw [found] at ends
      cases ends
      exact arraySlots_staged _ failure found
    | ok slots =>
      rw [found] at ends
      exact decodeEach_staged h slots failure ends

end Containers

theorem decides (bits : LeanObj → UInt64) (type : RustType) :
    Decides (type.tryFromLean bits) type.intoLeanObj type.InBounds type.Accepted type.Exact := by
  induction type with
  | base type => exact decides_base bits type
  | option inner ih => exact decides_option ih
  | result ok err ih ih' => exact decides_result ih ih'
  | vec element ih => exact decides_vec ih
  | pair first second ih ih' => exact decides_pair ih ih'
  | triple first second third ih ih' ih'' => exact decides_pair ih (decides_pair ih' ih'')
  | obj =>
    constructor
    · simp [RustType.tryFromLean, RustType.InBounds]
    · simp [RustType.tryFromLean, RustType.InBounds, RustType.Accepted]
    · rintro o _ ⟨⟩ -
      exact SameShape.refl o
    · intro _ _ _
      trivial
    · rintro o _ ⟨⟩

/-- Decoding stays inside the object, takes only objects of the type's shape, and reports every
other as a failure of the conversion. -/
structure DecodesSafely (bits : LeanObj → UInt64) (type : RustType) (o : LeanObj) : Prop where
  inBounds : type.tryFromLean bits o ≠ .error .outOfBounds
  shaped : ∀ v, type.tryFromLean bits o = .ok v → HasShape type o
  conversion : (∃ v, type.tryFromLean bits o = .ok v) ∨
    ∃ failure, type.tryFromLean bits o = .error (.conversion failure) ∧
      failure.stage = .conversion

/-- An object is decoded safely exactly if every constructor that the decoder comes to as a
64-bit number has the bytes that are read, and, where every part is accepted, each of these
constructors is a boxed number. -/
theorem decodes_safely_iff (bits : LeanObj → UInt64) (type : RustType) (o : LeanObj) :
    DecodesSafely bits type o ↔
      type.InBounds o ∧ (type.Accepted o → type.Exact o) := by
  have h := decides bits type
  constructor
  · intro safe
    have inside : type.InBounds o := by
      by_contra outside
      exact safe.inBounds ((h.bounds o).mpr outside)
    refine ⟨inside, ?_⟩
    intro accepted
    obtain ⟨v, ends⟩ := (h.accepts o).mpr ⟨inside, accepted⟩
    obtain ⟨w, shape⟩ := safe.shaped v ends
    exact h.exact o w shape
  · rintro ⟨inside, plain⟩
    constructor
    · intro ends
      exact (h.bounds o).mp ends inside
    · intro v ends
      have accepted := ((h.accepts o).mp ⟨v, ends⟩).2
      exact ⟨v, h.shaped o v ends (plain accepted)⟩
    · rcases h.cases o with ⟨outside, -⟩ | ⟨-, -, failed⟩ | ⟨-, -, v, ends⟩
      · exact absurd inside outside
      · exact Or.inr failed
      · exact Or.inl ⟨v, ends⟩

/-- `Except.ok ()` has no scalar bytes, and is read as a 64-bit number; a constructor with
another tag and a field before its bytes is taken for one. -/
theorem not_every_decode_is_safe :
    ¬DecodesSafely (fun _ => 0) (.base .u64)
        (RustType.intoLeanObj (.result (.base .unit) (.base .string)) (.ok ())) ∧
      ¬DecodesSafely (fun _ => 0) (.base .u64)
        (.ctor 3 [.scalar 0] [1, 0, 0, 0, 0, 0, 0, 0]) := by
  constructor
  · intro safe
    exact safe.inBounds rfl
  · intro safe
    obtain ⟨v, shape⟩ := safe.shaped 1 rfl
    obtain ⟨tag, -⟩ := shape
    cases tag

end LeanRs
