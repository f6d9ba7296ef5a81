import Mathlib.Data.List.Basic
import Mathlib.Algebra.Order.Ring.Int

/-! JSON values as a reader of documents sees them. A number is kept by its class: a natural
number, a negative integer, or the spelling of anything else. -/
namespace Json

inductive Value where
  | null
  | bool (b : Bool)
  | posInt (n : Nat)
  | negInt (n : Nat)
  | float (text : String)
  | string (s : String)
  | array (items : List Value)
  | object (members : List (String × Value))

namespace Value

/-- The member of an object under a key; anything else has none. -/
def get? (v : Value) (field : String) : Option Value :=
  match v with
  | object members => members.lookup field
  | _ => none

def asStr? : Value → Option String
  | string s => some s
  | _ => none

def asBool? : Value → Option Bool
  | bool b => some b
  | _ => none

def asU64? : Value → Option Nat
  | posInt n => if n < 2 ^ 64 then some n else none
  | _ => none

def asArray? : Value → Option (List Value)
  | array items => some items
  | _ => none

@[simp] theorem get?_cons (key : String) (v : Value) (members : List (String × Value))
    (field : String) : (object ((key, v) :: members)).get? field =
      if field = key then some v else (object members).get? field := by
  show ((key, v) :: members).lookup field =
    if field = key then some v else members.lookup field
  rw [List.lookup_cons]
  by_cases same : field = key
  · simp [same]
  · rw [if_neg same, beq_eq_false_iff_ne.mpr same]

@[simp] theorem get?_nil (field : String) : (object []).get? field = none := rfl

@[simp] theorem asStr?_string (s : String) : (string s).asStr? = some s := rfl
@[simp] theorem asBool?_bool (b : Bool) : (bool b).asBool? = some b := rfl
@[simp] theorem asArray?_array (items : List Value) : (array items).asArray? = some items := rfl
@[simp] theorem get?_null (field : String) : null.get? field = none := rfl

def ofOption {A : Type} (f : A → Value) : Option A → Value
  | some a => f a
  | none => null

end Value

end Json
