import NotebookTidy.Decimal.Double

/-! JSON values.

An object keeps its members in the order they were written in. Writing a member
that is there already changes its value and not its place; a new member goes last;
erasing one leaves the others in order. -/
namespace NotebookTidy.Json
open Decimal

/-- Integers of 64 bits stay integers; every other number is a double. -/
inductive Number where
  | int (n : Int)
  | float (x : Double)
deriving DecidableEq, Repr

inductive Value where
  | null
  | bool (b : Bool)
  | number (n : Number)
  | string (s : String)
  | array (items : List Value)
  | object (members : List (String × Value))
deriving Repr, Inhabited

abbrev Members := List (String × Value)

/-! ### Equality -/

mutual
def Value.decEq : (v w : Value) → Decidable (v = w)
  | .null, .null => .isTrue rfl
  | .bool a, .bool b => decidable_of_iff (a = b) (by simp)
  | .number a, .number b => decidable_of_iff (a = b) (by simp)
  | .string a, .string b => decidable_of_iff (a = b) (by simp)
  | .array a, .array b =>
    have := decEqItems a b
    decidable_of_iff (a = b) (by simp)
  | .object a, .object b =>
    have := decEqMembers a b
    decidable_of_iff (a = b) (by simp)
  | .null, .bool _ | .null, .number _ | .null, .string _ | .null, .array _ | .null, .object _
  | .bool _, .null | .bool _, .number _ | .bool _, .string _ | .bool _, .array _
  | .bool _, .object _
  | .number _, .null | .number _, .bool _ | .number _, .string _ | .number _, .array _
  | .number _, .object _
  | .string _, .null | .string _, .bool _ | .string _, .number _ | .string _, .array _
  | .string _, .object _
  | .array _, .null | .array _, .bool _ | .array _, .number _ | .array _, .string _
  | .array _, .object _
  | .object _, .null | .object _, .bool _ | .object _, .number _ | .object _, .string _
  | .object _, .array _ => .isFalse (by simp)

def decEqItems : (a b : List Value) → Decidable (a = b)
  | [], [] => .isTrue rfl
  | [], _ :: _ | _ :: _, [] => .isFalse (by simp)
  | v :: a, w :: b =>
    have := Value.decEq v w
    have := decEqItems a b
    decidable_of_iff (v = w ∧ a = b) (by simp)

def decEqMembers : (a b : List (String × Value)) → Decidable (a = b)
  | [], [] => .isTrue rfl
  | [], _ :: _ | _ :: _, [] => .isFalse (by simp)
  | (k, v) :: a, (l, w) :: b =>
    have := Value.decEq v w
    have := decEqMembers a b
    decidable_of_iff ((k = l ∧ v = w) ∧ a = b) (by simp)
end

instance : DecidableEq Value := Value.decEq

/-! ### Members of an object -/

namespace Members

def keys (ms : Members) : List String := ms.map Prod.fst

def get? (ms : Members) (key : String) : Option Value :=
  (ms.find? (·.1 == key)).map Prod.snd

/-- Sets a member: in its place when the key is there, at the end otherwise. -/
def insert : Members → String → Value → Members
  | [], key, v => [(key, v)]
  | (k, w) :: ms, key, v => if k = key then (k, v) :: ms else (k, w) :: insert ms key v

def erase (ms : Members) (key : String) : Members :=
  ms.filter (·.1 != key)

/-- Changes the value of a member; nothing happens when the key is not there. -/
def modify (ms : Members) (key : String) (f : Value → Value) : Members :=
  ms.map fun m => if m.1 = key then (m.1, f m.2) else m

/-- The members as they are written, one after the other: of several with one key the
first gives the place and the last the value. -/
def ofPairs (pairs : List (String × Value)) : Members :=
  pairs.foldl (fun ms m => insert ms m.1 m.2) []

end Members

/-! ### Looking into a value -/

namespace Value

/-- The member of an object; anything else has none. -/
def member? (key : String) : Value → Option Value
  | .object ms => Members.get? ms key
  | _ => none

def string? : Value → Option String
  | .string s => some s
  | _ => none

def array? : Value → Option (List Value)
  | .array items => some items
  | _ => none

/-- Changes the members of an object; anything else stays. -/
def mapMembers (f : Members → Members) : Value → Value
  | .object ms => .object (f ms)
  | v => v

end Value
end NotebookTidy.Json
