import Mathlib.Algebra.Group.Int.Defs

/-!
This module contains JSON values with decidable equality.
-/

inductive Json where
  | null
  | bool (value : Bool)
  | number (value : Int)
  | string (value : String)
  | array (items : List Json)
  | object (members : List (String × Json))
  deriving Inhabited

namespace Json

mutual

def decEq : (a b : Json) → Decidable (a = b)
  | .null, .null => isTrue rfl
  | .bool a, .bool b => if h : a = b then isTrue (h ▸ rfl) else isFalse (fun e => h (Json.bool.inj e))
  | .number a, .number b =>
    if h : a = b then isTrue (h ▸ rfl) else isFalse (fun e => h (Json.number.inj e))
  | .string a, .string b =>
    if h : a = b then isTrue (h ▸ rfl) else isFalse (fun e => h (Json.string.inj e))
  | .array a, .array b =>
    match decEqItems a b with
    | isTrue h => isTrue (h ▸ rfl)
    | isFalse h => isFalse (fun e => h (Json.array.inj e))
  | .object a, .object b =>
    match decEqMembers a b with
    | isTrue h => isTrue (h ▸ rfl)
    | isFalse h => isFalse (fun e => h (Json.object.inj e))
  | .null, .bool _ | .null, .number _ | .null, .string _ | .null, .array _ | .null, .object _
  | .bool _, .null | .bool _, .number _ | .bool _, .string _ | .bool _, .array _ | .bool _, .object _
  | .number _, .null | .number _, .bool _ | .number _, .string _ | .number _, .array _ | .number _, .object _
  | .string _, .null | .string _, .bool _ | .string _, .number _ | .string _, .array _ | .string _, .object _
  | .array _, .null | .array _, .bool _ | .array _, .number _ | .array _, .string _ | .array _, .object _
  | .object _, .null | .object _, .bool _ | .object _, .number _ | .object _, .string _ | .object _, .array _ =>
    isFalse nofun

def decEqItems : (a b : List Json) → Decidable (a = b)
  | [], [] => isTrue rfl
  | [], _ :: _ => isFalse nofun
  | _ :: _, [] => isFalse nofun
  | a :: as, b :: bs =>
    match decEq a b, decEqItems as bs with
    | isTrue h, isTrue hs => isTrue (h ▸ hs ▸ rfl)
    | isFalse h, _ => isFalse (fun e => h (List.cons.inj e).1)
    | _, isFalse hs => isFalse (fun e => hs (List.cons.inj e).2)

def decEqMembers : (a b : List (String × Json)) → Decidable (a = b)
  | [], [] => isTrue rfl
  | [], _ :: _ => isFalse nofun
  | _ :: _, [] => isFalse nofun
  | (k, a) :: as, (l, b) :: bs =>
    if hk : k = l then
      match decEq a b, decEqMembers as bs with
      | isTrue h, isTrue hs => isTrue (hk ▸ h ▸ hs ▸ rfl)
      | isFalse h, _ => isFalse (fun e => h (Prod.mk.inj (List.cons.inj e).1).2)
      | _, isFalse hs => isFalse (fun e => hs (List.cons.inj e).2)
    else
      isFalse (fun e => hk (Prod.mk.inj (List.cons.inj e).1).1)

end

instance : DecidableEq Json := decEq

def get? (value : Json) (field : String) : Option Json :=
  match value with
  | .object members => members.lookup field
  | _ => none

def asString? : Json → Option String
  | .string value => some value
  | _ => none

def asBool? : Json → Option Bool
  | .bool value => some value
  | _ => none

def asU32? : Json → Option Nat
  | .number value => if 0 ≤ value ∧ value < 2 ^ 32 then some value.toNat else none
  | _ => none

end Json
