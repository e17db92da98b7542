import EntityModel.Number.Basic

/-!
# Loose values

The type of an attribute, a flag or the bound of an annotation may be any value at all; it is kept
as a `Value` and judged by validation. A table of a value has its members sorted by name, each name
once.
-/

namespace EntityModel

/-- A loosely typed value. -/
inductive Value where
  | null
  | bool (b : Bool)
  | number (n : Number)
  | text (s : String)
  | list (items : List Value)
  | table (members : List (String × Value))
  deriving Inhabited

namespace Value

mutual
/-- Decides whether two values are the same. -/
def decEq : (v w : Value) → Decidable (v = w)
  | .null, .null => isTrue rfl
  | .bool b, .bool c => if h : b = c then isTrue (h ▸ rfl) else isFalse fun e => h (by injection e)
  | .number m, .number n =>
    if h : m = n then isTrue (h ▸ rfl) else isFalse fun e => h (by injection e)
  | .text s, .text t => if h : s = t then isTrue (h ▸ rfl) else isFalse fun e => h (by injection e)
  | .list xs, .list ys =>
    match decEqItems xs ys with
    | isTrue h => isTrue (h ▸ rfl)
    | isFalse h => isFalse fun e => h (by injection e)
  | .table ms, .table ns =>
    match decEqMembers ms ns with
    | isTrue h => isTrue (h ▸ rfl)
    | isFalse h => isFalse fun e => h (by injection e)
  | .null, .bool _ | .null, .number _ | .null, .text _ | .null, .list _ | .null, .table _
  | .bool _, .null | .bool _, .number _ | .bool _, .text _ | .bool _, .list _ | .bool _, .table _
  | .number _, .null | .number _, .bool _ | .number _, .text _ | .number _, .list _
  | .number _, .table _
  | .text _, .null | .text _, .bool _ | .text _, .number _ | .text _, .list _ | .text _, .table _
  | .list _, .null | .list _, .bool _ | .list _, .number _ | .list _, .text _ | .list _, .table _
  | .table _, .null | .table _, .bool _ | .table _, .number _ | .table _, .text _
  | .table _, .list _ => isFalse fun e => nomatch e

/-- Decides whether two lists of values are the same. -/
def decEqItems : (xs ys : List Value) → Decidable (xs = ys)
  | [], [] => isTrue rfl
  | [], _ :: _ => isFalse fun e => nomatch e
  | _ :: _, [] => isFalse fun e => nomatch e
  | x :: xs, y :: ys =>
    match decEq x y, decEqItems xs ys with
    | isTrue h, isTrue h' => isTrue (h ▸ h' ▸ rfl)
    | isFalse h, _ => isFalse fun e => h (by injection e)
    | _, isFalse h => isFalse fun e => h (by injection e)

/-- Decides whether two lists of members are the same. -/
def decEqMembers : (ms ns : List (String × Value)) → Decidable (ms = ns)
  | [], [] => isTrue rfl
  | [], _ :: _ => isFalse fun e => nomatch e
  | _ :: _, [] => isFalse fun e => nomatch e
  | (k, x) :: ms, (l, y) :: ns =>
    match (inferInstance : Decidable (k = l)), decEq x y, decEqMembers ms ns with
    | isTrue h, isTrue h', isTrue h'' => isTrue (h ▸ h' ▸ h'' ▸ rfl)
    | isFalse h, _, _ => isFalse fun e => h (by injection e with e; injection e)
    | _, isFalse h, _ => isFalse fun e => h (by injection e with e; injection e)
    | _, _, isFalse h => isFalse fun e => h (by injection e)
end

instance : DecidableEq Value := decEq

/-- Gives a name a value in a sorted list of members. -/
def setMember (k : String) (v : Value) : List (String × Value) → List (String × Value)
  | [] => [(k, v)]
  | (k', v') :: rest =>
    if k = k' then (k, v) :: rest
    else if k < k' then (k, v) :: (k', v') :: rest
    else (k', v') :: setMember k v rest

/-- The sorted members of a list of members: of a repeated name the last value counts. -/
def sortMembers (ms : List (String × Value)) : List (String × Value) :=
  ms.foldl (fun acc m => setMember m.1 m.2 acc) []

/-- The text, if the value is one. -/
def asText? : Value → Option String
  | .text s => some s
  | _ => none

/-- The truth value, if the value is one. -/
def asBool? : Value → Option Bool
  | .bool b => some b
  | _ => none

/-- The whole number of 64 bits with a sign, if the value is one. -/
def asInt64? : Value → Option Int
  | .number n => n.toInt64?
  | _ => none

end Value

end EntityModel
