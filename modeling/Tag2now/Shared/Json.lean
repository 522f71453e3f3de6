import Mathlib.Data.Rat.Defs
import Tag2now.Shared.Basics

/-! # JSON values as Python has them

A float is not a number, infinite, or some number.
-/
namespace Tag2now

inductive PyFloat
  | nan
  | infinity (negative : Bool)
  | finite (value : ℚ)

inductive Json
  | null
  | bool (b : Bool)
  | int (n : ℤ)
  | float (f : PyFloat)
  | str (s : String)
  | arr (items : List Json)
  | obj (fields : List (String × Json))

/-- A body as `response.json` finds it. -/
inductive Body
  /-- Not JSON: a `ValueError`. -/
  | malformed
  /-- Nested deeper than the interpreter goes: a `RecursionError`. -/
  | tooDeep
  | json (value : Json)

namespace Json

def truthy : Json → Bool
  | .null => false
  | .bool b => b
  | .int n => n ≠ 0
  | .float (.finite q) => q ≠ 0
  | .float _ => true
  | .str s => s ≠ ""
  | .arr items => !items.isEmpty
  | .obj fields => !fields.isEmpty

/-- `x or y`. -/
def orElse (x y : Json) : Json := if x.truthy then x else y

/-- `d.get(name)` of an object. -/
def get (fields : List (String × Json)) (name : String) : Json :=
  ((fields.find? fun e => e.1 = name).map (·.2)).getD .null

def isStr (s : String) : Json → Bool
  | .str t => t = s
  | _ => false

mutual

/-- A response's JSON holds no float that is not finite. -/
def writable : Json → Bool
  | .float (.finite _) => true
  | .float _ => false
  | .arr items => writableItems items
  | .obj fields => writableFields fields
  | .null | .bool _ | .int _ | .str _ => true

def writableItems : List Json → Bool
  | [] => true
  | item :: items => item.writable && writableItems items

def writableFields : List (String × Json) → Bool
  | [] => true
  | (_,value) :: fields => value.writable && writableFields fields

end

end Json

/-- Why `int` refuses a value. -/
inductive IntFault
  | valueError
  | typeError
  | overflowError

/-- The zeros of Unicode's runs of ten decimal digits. -/
def zeros : List ℕ :=
  [0x30,0x660,0x6f0,0x7c0,0x966,0x9e6,0xa66,0xae6,0xb66,0xbe6,0xc66,0xce6,0xd66,0xde6,0xe50,0xed0,0xf20,0x1040,
    0x1090,0x17e0,0x1810,0x1946,0x19d0,0x1a80,0x1a90,0x1b50,0x1bb0,0x1c40,0x1c50,0xa620,0xa8d0,0xa900,0xa9d0,
    0xa9f0,0xaa50,0xabf0,0xff10,0x104a0,0x10d30,0x11066,0x110f0,0x11136,0x111d0,0x112f0,0x11450,0x114d0,0x11650,
    0x116c0,0x11730,0x118e0,0x11950,0x11c50,0x11d50,0x11da0,0x11f50,0x16a60,0x16ac0,0x16b50,0x1d7ce,0x1d7d8,
    0x1d7e2,0x1d7ec,0x1d7f6,0x1e140,0x1e2f0,0x1e4f0,0x1e950,0x1fbf0]

def decimal (c : Char) : Option ℕ :=
  (zeros.find? fun z => z ≤ c.toNat && c.toNat < z + 10).map fun z => c.toNat - z

/-- Decimal digits, any two of them with at most one underscore between them. -/
def decimals : List Char → Option (List ℕ)
  | [] => none
  | [c] => (decimal c).map fun d => [d]
  | c :: '_' :: cs => do
    let d ← decimal c
    let ds ← decimals cs
    return d :: ds
  | c :: cs => do
    let d ← decimal c
    let ds ← decimals cs
    return d :: ds

/-- `int` reads no more digits than this. -/
def maxStrDigits : ℕ := 4300

def magnitude (cs : List Char) : Option ℤ := do
  let ds ← decimals cs
  if ds.length ≤ maxStrDigits then some (ds.foldl (fun n d => 10 * n + d) 0 : ℕ) else none

def intOfStr (s : String) : Option ℤ :=
  match (trim isWhitespace s).toList with
  | '-' :: cs => (magnitude cs).map fun n => -n
  | '+' :: cs => magnitude cs
  | cs => magnitude cs

/-- `int(x)`. -/
def Json.toInt : Json → Except IntFault ℤ
  | .bool b => .ok (if b then 1 else 0)
  | .int n => .ok n
  | .float .nan => .error .valueError
  | .float (.infinity _) => .error .overflowError
  | .float (.finite q) => .ok (q.num.tdiv q.den)
  | .str s => (intOfStr s).elim (.error .valueError) .ok
  | .null | .arr _ | .obj _ => .error .typeError

end Tag2now
