import Mathlib

/-!
# JSON values

The part of a JSON library's documented interface that typed readers use: `find` never
throws and finds nothing outside objects, `value` falls back to a default only where the
key is absent and throws where the value is no object or the member has another type.
-/
namespace HyperliquidApi

inductive JsonNumber
  | unsigned (n : ℕ)
  | integer (z : ℤ)
  | float (q : ℚ)
  deriving DecidableEq

inductive Json
  | null
  | bool (b : Bool)
  | number (n : JsonNumber)
  | string (s : String)
  | array (elements : List Json)
  | object (members : List (String × Json))

inductive JsonError
  | typeMismatch
  | notObject
  | notArray
  | outOfRange
  deriving DecidableEq

/-- Readers run one after the other; a result says that each of them had one. -/
lemma bind_ok {ε α β : Type} {x : Except ε α} {f : α → Except ε β} {b : β}
    (h : x >>= f = .ok b) : ∃ a, x = .ok a ∧ f a = .ok b := by
  cases x with
  | error e => cases h
  | ok a => exact ⟨a, rfl, h⟩

lemma bind_error {ε α β : Type} {x : Except ε α} {f : α → Except ε β} {e : ε}
    (h : x >>= f = .error e) : x = .error e ∨ ∃ a, x = .ok a ∧ f a = .error e := by
  cases x with
  | error e' =>
    obtain rfl := Except.error.inj h
    exact .inl rfl
  | ok a => exact .inr ⟨a, rfl, h⟩

namespace JsonNumber

def toDouble : JsonNumber → ℚ
  | unsigned n => n
  | integer z => z
  | float q => q

/-- Conversion to a 64-bit unsigned integer: fractions are cut off, values wrap. -/
def toUInt64 : JsonNumber → ℕ
  | unsigned n => n % 2^64
  | integer z => (z % 2^64).toNat
  | float q => ((q.num.tdiv q.den) % 2^64).toNat

/-- Conversion to a 64-bit integer: fractions are cut off, values wrap. -/
def toInt64 : JsonNumber → ℤ
  | unsigned n => (n : ℤ).bmod (2^64)
  | integer z => z.bmod (2^64)
  | float q => (q.num.tdiv q.den).bmod (2^64)

/-- Conversion to a 32-bit integer: fractions are cut off, values wrap. -/
def toInt32 : JsonNumber → ℤ
  | unsigned n => (n : ℤ).bmod (2^32)
  | integer z => z.bmod (2^32)
  | float q => (q.num.tdiv q.den).bmod (2^32)

end JsonNumber

namespace Json

def isObject : Json → Bool
  | object _ => true
  | _ => false

def find : Json → String → Option Json
  | object members, key => members.lookup key
  | _, _ => none

def asString : Json → Option String
  | string s => some s
  | _ => none

def asBool : Json → Option Bool
  | bool b => some b
  | _ => none

/-- A boolean is no number. -/
def asUInt64 : Json → Option ℕ
  | number n => some n.toUInt64
  | _ => none

def asInt64 : Json → Option ℤ
  | number n => some n.toInt64
  | _ => none

/-- For types other than the library's own number types a boolean counts as 0 or 1. -/
def asInt : Json → Option ℤ
  | number n => some n.toInt32
  | bool b => some (if b then 1 else 0)
  | _ => none

/-- `json.value(key, default)` for the type that `read` recognises. -/
def value {α : Type*} (read : Json → Option α) (json : Json) (key : String) (default : α) :
    Except JsonError α :=
  if json.isObject then
    match json.find key with
    | none => .ok default
    | some member =>
      match read member with
      | none => .error .typeMismatch
      | some a => .ok a
  else .error .notObject

/-- `value` does not throw on this member. -/
def Readable {α : Type*} (read : Json → Option α) (json : Json) (key : String) : Prop :=
  json.isObject = true ∧ ∀ member, json.find key = some member → (read member).isSome = true

theorem value_ok_iff {α : Type*} (read : Json → Option α) (json : Json) (key : String)
    (default : α) : (∃ a, json.value read key default = .ok a) ↔ json.Readable read key := by
  unfold value Readable
  cases json.isObject with
  | false => simp
  | true =>
    cases json.find key with
    | none => simp
    | some member => cases hr : read member <;> simp [hr]

/-- The member, or the default where there is none. -/
lemma value_of_readable {α : Type*} {read : Json → Option α} {json : Json} {key : String}
    (h : json.Readable read key) (default : α) :
    json.value read key default = .ok (((json.find key).bind read).getD default) := by
  obtain ⟨hobject, hmember⟩ := h
  unfold value
  rw [if_pos hobject]
  cases hfind : json.find key with
  | none => rfl
  | some member =>
    obtain ⟨a, ha⟩ := Option.isSome_iff_exists.mp (hmember member hfind)
    simp [ha]

theorem find_of_value {α : Type*} {read : Json → Option α} {json : Json} {key : String}
    {default a : α} (h : json.value read key default = .ok a) (ha : a ≠ default) :
    ∃ member, json.find key = some member ∧ read member = some a := by
  unfold value at h
  split_ifs at h
  cases hm : json.find key with
  | none =>
    rw [hm] at h
    exact absurd (Except.ok.inj h).symm ha
  | some member =>
    rw [hm] at h
    cases hr : read member with
    | none => simp [hr] at h
    | some b =>
      simp only [hr, Except.ok.injEq] at h
      exact ⟨member, rfl, h ▸ hr⟩

theorem value_of_find {α : Type*} {read : Json → Option α} {json member : Json} {key : String}
    {a : α} (hf : json.find key = some member) (hr : read member = some a) (default : α) :
    json.value read key default = .ok a := by
  cases json with
  | object members => simp [value, isObject, hf, hr]
  | _ => simp [find] at hf

theorem value_of_absent {α : Type*} {read : Json → Option α} {members : List (String × Json)}
    {key : String} (h : members.lookup key = none) {default : α} :
    (object members).value read key default = .ok default := by
  simp [value, isObject, find, h]

lemma asString_eq {json : Json} {s : String} (h : json.asString = some s) : json = string s := by
  cases json with
  | string t => rw [Option.some.inj h]
  | _ => cases h

/-- A string other than the default comes from the member. -/
theorem find_of_string_value {json : Json} {key s : String}
    (h : json.value asString key "" = .ok s) (hs : s ≠ "") : json.find key = some (string s) := by
  obtain ⟨member, hf, hm⟩ := find_of_value h hs
  rw [hf, asString_eq hm]

/-- A number, or a string that `stod` parses; everything else reads as zero. -/
def readNum (stod : String → Option ℚ) (json : Json) (key : String) : ℚ :=
  match json.find key with
  | some (string s) => (stod s).getD 0
  | some (number n) => n.toDouble
  | _ => 0

/-! The container members that look into arrays, and `at`. -/

def isArray : Json → Bool
  | array _ => true
  | _ => false

def empty : Json → Bool
  | null => true
  | array elements => elements.isEmpty
  | object members => members.isEmpty
  | _ => false

def size : Json → ℕ
  | null => 0
  | array elements => elements.length
  | object members => members.length
  | _ => 1

def at' : Json → ℕ → Except JsonError Json
  | array elements, i =>
    match elements[i]? with
    | none => .error .outOfRange
    | some element => .ok element
  | _, _ => .error .notArray

/-- The first element, that of the least key in an object; a scalar is its own element. -/
def front : Json → Except JsonError Json
  | null => .error .outOfRange
  | array [] => .error .outOfRange
  | array (element :: _) => .ok element
  | object members =>
    match (members.map Prod.fst).min?.bind (members.lookup ·) with
    | none => .error .outOfRange
    | some member => .ok member
  | json => .ok json

def atKey (json : Json) (key : String) : Except JsonError Json :=
  if json.isObject then
    match json.find key with
    | none => .error .outOfRange
    | some member => .ok member
  else .error .notObject

lemma asUInt64_number (n : JsonNumber) : (Json.number n).asUInt64 = some n.toUInt64 := rfl

end Json

/-- What depends on the standard library and the platform: `stod`, empty where it throws, and the
conversion to `unsigned long long`, which takes booleans where that is not the library's own type
of unsigned numbers. -/
structure Library where
  stod : String → Option ℚ
  asULL : Json → Option ℕ
  asULL_number : ∀ n, asULL (.number n) = some n.toUInt64

namespace Library
open Json

lemma asULL_of_asUInt64 (lib : Library) {json : Json} {n : ℕ} (h : json.asUInt64 = some n) :
    lib.asULL json = some n := by
  cases json with
  | number m =>
    rw [lib.asULL_number]
    exact h
  | _ => cases h

/-- Where there is a number, or nothing, the two conversions agree. -/
lemma value_asULL (lib : Library) {json : Json} {key : String} (h : json.Readable asUInt64 key)
    (default : ℕ) : json.value lib.asULL key default =
      .ok (((json.find key).bind asUInt64).getD default) := by
  obtain ⟨hobject, hmember⟩ := h
  unfold value
  rw [if_pos hobject]
  cases hfind : json.find key with
  | none => rfl
  | some member =>
    obtain ⟨n, hn⟩ := Option.isSome_iff_exists.mp (hmember member hfind)
    simp [lib.asULL_of_asUInt64 hn, hn]

end Library

/-- No string is a number. -/
def noNumbers : Library := ⟨fun _ => none, Json.asUInt64, Json.asUInt64_number⟩

end HyperliquidApi
