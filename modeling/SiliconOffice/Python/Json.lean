import Mathlib.Algebra.Order.Ring.Rat
import Mathlib.Data.List.Forall2
import Mathlib.Data.Option.Basic
import SiliconOffice.Library.OrderedDict

/-!
# JSON values as Python handles them

What `json.loads` returns and what the code does with it: truth value, hashing,
comparison with a string, `str()`, `.get()`.  A Python call either returns or
raises, and a method that raises half-way keeps the assignments it made before,
so methods on an object of type `σ` are `EStateM PyErr σ` programs: the state
survives an exception.

Numbers: integers are unbounded, a float is an exact rational, an infinity or a
NaN.  A NaN is equal only to itself as an object, so it carries the identity of
the float object.
-/

namespace SiliconOffice
namespace Python

/-- The exceptions that the code raises, catches or lets through. -/
inductive PyErr
  | attributeError
  | typeError
  | valueError
  | jsonDecodeError
  | unicodeDecodeError
  | overflowError
  | recursionError
  | processLookupError
  | permissionError
  | osError
  deriving DecidableEq, Repr

/-- `except OSError` catches `ProcessLookupError` and `PermissionError` too. -/
def PyErr.isOSError : PyErr → Bool
  | .processLookupError | .permissionError | .osError => true
  | _ => false

/-- `except ValueError` catches the two decoding errors too. -/
def PyErr.isValueError : PyErr → Bool
  | .valueError | .jsonDecodeError | .unicodeDecodeError => true
  | _ => false

/-- A Python float. -/
inductive PyFloat
  | finite (value : ℚ)
  | infinity (negative : Bool)
  | nan (object : Nat)
  deriving DecidableEq

/-- A JSON value.  The members of an object are kept in insertion order. -/
inductive Json
  | null
  | bool (value : Bool)
  | int (value : Int)
  | float (value : PyFloat)
  | str (text : String)
  | arr (items : List Json)
  | obj (members : List (String × Json))
  deriving Inhabited

namespace Json

/-- `bool(value)`. -/
def truthy : Json → Bool
  | null => false
  | bool value => value
  | int value => value != 0
  | float (.finite value) => value != 0
  | float _ => true
  | str text => text != ""
  | arr items => !items.isEmpty
  | obj members => !members.isEmpty

/-- `isinstance(value, dict)`. -/
def isObject : Json → Bool
  | obj _ => true
  | _ => false

/-- `value is None`. -/
def isNone : Json → Bool
  | null => true
  | _ => false

/-- `value == text` for a string constant. -/
def isText (text : String) : Json → Bool
  | str value => value == text
  | _ => false

/-- `value.get(key, default)`; only an object has the method. -/
def get (value : Json) (key : String) (default : Json) : Except PyErr Json :=
  match value with
  | obj members => .ok ((members.lookup key).getD default)
  | _ => .error .attributeError

/-- The value under `key`, when there is one. -/
def get? (key : String) : Json → Option Json
  | obj members => members.lookup key
  | _ => none

/-- `str(value)` and `f"{value}"`.  A string is its own text; `repr` stands for what
Python prints for everything else, which can raise on a deeply nested value. -/
def format (repr : Json → Except PyErr String) : Json → Except PyErr String
  | str text => .ok text
  | value => repr value

@[simp] theorem format_str (repr : Json → Except PyErr String) (text : String) :
    format repr (str text) = .ok text := rfl

theorem isObject_iff {value : Json} : value.isObject = true ↔ ∃ members, value = obj members := by
  cases value <;> simp [isObject]

theorem get_of_isObject {value : Json} (h : value.isObject = true) (key : String)
    (default : Json) : value.get key default = .ok ((value.get? key).getD default) := by
  obtain ⟨members, rfl⟩ := isObject_iff.mp h
  rfl

theorem get_of_not_isObject {value : Json} (h : value.isObject = false) (key : String)
    (default : Json) : value.get key default = .error .attributeError := by
  cases value <;> first | rfl | exact absurd h (by simp [isObject])

end Json

/-! ## Dictionary keys -/

/-- A hashable JSON value: what can be the key of a Python dictionary. -/
inductive DictKey
  | null
  | bool (value : Bool)
  | int (value : Int)
  | float (value : PyFloat)
  | str (text : String)
  deriving DecidableEq

/-- What decides whether two keys are the same: `True`, `1` and `1.0` are one key. -/
inductive KeyClass
  | null
  | number (value : ℚ)
  | infinity (negative : Bool)
  | nan (object : Nat)
  | str (text : String)
  deriving DecidableEq

namespace DictKey

def keyClass : DictKey → KeyClass
  | null => .null
  | bool value => .number (if value then 1 else 0)
  | int value => .number value
  | float (.finite value) => .number value
  | float (.infinity negative) => .infinity negative
  | float (.nan object) => .nan object
  | str text => .str text

instance : BEq DictKey := ⟨fun a b => decide (a.keyClass = b.keyClass)⟩

theorem beq_iff {a b : DictKey} : (a == b) = true ↔ a.keyClass = b.keyClass :=
  decide_eq_true_iff

instance : EquivBEq DictKey where
  rfl := beq_iff.mpr rfl
  symm h := beq_iff.mpr (beq_iff.mp h).symm
  trans h h' := beq_iff.mpr ((beq_iff.mp h).trans (beq_iff.mp h'))

@[simp] theorem str_beq_str (a b : String) : (str a == str b) = (a == b) := by
  rw [Bool.eq_iff_iff, beq_iff, beq_iff_eq]
  exact KeyClass.str.injEq a b ▸ Iff.rfl

/-- Only the same string is the same key as a string. -/
theorem beq_str_iff {key : DictKey} {text : String} :
    (key == str text) = true ↔ key = str text := by
  rw [beq_iff]
  constructor
  · intro h
    cases key with
    | str other => exact congrArg str (KeyClass.str.inj h)
    | float value => cases value <;> exact absurd h (by simp [keyClass])
    | null => exact absurd h (by simp [keyClass])
    | bool value => exact absurd h (by simp [keyClass])
    | int value => exact absurd h (by simp [keyClass])
  · rintro rfl
    rfl

/-- The JSON value of a key. -/
def toJson : DictKey → Json
  | null => .null
  | bool value => .bool value
  | int value => .int value
  | float value => .float value
  | str text => .str text

/-- The member name `json.dumps` writes for a key. -/
def memberName (floatText : PyFloat → String) : DictKey → String
  | null => "null"
  | bool value => if value then "true" else "false"
  | int value => toString value
  | float value => floatText value
  | str text => text

end DictKey

/-- `hash(value)`: what using a value as a dictionary key comes to. -/
def Json.hash : Json → Except PyErr DictKey
  | .null => .ok .null
  | .bool value => .ok (.bool value)
  | .int value => .ok (.int value)
  | .float value => .ok (.float value)
  | .str text => .ok (.str text)
  | .arr _ => .error .typeError
  | .obj _ => .error .typeError

@[simp] theorem Json.hash_toJson (key : DictKey) : key.toJson.hash = .ok key := by
  cases key <;> rfl

/-- `value == other` for hashable values, the only ones the code compares with each
other.  A NaN equals nothing. -/
def Json.equals (value other : Json) : Bool :=
  match value.hash, other.hash with
  | .ok (.float (.nan _)), _ => false
  | .ok key, .ok otherKey => key == otherKey
  | _, _ => false

/-! ## Equality -/

mutual

/-- `value == other` for two members of containers: one object is always equal to itself,
also when it is a NaN. -/
def Json.eq : Json → Json → Bool
  | .arr items, .arr others => Json.eqItems items others
  | .obj members, .obj others =>
      members.length == others.length && Json.eqMembers others members
  | value, other =>
      match value.hash, other.hash with
      | .ok key, .ok otherKey => key == otherKey
      | _, _ => false

def Json.eqItems : List Json → List Json → Bool
  | [], [] => true
  | item :: rest, other :: others => Json.eq item other && Json.eqItems rest others
  | _, _ => false

/-- Every member is there under the same name, in whatever order. -/
def Json.eqMembers (others : List (String × Json)) : List (String × Json) → Bool
  | [] => true
  | (name, value) :: rest =>
      (match others.lookup name with
      | some other => Json.eq value other
      | none => false) && Json.eqMembers others rest

end

theorem Json.lookup_of_eqMembers {others members : List (String × Json)}
    (h : Json.eqMembers others members = true) {name : String} {value : Json}
    (hvalue : members.lookup name = some value) :
    ∃ other, others.lookup name = some other ∧ Json.eq value other = true := by
  induction members with
  | nil => cases hvalue
  | cons head rest ih =>
      obtain ⟨first, member⟩ := head
      rw [Json.eqMembers, Bool.and_eq_true] at h
      rw [Library.Assoc.lookup_cons_ite] at hvalue
      by_cases hsame : (name == first) = true
      · rw [if_pos hsame] at hvalue
        cases hvalue
        rw [eq_of_beq hsame]
        cases hother : others.lookup first with
        | none =>
            rw [hother] at h
            cases h.1
        | some other =>
            rw [hother] at h
            exact ⟨other, rfl, h.1⟩
      · rw [if_neg hsame] at hvalue
        exact ih h.2 hvalue

/-- What a value has under a name, an equal value has there too. -/
theorem Json.get?_of_eq {value other : Json} (h : Json.eq value other = true) {name : String}
    {member : Json} (hmember : value.get? name = some member) :
    ∃ member', other.get? name = some member' ∧ Json.eq member member' = true := by
  cases value with
  | obj members =>
      cases other with
      | obj others =>
          rw [Json.eq, Bool.and_eq_true] at h
          exact Json.lookup_of_eqMembers h.2 hmember
      | _ => cases h
  | _ => cases hmember

theorem Json.eq_str {text : String} {other : Json} (h : Json.eq (.str text) other = true) :
    other = .str text := by
  cases other with
  | str text' => exact congrArg Json.str (KeyClass.str.inj (DictKey.beq_iff.mp h)).symm
  | float value => cases value <;> cases DictKey.beq_iff.mp h
  | null => cases DictKey.beq_iff.mp h
  | bool value => cases DictKey.beq_iff.mp h
  | int value => cases DictKey.beq_iff.mp h
  | arr items => cases h
  | obj members => cases h

/-! ## Values up to member order -/

/-- Two values that a reader of the JSON text cannot tell apart: members of an
object are compared by name, whatever their order. -/
inductive Json.Same : Json → Json → Prop
  | refl (value : Json) : Same value value
  | arr {items items' : List Json} (h : List.Forall₂ Same items items') :
      Same (.arr items) (.arr items')
  | obj {members members' : List (String × Json)}
      (h : ∀ name, Option.Rel Same (members.lookup name) (members'.lookup name)) :
      Same (.obj members) (.obj members')

/-- Objects whose members agree name by name are the same value. -/
theorem Json.same_of_lookup_eq {members members' : List (String × Json)}
    (h : ∀ name, members.lookup name = members'.lookup name) :
    Json.Same (.obj members) (.obj members') := by
  refine .obj fun name => ?_
  rw [h name]
  cases members'.lookup name with
  | none => exact .none
  | some value => exact .some (.refl value)

/-- The same value has the same members. -/
theorem Json.Same.get? {value other : Json} (h : Json.Same value other) (name : String) :
    Option.Rel Json.Same (value.get? name) (other.get? name) := by
  cases h with
  | refl =>
      cases value.get? name with
      | none => exact .none
      | some member => exact .some (.refl member)
  | arr _ => exact .none
  | obj hmembers => exact hmembers name

theorem Json.Same.length_eq {items items' : List Json}
    (h : Json.Same (.arr items) (.arr items')) : items.length = items'.length := by
  cases h with
  | refl => rfl
  | arr hitems => exact hitems.length_eq

/-! ## Methods that may raise -/

theorem ok_bind {α β : Type} (value : α) (next : α → Except PyErr β) :
    Except.ok value >>= next = next value := rfl

theorem error_bind {α β : Type} (exception : PyErr) (next : α → Except PyErr β) :
    Except.error exception >>= next = .error exception := rfl

theorem map_map {α β γ : Type} (result : Except PyErr α) (first : α → β) (next : β → γ) :
    (result.map first).map next = result.map fun value => next (first value) := by
  cases result <;> rfl

/-- A computation that returned went through its first half. -/
theorem exists_of_bind_ok {α β : Type} {first : Except PyErr α} {next : α → Except PyErr β}
    {result : β} (h : first >>= next = .ok result) :
    ∃ value, first = .ok value ∧ next value = .ok result := by
  cases first with
  | ok value => exact ⟨value, rfl, h⟩
  | error exception => cases h

theorem exists_of_map_ok {α β : Type} {result : Except PyErr α} {change : α → β} {value : β}
    (h : result.map change = .ok value) : ∃ first, result = .ok first ∧ change first = value := by
  cases result with
  | error exception => cases h
  | ok first => exact ⟨first, rfl, Except.ok.inj h⟩

/-- Run a pure computation inside a method; an exception leaves the object as it is. -/
def raising {σ α : Type} : Except PyErr α → EStateM PyErr σ α
  | .ok value => pure value
  | .error exception => throw exception

@[simp] theorem run_raising_ok {σ α : Type} (value : α) (s : σ) :
    (raising (.ok value)).run s = .ok value s := rfl

@[simp] theorem run_raising_error {σ α : Type} (exception : PyErr) (s : σ) :
    (raising (.error exception : Except PyErr α)).run s = .error exception s := rfl

/-- The object after a method call, raised or not. -/
def after {σ α : Type} : EStateM.Result PyErr σ α → σ
  | .ok _ s => s
  | .error _ s => s

/-- Whether a method call raised. -/
def raised {σ α : Type} : EStateM.Result PyErr σ α → Bool
  | .ok _ _ => false
  | .error _ _ => true

@[simp] theorem after_ok {σ α : Type} (value : α) (s : σ) :
    after (.ok value s : EStateM.Result PyErr σ α) = s := rfl

@[simp] theorem after_error {σ α : Type} (exception : PyErr) (s : σ) :
    after (.error exception s : EStateM.Result PyErr σ α) = s := rfl

@[simp] theorem raised_ok {σ α : Type} (value : α) (s : σ) :
    raised (.ok value s : EStateM.Result PyErr σ α) = false := rfl

@[simp] theorem raised_error {σ α : Type} (exception : PyErr) (s : σ) :
    raised (.error exception s : EStateM.Result PyErr σ α) = true := rfl

/-- `try: … except Exception: pass`, with what the block is worth when it raised. -/
def swallowing {σ α : Type} (fallback : α) (method : EStateM PyErr σ α) :
    EStateM PyErr σ α := fun s =>
  match method.run s with
  | .ok value s' => .ok value s'
  | .error _ s' => .ok fallback s'

@[simp] theorem after_swallowing {σ α : Type} (fallback : α) (method : EStateM PyErr σ α)
    (s : σ) : after ((swallowing fallback method).run s) = after (method.run s) := by
  change after (match method.run s with
    | .ok value s' => .ok value s'
    | .error _ s' => .ok fallback s') = _
  cases method.run s <;> rfl

/-- `try: … except OSError: pass`, with what the block is worth when it raised that. -/
def catchingOSError {σ α : Type} (fallback : α) (method : EStateM PyErr σ α) :
    EStateM PyErr σ α := fun s =>
  match method.run s with
  | .ok value s' => .ok value s'
  | .error exception s' => if exception.isOSError then .ok fallback s' else .error exception s'

theorem run_catchingOSError {σ α : Type} (fallback : α) (method : EStateM PyErr σ α) (s : σ) :
    (catchingOSError fallback method).run s =
      match method.run s with
      | .ok value s' => .ok value s'
      | .error exception s' =>
          if exception.isOSError then .ok fallback s' else .error exception s' := rfl

/-- What the first half of a method leaves and the second half preserves is left by the
whole method, also when the first half raises. -/
theorem after_bind {σ α β : Type} {invariant : σ → Prop} {method : EStateM PyErr σ α}
    {next : α → EStateM PyErr σ β} {s : σ} (hfirst : invariant (after (method.run s)))
    (hnext : ∀ value s', invariant s' → invariant (after ((next value).run s'))) :
    invariant (after ((method >>= next).run s)) := by
  rw [EStateM.run_bind]
  cases hmethod : method.run s with
  | ok value s' =>
      rw [hmethod] at hfirst
      exact hnext value s' hfirst
  | error exception s' =>
      rw [hmethod] at hfirst
      exact hfirst

@[simp] theorem after_bind_pure {σ α β : Type} (method : EStateM PyErr σ α) (value : β) (s : σ) :
    after ((method >>= fun _ => pure value).run s) = after (method.run s) := by
  rw [EStateM.run_bind]
  cases method.run s <;> rfl

@[simp] theorem raised_bind_pure {σ α β : Type} (method : EStateM PyErr σ α) (value : β)
    (s : σ) : raised ((method >>= fun _ => pure value).run s) = raised (method.run s) := by
  rw [EStateM.run_bind]
  cases method.run s <;> rfl

theorem value_of_bind_pure {σ α β : Type} {method : EStateM PyErr σ α} {value result : β}
    {s s' : σ} (h : (method >>= fun _ => pure value).run s = .ok result s') :
    result = value := by
  rw [EStateM.run_bind] at h
  cases hmethod : method.run s with
  | ok first s'' =>
      rw [hmethod] at h
      exact (EStateM.Result.ok.inj h).1.symm
  | error exception s'' =>
      rw [hmethod] at h
      cases h

end Python
end SiliconOffice
