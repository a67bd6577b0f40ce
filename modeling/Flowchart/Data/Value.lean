/-!
# Data values

Payloads from outside are values of the JSON data model. Whole numbers of any size and numbers with a decimal
part are kept apart, and the fields of an object keep their order.
-/

namespace Flowchart

inductive Value where
  | null
  | bool (b : Bool)
  | whole (n : Int)
  | decimal (x : Float)
  | text (s : String)
  | array (items : List Value)
  | object (fields : List (String × Value))
deriving Repr

namespace Value

mutual

private def decideEq : (a b : Value) → Decidable (a = b)
  | null, null => isTrue rfl
  | bool a, bool b => decidable_of_iff (a = b) ⟨fun h => h ▸ rfl, fun h => by injection h⟩
  | whole a, whole b => decidable_of_iff (a = b) ⟨fun h => h ▸ rfl, fun h => by injection h⟩
  | decimal a, decimal b => decidable_of_iff (a = b) ⟨fun h => h ▸ rfl, fun h => by injection h⟩
  | text a, text b => decidable_of_iff (a = b) ⟨fun h => h ▸ rfl, fun h => by injection h⟩
  | array a, array b =>
    have := decideEqItems a b
    decidable_of_iff (a = b) ⟨fun h => h ▸ rfl, fun h => by injection h⟩
  | object a, object b =>
    have := decideEqFields a b
    decidable_of_iff (a = b) ⟨fun h => h ▸ rfl, fun h => by injection h⟩
  | null, bool _ | null, whole _ | null, decimal _ | null, text _ | null, array _ | null, object _
  | bool _, null | bool _, whole _ | bool _, decimal _ | bool _, text _ | bool _, array _
  | bool _, object _ | whole _, null | whole _, bool _ | whole _, decimal _ | whole _, text _
  | whole _, array _ | whole _, object _ | decimal _, null | decimal _, bool _
  | decimal _, whole _ | decimal _, text _ | decimal _, array _ | decimal _, object _
  | text _, null | text _, bool _ | text _, whole _ | text _, decimal _ | text _, array _
  | text _, object _ | array _, null | array _, bool _ | array _, whole _ | array _, decimal _
  | array _, text _ | array _, object _ | object _, null | object _, bool _ | object _, whole _
  | object _, decimal _ | object _, text _ | object _, array _ => isFalse nofun

private def decideEqItems : (a b : List Value) → Decidable (a = b)
  | [], [] => isTrue rfl
  | [], _ :: _ => isFalse nofun
  | _ :: _, [] => isFalse nofun
  | x :: xs, y :: ys =>
    have := decideEq x y
    have := decideEqItems xs ys
    decidable_of_iff (x = y ∧ xs = ys) (by simp)

private def decideEqFields : (a b : List (String × Value)) → Decidable (a = b)
  | [], [] => isTrue rfl
  | [], _ :: _ => isFalse nofun
  | _ :: _, [] => isFalse nofun
  | (k, x) :: xs, (l, y) :: ys =>
    have := decideEq x y
    have := decideEqFields xs ys
    decidable_of_iff (k = l ∧ x = y ∧ xs = ys) (by simp [and_assoc])

end

instance : DecidableEq Value := decideEq

/-- Whether a value counts as given: null, false, zero and everything empty do not. -/
def isGiven : Value → Bool
  | null => false
  | bool b => b
  | whole n => n != 0
  | decimal x => x != 0
  | text s => !s.isEmpty
  | array items => !items.isEmpty
  | object fields => !fields.isEmpty

def text? : Value → Option String
  | text s => some s
  | _ => none

end Value

/-- The value of a field of an object. -/
def lookupField? (fields : List (String × Value)) (key : String) : Option Value :=
  (fields.find? (·.1 = key)).map (·.2)

/-- The value of the first of two spellings of a field that is there. -/
def lookupEither? (fields : List (String × Value)) (key alternative : String) : Option Value :=
  (lookupField? fields key).or (lookupField? fields alternative)

/-- Sets a field: in its place if it is there, at the end if not. -/
def setField (key : String) (v : Value) : List (String × Value) → List (String × Value)
  | [] => [(key, v)]
  | (k, w) :: fields => if k = key then (k, v) :: fields else (k, w) :: setField key v fields

end Flowchart
