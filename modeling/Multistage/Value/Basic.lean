/-
Multistage.Value.Basic — values of any kind, as a caller hands them in.

Options, model arguments and scenario data arrive untyped: a count may come
as a number or as a text, a vector as nested lists, a stage problem as a
record of its parts.  A value keeps its kind, so that a message can quote it
as it was given and an option can be handed back unchanged.
-/
import Multistage.Text.Quoted

namespace Multistage

/-- A value of any kind. -/
inductive Value where
  | null
  | bool (b : Bool)
  | int (i : Int)
  | float (x : Float)
  | string (s : String)
  | list (items : List Value)
  | record (fields : List (String × Value))

namespace Value

instance : Inhabited Value := ⟨.null⟩

instance : Coe String Value := ⟨.string⟩

/-! ## Equality -/

mutual

/-- Decides whether two values are of one kind and alike. -/
def decEq : (a b : Value) → Decidable (a = b)
  | null, null => isTrue rfl
  | bool a, bool b => decidable_of_iff (a = b) (by simp)
  | int a, int b => decidable_of_iff (a = b) (by simp)
  | float a, float b => decidable_of_iff (a = b) (by simp)
  | string a, string b => decidable_of_iff (a = b) (by simp)
  | list as, list bs =>
    have := decEqAll as bs
    decidable_of_iff (as = bs) (by simp)
  | record as, record bs =>
    have := decEqFields as bs
    decidable_of_iff (as = bs) (by simp)
  | null, bool _ | null, int _ | null, float _ | null, string _ | null, list _ | null, record _
  | bool _, null | bool _, int _ | bool _, float _ | bool _, string _ | bool _, list _
  | bool _, record _ | int _, null | int _, bool _ | int _, float _ | int _, string _
  | int _, list _ | int _, record _ | float _, null | float _, bool _ | float _, int _
  | float _, string _ | float _, list _ | float _, record _ | string _, null | string _, bool _
  | string _, int _ | string _, float _ | string _, list _ | string _, record _ | list _, null
  | list _, bool _ | list _, int _ | list _, float _ | list _, string _ | list _, record _
  | record _, null | record _, bool _ | record _, int _ | record _, float _
  | record _, string _ | record _, list _ => isFalse nofun

/-- Decides whether two lists of values are alike. -/
def decEqAll : (as bs : List Value) → Decidable (as = bs)
  | [], [] => isTrue rfl
  | a :: as, b :: bs =>
    have := decEq a b
    have := decEqAll as bs
    decidable_of_iff (a = b ∧ as = bs) (by simp)
  | [], _ :: _ | _ :: _, [] => isFalse nofun

/-- Decides whether two lists of fields are alike, names included. -/
def decEqFields : (as bs : List (String × Value)) → Decidable (as = bs)
  | [], [] => isTrue rfl
  | (k, a) :: as, (l, b) :: bs =>
    have := decEq a b
    have := decEqFields as bs
    decidable_of_iff (k = l ∧ a = b ∧ as = bs) (by simp [and_assoc])
  | [], _ :: _ | _ :: _, [] => isFalse nofun

end

instance : DecidableEq Value := decEq

/-! ## Parts -/

/-- The items of a list; any other value has none. -/
def items : Value → List Value
  | list vs => vs
  | _ => []

/-- The item at a position, `null` where there is none. -/
def itemAt (v : Value) (k : Nat) : Value := v.items.getD k null

/-- The fields of a record; any other value has none. -/
def fields : Value → List (String × Value)
  | record fs => fs
  | _ => []

/-- The field of a name, if a record has it. -/
def field? (v : Value) (name : String) : Option Value :=
  (v.fields.find? fun (k, _) => k == name).map Prod.snd

/-- The field of a name, or a value in place of a field that is not there. -/
def field (v : Value) (name : String) (absent : Value := null) : Value :=
  (v.field? name).getD absent

/-- A value that may be missing: `null` is none. -/
def given? : Value → Option Value
  | null => none
  | v => some v

/-! ## Text -/

mutual

/-- The value as an item of a list is written: texts are quoted. -/
def quoted : Value → String
  | null => "None"
  | bool b => if b then "True" else "False"
  | int i => Decimal.intText i
  | float x => Decimal.floatText x
  | string s => Text.quoted s
  | list items => Text.bracketed (quotedAll items)
  | record fields => Text.braced (quotedFields fields)

/-- The items of a list, each as an item is written. -/
def quotedAll : List Value → List String
  | [] => []
  | v :: rest => quoted v :: quotedAll rest

/-- The fields of a record, each with its name quoted. -/
def quotedFields : List (String × Value) → List String
  | [] => []
  | (k, v) :: rest => (Text.quoted k ++ ": " ++ quoted v) :: quotedFields rest

end

/-- The value as messages show it: a text stands as it is. -/
def text : Value → String
  | string s => s
  | v => quoted v

/-- The name of a value's kind. -/
def kindName : Value → String
  | null => "NoneType"
  | bool _ => "bool"
  | int _ => "int"
  | float _ => "float"
  | string _ => "str"
  | list _ => "list"
  | record _ => "dict"

end Value

end Multistage
