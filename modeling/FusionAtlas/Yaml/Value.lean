import FusionAtlas.Text.Binary64

/-!
Values of a YAML document, and the two questions asked of them: whether two values are the same
key, and what a key leads to. Texts and mappings are also seen through a tag.
-/

set_option autoImplicit false
set_option relaxedAutoImplicit false

namespace FusionAtlas.Yaml

/-- A value. A mapping keeps its entries in the order they were written. -/
inductive Value where
  | null
  | bool (value : Bool)
  | int (value : Int)
  | float (value : Binary64)
  | string (text : String)
  | sequence (items : List Value)
  | mapping (entries : List (Value × Value))
  | tagged (tag : String) (value : Value)
  deriving Repr, Inhabited

abbrev Mapping := List (Value × Value)

namespace Value

mutual
/-- Two values are the same key: equal by content, where the order of a mapping's entries does not
count, a float is equal to any float of the same number, and no integer is equal to a float. -/
def same : Value → Value → Bool
  | null, null => true
  | bool a, bool b => a == b
  | int a, int b => a == b
  | float a, float b => a.sameNumber b
  | string a, string b => a == b
  | sequence as, sequence bs => sameItems as bs
  | mapping as, mapping bs => as.length == bs.length && entriesWithin as bs
  | tagged s a, tagged t b => s == t && same a b
  | _, _ => false

/-- Two sequences hold the same values in the same order. -/
def sameItems : List Value → List Value → Bool
  | [], [] => true
  | a :: as, b :: bs => same a b && sameItems as bs
  | _, _ => false

/-- Every entry of the first mapping is found in the second. -/
def entriesWithin : List (Value × Value) → List (Value × Value) → Bool
  | [], _ => true
  | entry :: more, bs =>
    bs.any (fun other => sameEntry entry other) && entriesWithin more bs

/-- Two entries agree in key and value. -/
def sameEntry : Value × Value → Value × Value → Bool
  | (k, v), (l, w) => same k l && same v w
end

def untagged : Value → Value
  | tagged _ value => value.untagged
  | value => value

/-- The text of a string, tagged or not. -/
def asString? (value : Value) : Option String :=
  match value.untagged with
  | string text => some text
  | _ => none

/-- The entries of a mapping, tagged or not. -/
def asMapping? (value : Value) : Option Mapping :=
  match value.untagged with
  | mapping entries => some entries
  | _ => none

/-- What a text leads to in an untagged mapping. Only keys that are plain texts are met. -/
def member? (value : Value) (name : String) : Option Value :=
  match value with
  | mapping entries => (entries.find? fun entry => same entry.1 (string name)).map (·.2)
  | _ => none

/-- What a list of texts leads to, step by step. -/
def memberAt? : Value → List String → Option Value
  | value, [] => some value
  | value, name :: more => (value.member? name).bind (·.memberAt? more)

end Value

end FusionAtlas.Yaml
