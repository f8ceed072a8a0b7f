import FrontToc.Number.Binary64

/-!
YAML values: what a document in the block or flow notation stands for, without its layout.
-/
namespace FrontToc.Yaml

/-- A local tag. Its name has no exclamation mark of its own in front, unless it is nothing else. -/
structure Tag where
  name : List Char
deriving DecidableEq, Repr

namespace Tag

/-- The tag with this text, which may be written with the exclamation mark or without it. -/
def ofText : List Char → Tag
  | ['!'] => ⟨['!']⟩
  | '!' :: name => ⟨name⟩
  | name => ⟨name⟩

def display (t : Tag) : List Char :=
  '!' :: t.name

end Tag

/-- A value. The entries of a mapping keep their order. -/
inductive Value where
  | null
  | bool (b : Bool)
  | int (n : Int)
  | float (x : Binary64)
  | str (s : List Char)
  | seq (items : List Value)
  | map (entries : List (Value × Value))
  | tagged (tag : Tag) (value : Value)
deriving Inhabited

abbrev Mapping := List (Value × Value)

namespace Value

mutual

/-- Whether two values are equal as keys. The order of a mapping does not count, and of floating
point numbers the two zeros are equal and so are any two that are no numbers. -/
def same : Value → Value → Bool
  | .null, .null => true
  | .bool a, .bool b => a = b
  | .int a, .int b => a = b
  | .float a, .float b => a.same b
  | .str a, .str b => a = b
  | .seq a, .seq b => sameItems a b
  | .map a, .map b => a.length = b.length && covered a b
  | .tagged s a, .tagged t b => s = t && same a b
  | _, _ => false

def sameItems : List Value → List Value → Bool
  | [], [] => true
  | a :: as, b :: bs => same a b && sameItems as bs
  | _, _ => false

/-- Whether each entry of the first mapping has an equal one in the second. -/
def covered : List (Value × Value) → List (Value × Value) → Bool
  | [], _ => true
  | (k, v) :: rest, entries =>
    entries.any (fun entry => same k entry.1 && same v entry.2) && covered rest entries

end

def untagged : Value → Value
  | .tagged _ v => v.untagged
  | v => v

def text? (v : Value) : Option (List Char) :=
  match v.untagged with
  | .str s => some s
  | _ => none

end Value

namespace Mapping

def hasKey (m : Mapping) (key : Value) : Bool :=
  m.any fun entry => entry.1.same key

/-- The value of the entry whose key is the untagged string `key`. -/
def get? (m : Mapping) (key : List Char) : Option Value :=
  (m.find? fun entry => entry.1.same (.str key)).map (·.2)

def text? (m : Mapping) (key : List Char) : Option (List Char) :=
  (m.get? key).bind Value.text?

end Mapping

end FrontToc.Yaml
