import FrontToc.Yaml.Anchor
import FrontToc.Yaml.Plain
import FrontToc.Yaml.Token.Stream

/-!
Reading a YAML text as a value.
-/
namespace FrontToc.Yaml

/-- What a tag says about the node that has it. A tag of the document's own has no name if that is no
UTF-8, and any `other` tag makes a scalar a string. -/
inductive TagKind where
  | none
  | bool
  | int
  | float
  | null
  | own (name : Option (List Char))
  | other
deriving DecidableEq, Repr

def coreTag (name : String) : TagText :=
  ("tag:yaml.org,2002:" ++ name).toList.map some

/-- The kind of a tag. A tag of the document's own starts with an exclamation mark. -/
def TagKind.of : Option TagText → TagKind
  | Option.none => .none
  | some t =>
    match t with
    | [some '!'] => .own (some ['!'])
    | some '!' :: name => .own (name.mapM id)
    | _ =>
      if t = coreTag "bool" then .bool
      else if t = coreTag "int" then .int
      else if t = coreTag "float" then .float
      else if t = coreTag "null" then .null
      else .other

def scalarValue? (kind : TagKind) (plain : Bool) (text : List Char) : Option Value :=
  match kind with
  | .bool => (Plain.bool? text).map Value.bool
  | .int =>
    match Plain.whole? text with
    | some (.fits n) => some (.int n)
    | _ => none
  | .float => (Plain.float? text).map Value.float
  | .null => if Plain.isNull text then some .null else none
  | .other => some (.str text)
  | .none | .own _ => if plain then Plain.resolve? text else some (.str text)

def TagKind.wrap (kind : TagKind) (v : Value) : Value :=
  match kind with
  | .own (some name) => .tagged (Tag.ofText name) v
  | _ => v

/-- A computation that may follow so many aliases more. -/
abbrev Budgeted := StateT Nat Option

def followAlias (targets : List (Nat × Node Nat)) : Node Nat → Budgeted (Node Nat)
  | .alias n => fun budget =>
    match budget, targets.reverse.lookup n with
    | budget + 1, some node => some (node, budget)
    | _, _ => none
  | node => fun budget => some (node, budget)

/-- The entries of a mapping. No key may occur twice. -/
def mappingEntries (value : Node Nat → Budgeted Value) (entries : List (Node Nat × Node Nat)) :
    Budgeted Mapping :=
  entries.foldlM (fun m (key, val) => do
    let k ← value key
    if m.hasKey k then failure
    let v ← value val
    return m ++ [(k, v)]) []

/-- The value of a node. `inner` gives the values of nodes inside collections, if nesting allows. -/
def nodeValue (targets : List (Nat × Node Nat)) (inner : Option (Node Nat → Budgeted Value))
    (node : Node Nat) : Budgeted Value := do
  match ← followAlias targets node, inner with
  | .scalar _ tag plain text, _ =>
    let kind := TagKind.of tag
    let v ← scalarValue? kind plain text
    return kind.wrap v
  | .seq _ tag items, some value => return (TagKind.of tag).wrap (.seq (← items.mapM value))
  | .map _ tag entries, some value =>
    return (TagKind.of tag).wrap (.map (← mappingEntries value entries))
  | _, _ => failure

def valueOf (targets : List (Nat × Node Nat)) : (depth : Nat) → Node Nat → Budgeted Value
  | 0 => nodeValue targets none
  | depth + 1 => nodeValue targets (some (valueOf targets depth))

def deepestNesting : Nat := 128

/-- How many aliases may be followed for each mark of the document. -/
def aliasesPerEvent : Nat := 100

def Node.value? (node : Node.Named) : Option Value :=
  match node.number? [] with
  | none => none
  | some (node, _) =>
    (valueOf node.targets deepestNesting node (aliasesPerEvent * node.eventCount)).map (·.1)

def dropByteOrderMark : List Char → List Char
  | c :: rest => if c = byteOrderMark then rest else c :: rest
  | [] => []

def read? (text : List Char) : Option Value :=
  let body := dropByteOrderMark text
  if body.all isAllowed then
    match Token.ofText? (unifyBreaks body) with
    | none => none
    | some tokens => (Node.ofTokens? tokens).bind Node.value?
  else none

end FrontToc.Yaml
