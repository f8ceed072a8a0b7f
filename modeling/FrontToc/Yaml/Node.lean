import FrontToc.Yaml.Token

/-!
Nodes: the tree that the tokens of a document describe, before scalars are given a meaning. A node
may have an anchor, by which an alias elsewhere names it, and a tag.
-/
namespace FrontToc.Yaml

/-- A node whose anchors and aliases are of type `ρ`. -/
inductive Node (ρ : Type) where
  | alias (target : ρ)
  | scalar (anchor : Option ρ) (tag : Option TagText) (plain : Bool) (text : List Char)
  | seq (anchor : Option ρ) (tag : Option TagText) (items : List (Node ρ))
  | map (anchor : Option ρ) (tag : Option TagText) (entries : List (Node ρ × Node ρ))
deriving Inhabited

abbrev Handles := List (List Char × TagText)

namespace Handles

def standard : Handles :=
  [(['!'], [some '!']), (['!', '!'], "tag:yaml.org,2002:".toList.map some)]

/-- The tag with this handle and suffix. The empty handle means that the tag is written in full. -/
def expand? (h : Handles) (handle : List Char) (suffix : TagText) : Option TagText :=
  if handle.isEmpty then some suffix else (h.lookup handle).map (· ++ suffix)

end Handles

namespace Node

abbrev Named := Node (List Char)

/-- The node that stands where nothing is written. -/
def empty : Named :=
  .scalar none none true []

/-- A reader of one node: whether block collections are allowed, and whether a sequence at the
indentation of the mapping around it is. -/
abbrev Reader := (block indentless : Bool) → List Token → Option (Named × List Token)

/-- The anchor and the tag before a node, in either order. -/
def properties? (h : Handles) :
    List Token → Option (Option (List Char) × Option TagText × List Token)
  | .anchor a :: .tag handle suffix :: rest =>
    (h.expand? handle suffix).map fun t => (some a, some t, rest)
  | .anchor a :: rest => some (some a, none, rest)
  | .tag handle suffix :: .anchor a :: rest =>
    (h.expand? handle suffix).map fun t => (some a, some t, rest)
  | .tag handle suffix :: rest => (h.expand? handle suffix).map fun t => (none, some t, rest)
  | rest => some (none, none, rest)

/-- The node that follows, or the empty one before a token that `ends` it. -/
def readUnless (node : Reader) (ends : Token → Bool) (block indentless : Bool) (ts : List Token) :
    Option (Named × List Token) :=
  match ts with
  | t :: _ => if ends t then some (empty, ts) else node block indentless ts
  | [] => node block indentless ts

/-- The value after a key: the node after a value mark, or the empty one if there is no mark. -/
def readValue (node : Reader) (ends : Token → Bool) (block indentless : Bool) (ts : List Token) :
    Option (Named × List Token) :=
  match ts with
  | .value :: rest => readUnless node ends block indentless rest
  | _ => some (empty, ts)

def endsItem : Token → Bool
  | .blockEntry | .blockEnd => true
  | _ => false

def endsEntry : Token → Bool
  | .key | .value | .blockEnd => true
  | _ => false

def blockItems (node : Reader) : (fuel : Nat) → List Token → Option (List Named × List Token)
  | fuel + 1, .blockEntry :: rest =>
    match readUnless node endsItem true false rest with
    | none => none
    | some (item, rest) => (blockItems node fuel rest).map fun (items, end_) => (item :: items, end_)
  | _, .blockEnd :: rest => some ([], rest)
  | _, _ => none

/-- The items of a block sequence that is not indented; any other token ends it. -/
def indentlessItems (node : Reader) : (fuel : Nat) → List Token → Option (List Named × List Token)
  | fuel + 1, .blockEntry :: rest =>
    match readUnless node (fun t => endsItem t || endsEntry t) true false rest with
    | none => none
    | some (item, rest) =>
      (indentlessItems node fuel rest).map fun (items, end_) => (item :: items, end_)
  | _, rest => some ([], rest)

def blockEntries (node : Reader) :
    (fuel : Nat) → List Token → Option (List (Named × Named) × List Token)
  | fuel + 1, .key :: rest =>
    match readUnless node endsEntry true true rest with
    | none => none
    | some (key, rest) =>
      match readValue node endsEntry true true rest with
      | none => none
      | some (value, rest) =>
        (blockEntries node fuel rest).map fun (entries, end_) => ((key, value) :: entries, end_)
  | _, .blockEnd :: rest => some ([], rest)
  | _, _ => none

/-- The tokens after the comma that parts the members of a flow collection; before the first member
there is none. -/
def afterComma? (first : Bool) (ts : List Token) : Option (List Token) :=
  if first then some ts
  else match ts with
    | .flowEntry :: rest => some rest
    | _ => none

def endsFlowItem : Token → Bool
  | .flowEntry | .flowSequenceEnd => true
  | _ => false

/-- The key of a pair written as an item of a flow sequence. A mark that stands where the key should
be is passed over with the key. -/
def pairKey (node : Reader) (ts : List Token) : Option (Named × List Token) :=
  match ts with
  | .value :: rest | .flowEntry :: rest | .flowSequenceEnd :: rest => some (empty, rest)
  | _ => node false false ts

/-- The items of a flow sequence up to its end. An item with a key mark is a mapping of one entry. -/
def flowItems (node : Reader) (first : Bool) :
    (fuel : Nat) → List Token → Option (List Named × List Token)
  | _, .flowSequenceEnd :: rest => some ([], rest)
  | 0, _ => none
  | fuel + 1, ts =>
    match afterComma? first ts with
    | none => none
    | some (.flowSequenceEnd :: rest) => some ([], rest)
    | some (.key :: rest) =>
      match pairKey node rest with
      | none => none
      | some (key, rest) =>
        match readValue node endsFlowItem false false rest with
        | none => none
        | some (value, rest) =>
          (flowItems node false fuel rest).map fun (items, end_) =>
            (.map none none [(key, value)] :: items, end_)
    | some ts =>
      match node false false ts with
      | none => none
      | some (item, rest) =>
        (flowItems node false fuel rest).map fun (items, end_) => (item :: items, end_)

def endsFlowValue : Token → Bool
  | .flowEntry | .flowMappingEnd => true
  | _ => false

def endsFlowKey (t : Token) : Bool :=
  t = .value || endsFlowValue t

/-- The entries of a flow mapping up to its end. A member without a key mark is a key. -/
def flowEntries (node : Reader) (first : Bool) :
    (fuel : Nat) → List Token → Option (List (Named × Named) × List Token)
  | _, .flowMappingEnd :: rest => some ([], rest)
  | 0, _ => none
  | fuel + 1, ts =>
    match afterComma? first ts with
    | none => none
    | some (.flowMappingEnd :: rest) => some ([], rest)
    | some (.key :: rest) =>
      match readUnless node endsFlowKey false false rest with
      | none => none
      | some (key, rest) =>
        match readValue node endsFlowValue false false rest with
        | none => none
        | some (value, rest) =>
          (flowEntries node false fuel rest).map fun (entries, end_) =>
            ((key, value) :: entries, end_)
    | some ts =>
      match node false false ts with
      | none => none
      | some (key, rest) =>
        (flowEntries node false fuel rest).map fun (entries, end_) => ((key, empty) :: entries, end_)

/-- Reads one node. Every level of nesting takes a token, so `fuel` need not be more than the number
of tokens. -/
def read (h : Handles) : (fuel : Nat) → Reader
  | 0, _, _, _ => none
  | _ + 1, _, _, .alias name :: rest => some (.alias name, rest)
  | fuel + 1, block, indentless, ts =>
    match properties? h ts with
    | none => none
    | some (anchor, tag, rest) =>
      let leaf := if anchor.isSome || tag.isSome then some (scalar anchor tag true [], rest) else none
      match rest with
      | .scalar plain text :: rest => some (.scalar anchor tag plain text, rest)
      | .blockEntry :: _ =>
        if indentless then
          (indentlessItems (read h fuel) fuel rest).map fun (items, end_) =>
            (.seq anchor tag items, end_)
        else leaf
      | .flowSequenceStart :: rest =>
        (flowItems (read h fuel) true fuel rest).map fun (items, end_) =>
          (.seq anchor tag items, end_)
      | .flowMappingStart :: rest =>
        (flowEntries (read h fuel) true fuel rest).map fun (entries, end_) =>
          (.map anchor tag entries, end_)
      | .blockSequenceStart :: inside =>
        if block then
          (blockItems (read h fuel) fuel inside).map fun (items, end_) =>
            (.seq anchor tag items, end_)
        else leaf
      | .blockMappingStart :: inside =>
        if block then
          (blockEntries (read h fuel) fuel inside).map fun (entries, end_) =>
            (.map anchor tag entries, end_)
        else leaf
      | _ => leaf

/-- The handles that directives define, and the tokens after them. `version` says whether a version
was given; it may be given once and has to be 1.1 or 1.2, and no handle may be defined twice. -/
def directives? (version : Bool) (h : Handles) : List Token → Option (Handles × List Token)
  | .version major minor :: rest =>
    if !version && major = 1 && (minor = 1 || minor = 2) then directives? true h rest else none
  | .tagHandle handle expansion :: rest =>
    if (h.lookup handle).isSome then none else directives? version (h ++ [(handle, expansion)]) rest
  | rest => some (h, rest)

def isLimit : Token → Bool
  | .version _ _ | .tagHandle _ _ | .documentStart | .documentEnd => true
  | _ => false

def document? (ts : List Token) : Option (Option (Named × List Token)) :=
  match ts with
  | [] => some none
  | t :: _ =>
    if t = .documentEnd || !isLimit t then
      (read Handles.standard (ts.length + 1) true false ts).map some
    else
      match directives? false [] ts with
      | some (h, .documentStart :: rest) =>
        match rest with
        | [] => some (some (empty, []))
        | t :: _ =>
          if isLimit t then some (some (empty, rest))
          else (read (h ++ Handles.standard) (rest.length + 1) true false rest).map some
      | _ => none

/-- The node of a text with at most one document. A text without any is the empty node. -/
def ofTokens? (ts : List Token) : Option Named :=
  match document? ts with
  | none => none
  | some none => some empty
  | some (some (node, rest)) =>
    if (rest.dropWhile (· = .documentEnd)).isEmpty then some node else none

end Node

end FrontToc.Yaml
