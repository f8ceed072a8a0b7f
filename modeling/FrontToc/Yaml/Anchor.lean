import FrontToc.Yaml.Node

/-!
Anchors and aliases. An anchor is numbered by how many names are in use before it, so a name that is
given a second time takes a number that the next new name takes again; an alias stands for the last
node of its number.
-/
namespace FrontToc.Yaml.Node

/-- The numbers of the names used so far. -/
abbrev Names := List (List Char × Nat)

def Names.define (names : Names) (name : List Char) : Nat × Names :=
  (names.length, (name, names.length) :: names.filter (·.1 ≠ name))

def numberAnchor (names : Names) : Option (List Char) → Option Nat × Names
  | none => (none, names)
  | some name =>
    let (n, names) := names.define name
    (some n, names)

mutual

/-- The node with numbers for names. An alias needs an anchor before it. -/
def number? (names : Names) : Named → Option (Node Nat × Names)
  | .alias name => (names.lookup name).map fun n => (.alias n, names)
  | .scalar anchor tag plain text =>
    let (n, names) := numberAnchor names anchor
    some (.scalar n tag plain text, names)
  | .seq anchor tag items =>
    let (n, names) := numberAnchor names anchor
    (numberItems? names items).map fun (items, names) => (.seq n tag items, names)
  | .map anchor tag entries =>
    let (n, names) := numberAnchor names anchor
    (numberEntries? names entries).map fun (entries, names) => (.map n tag entries, names)

def numberItems? (names : Names) : List Named → Option (List (Node Nat) × Names)
  | [] => some ([], names)
  | item :: rest =>
    match number? names item with
    | none => none
    | some (item, names) => (numberItems? names rest).map fun (rest, names) => (item :: rest, names)

def numberEntries? (names : Names) :
    List (Named × Named) → Option (List (Node Nat × Node Nat) × Names)
  | [] => some ([], names)
  | (key, value) :: rest =>
    match number? names key with
    | none => none
    | some (key, names) =>
      match number? names value with
      | none => none
      | some (value, names) =>
        (numberEntries? names rest).map fun (rest, names) => ((key, value) :: rest, names)

end

def self (anchor : Option Nat) (node : Node Nat) : List (Nat × Node Nat) :=
  anchor.toList.map fun n => (n, node)

mutual

/-- The nodes with an anchor, in the order in which they begin. -/
def targets : Node Nat → List (Nat × Node Nat)
  | .alias _ => []
  | .scalar anchor tag plain text => self anchor (.scalar anchor tag plain text)
  | .seq anchor tag items => self anchor (.seq anchor tag items) ++ targetsOfItems items
  | .map anchor tag entries => self anchor (.map anchor tag entries) ++ targetsOfEntries entries

def targetsOfItems : List (Node Nat) → List (Nat × Node Nat)
  | [] => []
  | item :: rest => targets item ++ targetsOfItems rest

def targetsOfEntries : List (Node Nat × Node Nat) → List (Nat × Node Nat)
  | [] => []
  | (key, value) :: rest => targets key ++ targets value ++ targetsOfEntries rest

end

mutual

/-- The number of marks that a node is told by: one for a scalar or alias, and one for the start and
the end of each collection. -/
def eventCount : Node Nat → Nat
  | .alias _ => 1
  | .scalar _ _ _ _ => 1
  | .seq _ _ items => 2 + eventCountOfItems items
  | .map _ _ entries => 2 + eventCountOfEntries entries

def eventCountOfItems : List (Node Nat) → Nat
  | [] => 0
  | item :: rest => eventCount item + eventCountOfItems rest

def eventCountOfEntries : List (Node Nat × Node Nat) → Nat
  | [] => 0
  | (key, value) :: rest => eventCount key + eventCount value + eventCountOfEntries rest

end

end FrontToc.Yaml.Node
