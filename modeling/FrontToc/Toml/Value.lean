import FrontToc.Number.Binary64

/-!
TOML values, and putting values into tables. A table can be written in several places, but each part
of it only once.
-/
namespace FrontToc.Toml

/-- How a table came about, which decides what may still be added to it: written in braces it is
complete, `implicit` is named only by the header of a table inside it, `dotted` by a key with dots. -/
inductive TableKind where
  | inline
  | explicit
  | implicit
  | dotted
deriving DecidableEq, Repr

/-- A value. An array is one of tables if headers in double brackets make it up. -/
inductive Value where
  | str (s : List Char)
  | int (n : Int)
  | float (x : Binary64)
  | bool (b : Bool)
  | dateTime (text : List Char)
  | array (ofTables : Bool) (items : List Value)
  | table (kind : TableKind) (entries : List (List Char × Value))
deriving Inhabited

structure Table where
  kind : TableKind
  entries : List (List Char × Value)

namespace Table

def empty (kind : TableKind) : Table :=
  ⟨kind, []⟩

def get? (t : Table) (key : List Char) : Option Value :=
  t.entries.lookup key

/-- The table with `value` under `key`, in the place of the entry for it or else at the end. -/
def set (t : Table) (key : List Char) (value : Value) : Table :=
  if (t.get? key).isSome then
    { t with entries := t.entries.map fun entry => if entry.1 = key then (key, value) else entry }
  else { t with entries := t.entries ++ [(key, value)] }

def toValue (t : Table) : Value :=
  .table t.kind t.entries

/-- Changes the table at the end of a path of keys. Tables on the way that do not exist come about.
No table in braces can be entered, no table with a header by a key with dots, and of an array of
tables the last one is. -/
def update (dotted : Bool) (f : Table → Option Table) : List (List Char) → Table → Option Table
  | [], t => f t
  | key :: path, t =>
    match t.get? key with
    | none =>
      (update dotted f path (empty (if dotted then .dotted else .implicit))).map fun inner =>
        t.set key inner.toValue
    | some (.table kind entries) =>
      if kind = .inline || (dotted && kind = .explicit) then none
      else (update dotted f path ⟨kind, entries⟩).map fun inner => t.set key inner.toValue
    | some (.array true items) =>
      match items.getLast? with
      | some (.table kind entries) =>
        (update dotted f path ⟨kind, entries⟩).map fun inner =>
          t.set key (.array true (items.dropLast ++ [inner.toValue]))
      | _ => none
    | some _ => none

/-- Adds an entry whose key may have dots: `path` holds the parts before the last. A key with dots
adds only to tables that such keys made, and no entry is replaced. -/
def insert? (t : Table) (path : List (List Char)) (key : List Char) (value : Value) : Option Table :=
  t.update true (fun inner =>
    if (!path.isEmpty && inner.kind ≠ .dotted) || (path.isEmpty && inner.kind = .dotted)
      || (inner.get? key).isSome then none
    else some (inner.set key value)) path

/-- Begins the table of a header. A table that only headers inside it have named can still be begun. -/
def begin? (t : Table) (path : List (List Char)) (key : List Char) : Option Table :=
  t.update false (fun parent =>
    match parent.get? key with
    | none => some (parent.set key (.table .explicit []))
    | some (.table .implicit entries) => some (parent.set key (.table .explicit entries))
    | some _ => none) path

def beginItem? (t : Table) (path : List (List Char)) (key : List Char) : Option Table :=
  t.update false (fun parent =>
    match parent.get? key with
    | none => some (parent.set key (.array true [.table .explicit []]))
    | some (.array true items) =>
      some (parent.set key (.array true (items ++ [.table .explicit []])))
    | some _ => none) path

def updateBegun (t : Table) (path : List (List Char)) (f : Table → Option Table) : Option Table :=
  t.update false f path

end Table

end FrontToc.Toml
