import FrontToc.Toml.Scalar

/-!
Reading a TOML document: lines with entries and headers, put together to one table.
-/
namespace FrontToc.Toml

def skipSpaces (s : List Char) : List Char :=
  s.dropWhile isSpace

/-- The rest after a comment, if one begins here; what is not allowed in a comment ends it. -/
def skipComment (s : List Char) : List Char :=
  match s with
  | '#' :: rest => rest.dropWhile isTextChar
  | _ => s

def skipFiller : (fuel : Nat) → List Char → List Char
  | 0, s => s
  | fuel + 1, s =>
    match skipComment (skipSpaces s) with
    | '\n' :: rest => skipFiller fuel rest
    | '\r' :: '\n' :: rest => skipFiller fuel rest
    | rest => rest

def isBareKeyChar (c : Char) : Bool :=
  c.isAlphanum || c = '_' || c = '-'

def keyPart? (s : List Char) : Option (List Char × List Char) :=
  match s with
  | '"' :: rest => basicFrom .outside [] rest
  | '\'' :: rest => literalFrom [] rest
  | _ =>
    let key := s.takeWhile isBareKeyChar
    if key.isEmpty then none else some (key, s.drop key.length)

/-- A key with dots: the parts before the last, the last, and what follows. -/
def key? : (fuel : Nat) → List Char → Option (List (List Char) × List Char × List Char)
  | 0, _ => none
  | fuel + 1, s =>
    match keyPart? (skipSpaces s) with
    | none => none
    | some (part, rest) =>
      match skipSpaces rest with
      | '.' :: rest => (key? fuel rest).map fun (path, last, end_) => (part :: path, last, end_)
      | rest => some ([], part, rest)

abbrev ValueReader := List Char → Option (Value × List Char)

def entry? (value : ValueReader) (t : Table) (s : List Char) : Option (Table × List Char) :=
  match key? (s.length + 1) s with
  | some (path, key, '=' :: rest) =>
    match value (skipSpaces rest) with
    | some (v, rest) => (t.insert? path key v).map fun t => (t, rest)
    | none => none
  | _ => none

/-- The items of an array, after its bracket. A comma may follow the last. -/
def arrayItems? (value : ValueReader) : (fuel : Nat) → List Char → Option (List Value × List Char)
  | 0, _ => none
  | fuel + 1, s =>
    match skipFiller (s.length + 1) s with
    | ']' :: rest => some ([], rest)
    | s =>
      match value s with
      | none => none
      | some (v, rest) =>
        match skipFiller (rest.length + 1) rest with
        | ',' :: rest => (arrayItems? value fuel rest).map fun (vs, end_) => (v :: vs, end_)
        | ']' :: rest => some ([v], rest)
        | _ => none

/-- The entries of a table in braces, after the first brace. A comma may follow the last. -/
def inlineEntries? (value : ValueReader) : (fuel : Nat) → Table → List Char →
    Option (Table × List Char)
  | 0, _, _ => none
  | fuel + 1, t, s =>
    match skipFiller (s.length + 1) s with
    | '\x7d' :: rest => some (t, rest)
    | s =>
      match entry? value t s with
      | none => none
      | some (t, rest) =>
        match skipFiller (rest.length + 1) rest with
        | ',' :: rest => inlineEntries? value fuel t rest
        | '\x7d' :: rest => some (t, rest)
        | _ => none

/-- A value whose arrays and tables are nested at most `depth` deep. -/
def value? : (depth : Nat) → ValueReader
  | depth, s =>
    match s with
    | '"' :: _ => (string? s).map fun (text, rest) => (.str text, rest)
    | '\'' :: _ => (string? s).map fun (text, rest) => (.str text, rest)
    | '[' :: rest =>
      match depth with
      | 0 => none
      | depth + 1 =>
        (arrayItems? (value? depth) (rest.length + 1) rest).map fun (items, end_) =>
          (.array false items, end_)
    | '\x7b' :: rest =>
      match depth with
      | 0 => none
      | depth + 1 =>
        (inlineEntries? (value? depth) (rest.length + 1) (Table.empty .inline) rest).map
          fun (t, end_) => (t.toValue, end_)
    | _ =>
      let (text, rest) := splitBare s
      (bareValue? text).map fun v => (v, rest)

def deepestNesting : Nat := 80

/-- The rest of the document after a line is complete: spaces and a comment may follow, and then the
line or the text has to end. -/
def endLine? (s : List Char) : Option (List Char) :=
  match skipComment (skipSpaces s) with
  | [] => some []
  | '\n' :: rest => some rest
  | '\r' :: '\n' :: rest => some rest
  | _ => none

/-- Reads lines into `root`; `header` is the path of the table that entries go into. -/
def lines? : (fuel : Nat) → (header : List (List Char)) → (root : Table) → List Char → Option Table
  | 0, _, _, _ => none
  | fuel + 1, header, root, s =>
    match skipSpaces s with
    | [] => some root
    | '[' :: '[' :: rest =>
      match key? (rest.length + 1) rest with
      | some (path, key, ']' :: ']' :: rest) =>
        match root.beginItem? path key, endLine? rest with
        | some root, some rest => lines? fuel (path ++ [key]) root rest
        | _, _ => none
      | _ => none
    | '[' :: rest =>
      match key? (rest.length + 1) rest with
      | some (path, key, ']' :: rest) =>
        match root.begin? path key, endLine? rest with
        | some root, some rest => lines? fuel (path ++ [key]) root rest
        | _, _ => none
      | _ => none
    | s =>
      match endLine? s with
      | some rest => lines? fuel header root rest
      | none =>
        match key? (s.length + 1) s with
        | some (path, key, '=' :: rest) =>
          match value? deepestNesting (skipSpaces rest) with
          | none => none
          | some (v, rest) =>
            match root.updateBegun header (fun t => t.insert? path key v), endLine? rest with
            | some root, some rest => lines? fuel header root rest
            | _, _ => none
        | _ => none

/-- The table of a TOML document. A byte order mark at its start does not count. -/
def read? (text : List Char) : Option Table :=
  let body := match text with
    | '\ufeff' :: rest => rest
    | _ => text
  lines? (body.length + 1) [] (Table.empty .explicit) body

end FrontToc.Toml
