import FrontToc.Error
import FrontToc.Toml.Read
import FrontToc.Toml.Write

/-!
The configuration: which headings are listed, and which files a walk processes. It is kept as TOML;
what a file leaves out has its default.
-/
namespace FrontToc

open Text

/-- A configuration: the directory to walk, the extension of the files to process, and options for their
headings. Dots in front of the extension do not count. -/
structure Config where
  headings : HeadingOptions := {}
  root : List Char := "content/posts".toList
  extension : List Char := "md".toList
deriving DecidableEq, Repr

namespace Config

def bareExtension (extension : List Char) : List Char :=
  extension.dropWhile (· = '.')

def fault? (c : Config) : Option ConfigFault :=
  match c.headings.fault? with
  | some fault => some (.headings fault)
  | none => if (bareExtension c.extension).isEmpty then some .emptyExtension else none

def validate (c : Config) : Except Error Unit :=
  match c.fault? with
  | some fault => .error (.config fault)
  | none => .ok ()

def depth? : Toml.Value → Option UInt8
  | .int n => if 0 ≤ n ∧ n < 256 then some n.toNat.toUInt8 else none
  | _ => none

def text? : Toml.Value → Option (List Char)
  | .str s => some s
  | _ => none

def isEmptyCollection : Toml.Value → Bool
  | .array _ items => items.isEmpty
  | .table _ entries => entries.isEmpty
  | _ => false

def duplicatesNamed? (name : List Char) : Option DuplicateSlugs :=
  if name = "keep".toList then some .keep
  else if name = "suffix".toList then some .suffix
  else none

/-- The treatment of duplicates, given by its name or by a table that has its name as its only key and
nothing under it. -/
def duplicates? : Toml.Value → Option DuplicateSlugs
  | .str name => duplicatesNamed? name
  | .table _ [(name, value)] => if isEmptyCollection value then duplicatesNamed? name else none
  | _ => none

/-- The value that `read` makes of a field, or the default of a field that is not there. -/
def fieldD {α : Type} (read : Toml.Value → Option α) (default : α) : Option Toml.Value → Option α
  | some value => read value
  | none => some default

/-- A record read from a table, by the names of its fields, or from an array, by their places. A date or
time is taken for a table without any of them. -/
def fields? (names : List (List Char)) : Toml.Value → Option (List (Option Toml.Value))
  | .table _ entries => some (names.map fun name => entries.lookup name)
  | .array _ items => some ((List.range names.length).map fun i => items[i]?)
  | .dateTime _ => some (names.map fun _ => none)
  | _ => none

def headings? (value : Toml.Value) : Option HeadingOptions := do
  let default : HeadingOptions := {}
  let [lo, hi, dup] ←
    fields? ["min_depth".toList, "max_depth".toList, "duplicate_slugs".toList] value | none
  let minDepth ← fieldD depth? default.minDepth lo
  let maxDepth ← fieldD depth? default.maxDepth hi
  let duplicateSlugs ← fieldD duplicates? default.duplicateSlugs dup
  return { minDepth, maxDepth, duplicateSlugs }

def walk? (value : Toml.Value) : Option (List Char × List Char) := do
  let default : Config := {}
  let [root, extension] ← fields? ["root".toList, "extension".toList] value | none
  return (← fieldD text? default.root root, ← fieldD text? default.extension extension)

/-- The configuration that a table gives. Other entries do not count. -/
def ofTable? (t : Toml.Table) : Option Config := do
  let default : Config := {}
  let headings ← fieldD headings? default.headings (t.get? "headings".toList)
  let (root, extension) ←
    fieldD walk? (default.root, default.extension) (t.get? "walk".toList)
  return { headings, root, extension }

def ofToml (text : List Char) : Except ConfigFault Config :=
  match (Toml.read? text).bind ofTable? with
  | none => .error .invalidToml
  | some config =>
    match config.fault? with
    | some fault => .error fault
    | none => .ok config

def duplicatesName : DuplicateSlugs → List Char
  | .keep => "keep".toList
  | .suffix => "suffix".toList

def line (key : String) (value : List Char) : List Char :=
  key.toList ++ " = ".toList ++ value ++ ['\n']

/-- A configuration as TOML, all fields in two tables. -/
def toToml (c : Config) : List Char :=
  "[headings]\n".toList
    ++ line "min_depth" (decimal c.headings.minDepth.toNat)
    ++ line "max_depth" (decimal c.headings.maxDepth.toNat)
    ++ line "duplicate_slugs" (Toml.stringText (duplicatesName c.headings.duplicateSlugs))
    ++ "\n[walk]\n".toList
    ++ line "root" (Toml.stringText c.root)
    ++ line "extension" (Toml.stringText c.extension)

end Config

end FrontToc
