import FrontToc.CommandLine.Command
import FrontToc.CommandLine.Parameter
import FrontToc.Text.Search

/-!
Reading a command line. A subcommand stands after the options of the one above it and has options of
its own. A value is looked at when the next option or operand comes, or at the end; so of two faults
the one named is the one met first in that order.
-/
namespace FrontToc.CommandLine

open Text

/-- An argument by its looks: two dashes alone, two dashes and a name, with a value if an equals sign
follows, one dash and letters, or anything else. -/
inductive Shape where
  | dashes
  | long (name : List Char) (value : Option (List Char))
  | short (letters : List Char)
  | plain
deriving DecidableEq, Repr

def shape : List Char → Shape
  | ['-', '-'] => .dashes
  | '-' :: '-' :: rest =>
    match splitAtFirst? ['='] rest with
    | some (name, value) => .long name (some value)
    | none => .long rest none
  | '-' :: c :: rest => .short (c :: rest)
  | _ => .plain

/-- What one subcommand has been given so far. In `pending` is the last option with a value, or operand,
that has not been looked at yet. -/
structure Given where
  values : List (Parameter × List Char) := []
  pending : Option (Parameter × Option (List Char)) := none
  hasOperand : Bool := false
  onlyOperands : Bool := false
deriving DecidableEq, Repr

namespace Given

def count (g : Given) (p : Parameter) : Nat :=
  (g.values.filter (·.1 = p)).length

def has (g : Given) (p : Parameter) : Bool :=
  g.values.any (·.1 = p)

def value? (g : Given) (p : Parameter) : Option (List Char) :=
  g.values.lookup p

/-- Adds a parameter with its value. Only the option for more to be told can be repeated. -/
def add (g : Given) (p : Parameter) (value : List Char) : Except UsageFault Given :=
  if p ≠ .verbose && g.has p then .error .repeated
  else
    match p.valueFault? value with
    | some fault => .error fault
    | none => .ok { g with values := g.values ++ [(p, value)] }

def settle (g : Given) : Except UsageFault Given :=
  match g.pending with
  | none => .ok g
  | some (_, none) => .error .missingValue
  | some (p, some value) => { g with pending := none }.add p value

def awaitsValue (g : Given) : Bool :=
  match g.pending with
  | some (_, none) => true
  | _ => false

def flag (g : Given) (p : Parameter) : Except UsageFault Given := do
  let g ← g.settle
  match p with
  | .help => .error .helpAsked
  | .version => .error .versionAsked
  | _ => g.add p []

/-- Takes an option with the value attached to it, or lets it wait for one. -/
def option (g : Given) (p : Parameter) (attached : Option (List Char)) : Except UsageFault Given := do
  let g ← g.settle
  match attached with
  | some value => g.add p value
  | none => return { g with pending := some (p, none) }

def long (g : Given) (c : Subcommand) (name : List Char) (attached : Option (List Char)) :
    Except UsageFault Given :=
  match c.options.find? (·.long? = some name) with
  | none => .error .unknownArgument
  | some p =>
    if p.takesValue then g.option p attached
    else if attached.isSome then .error .needlessValue
    else g.flag p

/-- Takes options by their letters. The rest after the letter of an option with a value is the value;
an equals sign before it does not count. -/
def short (g : Given) (c : Subcommand) : List Char → Except UsageFault Given
  | [] => .ok g
  | letter :: rest =>
    match c.options.find? (·.short? = some letter) with
    | none => .error .unknownArgument
    | some p =>
      if p.takesValue then
        g.option p (match rest with
          | [] => none
          | '=' :: value => some value
          | value => some value)
      else
        match g.flag p with
        | .error fault => .error fault
        | .ok g => short g c rest

/-- Takes an argument that is no option: the value of the option before it, or the operand. -/
def plain (g : Given) (c : Subcommand) (arg : List Char) : Except UsageFault Given :=
  match g.pending, g.onlyOperands with
  | some (p, none), false => .ok { g with pending := some (p, some arg) }
  | _, _ =>
    match c.operand?, g.hasOperand with
    | some (p, _), false => do
      let g ← g.settle
      return { g with pending := some (p, some arg), hasOperand := true }
    | _, _ =>
      if c.children.isEmpty || (g.onlyOperands && (c.child? arg).isSome) then .error .unknownArgument
      else .error .unknownSubcommand

def finish (g : Given) (c : Subcommand) (hasInner : Bool) : Except UsageFault Given := do
  let g ← g.settle
  if !hasInner && !c.children.isEmpty then
    throw (if g.values.isEmpty then .nothingGiven else .missingSubcommand)
  match c.operand? with
  | some (p, true) => if g.has p then return g else throw .missingOperand
  | _ => return g

end Given

def helpFault (c : Subcommand) : List (List Char) → UsageFault
  | [] => .helpAsked
  | name :: rest =>
    match c.child? name with
    | some inner => helpFault inner rest
    | none => .unknownSubcommand

/-- Reads the arguments of a subcommand: what it and the subcommands in it are given. -/
def parseFrom (c : Subcommand) (g : Given) :
    List (List Char) → Except UsageFault (List (Subcommand × Given))
  | [] => do return [(c, ← g.finish c false)]
  | arg :: rest =>
    let inner? := if g.onlyOperands || g.awaitsValue then none else c.child? arg
    match inner? with
    | some .help => .error (helpFault c rest)
    | some inner => do
      let below ← parseFrom inner {} rest
      return (c, ← g.finish c true) :: below
    | none =>
      let looks := if g.onlyOperands then .plain else shape arg
      match looks with
      | .dashes => parseFrom c { g with onlyOperands := true } rest
      | .long name value => do parseFrom c (← g.long c name value) rest
      | .short letters => do parseFrom c (← g.short c letters) rest
      | .plain => do parseFrom c (← g.plain c arg) rest

def Given.flags (g : Given) : TransformFlags where
  tocMarkers := g.has .tocMarkers
  minDepth := (g.value? .minDepth).bind Parameter.readDepth?
  maxDepth := (g.value? .maxDepth).bind Parameter.readDepth?
  dedupeSlugs := g.has .dedupeSlugs

/-- The command of a subcommand. The list of files is taken from the variable where no option gives
it. -/
def Given.command? (g : Given) (listed : Option (List Char)) : Subcommand → Option Command
  | .walk => some (.walk (g.value? .root) (g.value? .extension) g.flags (g.has .dryRun))
  | .postRender => some (.postRender ((g.value? .outputFiles).or listed) g.flags (g.has .dryRun))
  | .print => (g.value? .document).map fun file => .print file g.flags
  | .configPath => some (.config .path)
  | .configShow => some (.config .show)
  | .configInit => some (.config (.init (g.value? .file) (g.has .force)))
  | _ => none

def maxCount : Nat := 255

/-- Reads a command line; `listed` is the value of the variable for the list of files. Of options
that every subcommand has, the innermost that is given counts. -/
def parse (listed : Option (List Char)) (args : List (List Char)) : Except UsageFault Invocation :=
  match parseFrom .top {} args with
  | .error fault => .error fault
  | .ok levels =>
    let outward := levels.reverse
    match outward.findSome? fun (c, g) => g.command? listed c with
    | none => .error .missingSubcommand
    | some command =>
      .ok
        { config := outward.findSome? fun (_, g) => g.value? .config
          verbosity := (outward.findSome? fun (_, g) =>
            if g.has .verbose then some (min maxCount (g.count .verbose)) else none).getD 0
          command }

end FrontToc.CommandLine
