/-!
Looking for one text inside another.
-/
namespace FrontToc.Text

/-- The rest of `s` after `needle`, if `s` starts with it. -/
def stripStart? : (needle s : List Char) → Option (List Char)
  | [], s => some s
  | _ :: _, [] => none
  | n :: ns, c :: cs => if n = c then stripStart? ns cs else none

def splitAtFirst? (needle : List Char) : List Char → Option (List Char × List Char)
  | [] => if needle.isEmpty then some ([], []) else none
  | c :: cs =>
    match stripStart? needle (c :: cs) with
    | some rest => some ([], rest)
    | none => (splitAtFirst? needle cs).map fun (before, after) => (c :: before, after)

def occursIn (needle s : List Char) : Bool :=
  (splitAtFirst? needle s).isSome

/-- `s` with every occurrence of `needle`, found from left to right, replaced; the first argument
bounds the number of occurrences. -/
def replaceUpTo : Nat → (needle replacement s : List Char) → List Char
  | 0, _, _, s => s
  | n + 1, needle, replacement, s =>
    match splitAtFirst? needle s with
    | none => s
    | some (before, after) => before ++ replacement ++ replaceUpTo n needle replacement after

/-- `s` with every occurrence of a non-empty `needle` replaced, from left to right. Text put in is
not searched again. -/
def replaceAll (needle replacement s : List Char) : List Char :=
  replaceUpTo s.length needle replacement s

def splitOnChar (c : Char) : List Char → List (List Char)
  | [] => [[]]
  | d :: ds =>
    if d = c then [] :: splitOnChar c ds
    else match splitOnChar c ds with
      | [] => [[d]]
      | p :: ps => (d :: p) :: ps

end FrontToc.Text
