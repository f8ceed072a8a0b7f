import FrontToc.Text.Digits
import FrontToc.Yaml.Token.Flowing

/-!
Names and tags before a node, and directives before a document.
-/
namespace FrontToc.Yaml.Token

open Text

structure Marked where
  token : Token
  cursor : Cursor
deriving DecidableEq, Repr

/-- Whether a name may end here: before a gap or a mark that cannot belong to it. -/
def nameEnds (rest : List Char) : Bool :=
  atGap rest || rest.head?.any (· ∈ ['?', ':', ',', ']', '\x7d', '%', '@', '\x60'])

def readName (c : Cursor) : Option (List Char × Cursor) :=
  let name := (c.rest.drop 1).takeWhile isNameChar
  let end_ := c.skip (1 + name.length)
  if name.isEmpty || !nameEnds end_.rest then none else some (name, end_)

/-- Characters of a tag that stand for themselves. The flow marks do only between angle brackets and
in directives. -/
def isTagChar (bracketed : Bool) (c : Char) : Bool :=
  isNameChar c || c ∈ ";/?:@&=+$.!~*'()".toList || (bracketed && c ∈ [',', '[', ']'])

/-- A character whose bytes are given one by one: how many are to come, how many it has in all, and
the bits so far. -/
structure Octets where
  left : Nat
  width : Nat
  bits : Nat
deriving DecidableEq, Repr

def Octets.ofFirst? (octet : Nat) : Option Octets :=
  if octet < 0x80 then some ⟨0, 1, octet⟩
  else if 0xC0 ≤ octet ∧ octet < 0xE0 then some ⟨1, 2, octet % 0x20⟩
  else if 0xE0 ≤ octet ∧ octet < 0xF0 then some ⟨2, 3, octet % 0x10⟩
  else if 0xF0 ≤ octet ∧ octet < 0xF8 then some ⟨3, 4, octet % 0x08⟩
  else none

def Octets.next? (o : Octets) (octet : Nat) : Option Octets :=
  if 0x80 ≤ octet ∧ octet < 0xC0 then some ⟨o.left - 1, o.width, o.bits * 0x40 + octet % 0x40⟩
  else none

/-- The character of a complete state, if the bytes are the shortest that encode it. -/
def Octets.char? (o : Octets) : Option Char :=
  let least := match o.width with
    | 1 => 0
    | 2 => 0x80
    | 3 => 0x800
    | _ => 0x10000
  if least ≤ o.bits then charOf? o.bits else none

def octet? (a b : Char) : Option Nat :=
  match hexValue? a, hexValue? b with
  | some x, some y => some (x * 16 + y)
  | _, _ => none

/-- The longest text of tag characters, and what follows it. `open?` is a character that is not
complete; in it only further bytes may follow. -/
def tagTextFrom (bracketed : Bool) (open? : Option Octets) :
    List Char → Option (TagText × List Char)
  | [] => if open?.isSome then none else some ([], [])
  | c :: rest =>
    if c = '%' then
      match rest with
      | a :: b :: more =>
        match octet? a b with
        | none => none
        | some octet =>
          let state? := match open? with
            | some o => o.next? octet
            | none => Octets.ofFirst? octet
          match state? with
          | none => none
          | some o =>
            if o.left = 0 then
              (tagTextFrom bracketed none more).map fun (text, end_) => (o.char? :: text, end_)
            else tagTextFrom bracketed (some o) more
      | _ => none
    else if open?.isSome then none
    else if isTagChar bracketed c then
      (tagTextFrom bracketed none rest).map fun (text, end_) => (some c :: text, end_)
    else some ([], c :: rest)

/-- The text up to a null character, where a tag ends for its readers. -/
def upToNull (t : TagText) : TagText :=
  t.takeWhile (· ≠ some '\x00')

def readTagText (bracketed : Bool) (rest : List Char) : Option (TagText × List Char) :=
  match tagTextFrom bracketed none rest with
  | some ([], _) => none
  | some (text, end_) => some (upToNull text, end_)
  | none => none

/-- Handle, suffix and what follows, for the text after the first exclamation mark of a tag. A tag is
written in full between angle brackets, after a named handle, or after the lone mark; the lone mark
without suffix is a tag of its own. -/
def tagParts? (s : List Char) : Option (List Char × TagText × List Char) :=
  match s with
  | '<' :: rest =>
    match readTagText true rest with
    | some (text, '>' :: end_) => some ([], text, end_)
    | _ => none
  | _ =>
    let name := s.takeWhile isNameChar
    match s.drop name.length with
    | '!' :: rest =>
      (readTagText false rest).map fun (text, end_) => ('!' :: name ++ ['!'], text, end_)
    | rest =>
      match tagTextFrom false none rest with
      | none => none
      | some (text, end_) =>
        let suffix := upToNull (name.map some ++ text)
        some (if suffix.isEmpty then ([], [some '!'], end_) else (['!'], suffix, end_))

/-- The tag at the cursor. A gap has to follow it, or a comma within flow collections. -/
def readTag (flow : Bool) (c : Cursor) : Option Marked :=
  match tagParts? (c.rest.drop 1) with
  | none => none
  | some (handle, suffix, rest) =>
    if atGap rest || (flow && rest.head? = some ',') then some ⟨.tag handle suffix, c.moveTo rest⟩
    else none

def readVersionNumber (rest : List Char) : Option (Nat × List Char) :=
  let digits := rest.takeWhile Char.isDigit
  if digits.length ≤ 9 then
    (readDigits? 10 digits).map fun n => (n, rest.drop digits.length)
  else none

def readVersion (rest : List Char) : Option (Token × List Char) :=
  match readVersionNumber (rest.dropWhile isSpace) with
  | some (major, '.' :: more) => (readVersionNumber more).map fun (minor, end_) =>
      (.version major minor, end_)
  | _ => none

def readTagHandle (rest : List Char) : Option (Token × List Char) :=
  match rest.dropWhile isSpace with
  | '!' :: s =>
    let name := s.takeWhile isNameChar
    let handle? := match s.drop name.length with
      | '!' :: after => some ('!' :: name ++ ['!'], after)
      | after => if name.isEmpty then some (['!'], after) else none
    match handle? with
    | some (handle, after) =>
      if after.head?.any isSpace then
        match readTagText true (after.dropWhile isSpace) with
        | some (expansion, end_) =>
          if atGap end_ then some (.tagHandle handle expansion, end_) else none
        | none => none
      else none
    | none => none
  | _ => none

/-- The directive whose percent sign is at the cursor. Nothing but a comment may follow it in its
line. -/
def readDirective (c : Cursor) : Option Marked :=
  let afterMark := c.rest.drop 1
  let name := afterMark.takeWhile isNameChar
  let rest := afterMark.drop name.length
  let token? :=
    if name = "YAML".toList ∧ atGap rest then readVersion rest
    else if name = "TAG".toList ∧ atGap rest then readTagHandle rest
    else none
  match token? with
  | none => none
  | some (token, rest) =>
    let end_ := (c.moveTo rest).skipLineTail
    if end_.atLineEnd then some ⟨token, end_.skipBreak⟩ else none

end FrontToc.Yaml.Token
