import FrontToc.Document
import FrontToc.Error
import FrontToc.Heading
import FrontToc.Shield
import FrontToc.TocMarkers

/-!
Putting a table of contents into a document: the headings come from the body, or from a comment that
holds them. What a run chooses comes before what the configuration says.
-/
namespace FrontToc

inductive SkipReason where
  | missingFrontMatter
  | missingTocMarkers
deriving DecidableEq, Repr

def SkipReason.message : SkipReason → String
  | .missingFrontMatter => "no front matter"
  | .missingTocMarkers => "no TOC markers"

inductive Transform where
  | rewritten (text : List Char)
  | unchanged (reason : SkipReason)
deriving DecidableEq, Repr

def Transform.text (old : List Char) : Transform → List Char
  | .rewritten text => text
  | .unchanged _ => old

/-- The headings of a body: those outside its code blocks. -/
def bodyHeadings (ids : IdSupply) (options : HeadingOptions) (body : List Char) : List Heading :=
  extractHeadings (shield ids body).text options

/-- Puts the headings of the body into the front matter. -/
def injectHeadings (ids : IdSupply) (options : HeadingOptions) (content : List Char) :
    Except Error Transform :=
  match extractFrontMatter content with
  | .error e => .error e
  | .ok none => .ok (.unchanged .missingFrontMatter)
  | .ok (some front) =>
    let shielded := shield ids front.body
    let headings := extractHeadings shielded.text options
    (renderDocument front.mapping headings (shielded.restore shielded.text)).map .rewritten

/-- Puts the headings listed in the first comment of the body into the front matter. The body starts
after that comment. -/
def injectTocMarkers (content : List Char) : Except Error Transform :=
  match extractFrontMatter content with
  | .error e => .error e
  | .ok none => .ok (.unchanged .missingFrontMatter)
  | .ok (some front) =>
    match TocMarkers.parse? front.body with
    | none => .ok (.unchanged .missingTocMarkers)
    | some toc => (renderDocument front.mapping toc.headings toc.rest).map .rewritten

inductive Mode where
  | headings (options : HeadingOptions)
  | tocMarkers
deriving DecidableEq, Repr

def Mode.transform (mode : Mode) (ids : IdSupply) (content : List Char) : Except Error Transform :=
  match mode with
  | .headings options => injectHeadings ids options content
  | .tocMarkers => injectTocMarkers content

structure TransformFlags where
  tocMarkers : Bool := false
  minDepth : Option UInt8 := none
  maxDepth : Option UInt8 := none
  dedupeSlugs : Bool := false
deriving DecidableEq, Repr

namespace TransformFlags

/-- The options for headings of a run: each flag that is given takes the place of what is configured. -/
def options (flags : TransformFlags) (configured : HeadingOptions) : HeadingOptions where
  minDepth := flags.minDepth.getD configured.minDepth
  maxDepth := flags.maxDepth.getD configured.maxDepth
  duplicateSlugs := if flags.dedupeSlugs then .suffix else configured.duplicateSlugs

/-- The mode of a run. Depths are checked only where headings are taken from the body. -/
def mode (flags : TransformFlags) (configured : HeadingOptions) : Except Error Mode :=
  if flags.tocMarkers then .ok .tocMarkers
  else
    match (flags.options configured).fault? with
    | some fault => .error (.config (.headings fault))
    | none => .ok (.headings (flags.options configured))

end TransformFlags

end FrontToc
