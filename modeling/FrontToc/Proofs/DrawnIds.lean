import FrontToc.Event
import FrontToc.Proofs.FencedBlocks
import FrontToc.Proofs.RewrittenBody

/-!
# Ids leave no trace

Ids are drawn for the placeholders of code blocks, and no placeholder is left in the end. So whichever
distinct ids are drawn for a document, it becomes the same and the same is told of it.
-/
namespace FrontToc

open Text

/-- The ids that are drawn for the body of a document have 32 hexadecimal digits and differ from each
other. -/
structure IdSupply.Suits (ids : IdSupply) (content : List Char) : Prop where
  hexadecimal : ids.Hexadecimal
  distinct : ∀ split, splitFrontMatter? content = some split → ids.DistinctFor split.body

variable {ids ids' : IdSupply} {content : List Char}

theorem IdSupply.Hexadecimal.suits (hexadecimal : ids.Hexadecimal) {body : List Char}
    (cut : (splitFrontMatter? content).map FrontMatterSplit.body = some body)
    (distinct : ids.DistinctFor body) : ids.Suits content where
  hexadecimal := hexadecimal
  distinct split found := by
    rw [found] at cut
    rw [Option.some.inj cut]
    exact distinct

/-- What a document becomes with the headings of its lines outside of code. No ids take part. -/
theorem IdSupply.Suits.injectHeadings_eq (suits : ids.Suits content) (options : HeadingOptions) :
    injectHeadings ids options content =
      match extractFrontMatter content with
      | .error e => .error e
      | .ok none => .ok (.unchanged .missingFrontMatter)
      | .ok (some front) =>
        (renderDocument front.mapping (extractHeadings (outsideText front.body) options)
          front.body).map .rewritten := by
  rw [injectHeadings]
  cases extracted : extractFrontMatter content with
  | error e => rfl
  | ok front? =>
    cases front? with
    | none => rfl
    | some front =>
      obtain ⟨split, cut, -, body⟩ := extractFrontMatter_eq_some extracted
      have headings := bodyHeadings_eq suits.hexadecimal.inOneLine options front.body
      have restored := restore_shield suits.hexadecimal front.body (body ▸ suits.distinct split cut)
      rw [bodyHeadings] at headings
      dsimp only
      rw [headings, restored]

theorem transform_eq_of_suits (suits : ids.Suits content) (suits' : ids'.Suits content) (mode : Mode) :
    mode.transform ids content = mode.transform ids' content := by
  cases mode with
  | tocMarkers => rfl
  | headings options =>
    rw [Mode.transform, Mode.transform, suits.injectHeadings_eq, suits'.injectHeadings_eq]

theorem length_blocks_shield (ids : IdSupply) (text : List Char) :
    (shield ids text).blocks.length = ((pieces text).filterMap Piece.block?).length := by
  rw [← drawnBlocks_eq ids text 0, List.length_map]
  rfl

theorem events_eq_of_suits (suits : ids.Suits content) (suits' : ids'.Suits content) (mode : Mode) :
    mode.events ids content = mode.events ids' content := by
  cases mode with
  | tocMarkers => rfl
  | headings options =>
    have headings (body : List Char) :
        extractHeadings (shield ids body).text options = extractHeadings (shield ids' body).text options :=
      (bodyHeadings_eq suits.hexadecimal.inOneLine options body).trans
        (bodyHeadings_eq suits'.hexadecimal.inOneLine options body).symm
    rw [Mode.events, Mode.events]
    dsimp only
    simp only [headings, length_blocks_shield]

end FrontToc
