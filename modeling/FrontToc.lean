import FrontToc.Host.Machine
import FrontToc.Main
import FrontToc.Proofs.Reinjection
import FrontToc.Proofs.Anchors
import FrontToc.Proofs.FencedBlocks
import FrontToc.Proofs.FilledTemplates
import FrontToc.Proofs.PlaceholderSearch
import FrontToc.Proofs.Paths
import FrontToc.Proofs.Locations
import FrontToc.Proofs.MachineRuns
import FrontToc.Proofs.ReplacedFile
import FrontToc.Proofs.BatchRun
import FrontToc.Proofs.TemporaryFiles
import FrontToc.Proofs.PrintedText
import FrontToc.Proofs.DryRun
import FrontToc.Proofs.LineEndings
import FrontToc.Proofs.HeadingsReadBack
import FrontToc.Proofs.CommandEffects
import FrontToc.Proofs.FrontMatterBounds
import FrontToc.Proofs.AtomicReplacement
import FrontToc.Proofs.RepeatedMarkers
import FrontToc.Proofs.MatchingFiles
import FrontToc.Proofs.StrippedBodies
import FrontToc.Proofs.CollapsedLines
import FrontToc.Proofs.SlugShape
import FrontToc.Proofs.WrittenConfig
