import Overlay.Main
import Overlay.Files.FileSystem
import Overlay.Source.Scanner
import Overlay.Tree.Reader
import Overlay.Proofs.Build.Moves
import Overlay.Proofs.Build.WellBound
import Overlay.Proofs.Layout.Stages
import Overlay.Proofs.Layout.Sizes
import Overlay.Proofs.Layout.Placements
import Overlay.Proofs.Layout.Recorded
import Overlay.Proofs.Layout.Fields
import Overlay.Proofs.Layout.Tables
import Overlay.Proofs.Source.Shapes
import Overlay.Proofs.Tree.WellFormed
import Overlay.Proofs.Build.Through
import Overlay.Proofs.Build.Translation
import Overlay.Proofs.Build.Sites
import Overlay.Proofs.Build.Faithful
import Overlay.Proofs.Build.Warnings
import Overlay.Proofs.Layout.Faults
import Overlay.Proofs.Header.Renders
import Overlay.Proofs.Compile.Outcome
import Overlay.Proofs.Source.Lexemes
import Overlay.Proofs.Source.Lossless
import Overlay.Proofs.Tree.Derivation
import Overlay.Proofs.Tree.Sound
import Overlay.Proofs.Tree.Complete
import Overlay.Proofs.Build.Names
import Overlay.Proofs.Header.Assertions
import Overlay.Proofs.Layout.TablePointers
import Overlay.Proofs.Source.Determined
import Overlay.Proofs.Source.Spacing
import Overlay.Proofs.Tree.Renumbered
import Overlay.Proofs.Program.Renumbered
import Overlay.Proofs.Build.Renumbered
import Overlay.Proofs.Layout.Renumbered
import Overlay.Proofs.Header.Renumbered
import Overlay.Proofs.Compile.Formatting
import Overlay.Proofs.Build.References
import Overlay.Proofs.Layout.Lookups
import Overlay.Proofs.Layout.Order
import Overlay.Proofs.Layout.LastFields
import Overlay.Proofs.Compile.StepByStep
import Overlay.Build.Bench
import Overlay.Proofs.Build.Bench
import Overlay.Proofs.Build.Lenient
import Overlay.Proofs.Build.Faults
import Overlay.Proofs.Compile.Streams
import Overlay.Proofs.Layout.Interleaving
import Overlay.Proofs.Layout.Pads
import Overlay.Proofs.Compile.Writes
import Overlay.Proofs.Source.RawContents
import Overlay.Proofs.Tree.RawBlocks
import Overlay.Proofs.Header.Blocks
import Overlay.Proofs.Compile.RawBlocks
import Overlay.Proofs.Layout.DeclaredSlots
import Overlay.Proofs.Layout.Repeated
import Overlay.Proofs.Layout.Fitting
import Overlay.Proofs.Layout.RememberedSizes
import Overlay.Header.Pen
import Overlay.Proofs.Text.Spellings
import Overlay.Proofs.Layout.RecalledSizes
import Overlay.Proofs.Header.Pen
import Overlay.Proofs.Header.Regions
import Overlay.Proofs.Compile.Regions
import Overlay.Proofs.Text.Hexadecimal
import Overlay.Proofs.Layout.PadNames
import Overlay.Proofs.Build.Spelled
import Overlay.Proofs.Header.Trampolines
import Overlay.Tree.Walk
import Overlay.Proofs.Tree.Walks
import Overlay.Proofs.Build.WaitingTypes
import Overlay.Reuse
import Overlay.Build.Builder
import Overlay.Layout.Resolver
import Overlay.Header.Emitter
import Overlay.Proofs.Compile.Reuse
import Overlay.Proofs.Text.WrittenAddress
import Overlay.Proofs.Tree.Addresses
import Overlay.Proofs.Compile.Addresses
import Overlay.Source.Cursor
import Overlay.Proofs.Source.Cursors
import Overlay.Proofs.Source.Calls
