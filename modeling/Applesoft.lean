import Applesoft.HexDump
import Applesoft.IntegerText
import Applesoft.Listing
import Applesoft.MemoryImage
import Applesoft.Outline
import Applesoft.Renumbering
import Applesoft.Settings
import Applesoft.TokenStream
import Applesoft.Traversal
import Applesoft.Session
import Applesoft.CommandLine.Run
import Applesoft.Main
import Applesoft.Proofs.FirstFault
import Applesoft.Proofs.ListedImage
import Applesoft.Proofs.ListedOutline
import Applesoft.Proofs.RenumberedNumbers
import Applesoft.Proofs.TokenGroups
import Applesoft.Proofs.Pieces
import Applesoft.Proofs.FollowingText
import Applesoft.Proofs.SourceLines
import Applesoft.Proofs.BrokenLines
import Applesoft.Proofs.MovedNumbers
import Applesoft.Proofs.RefusedRenumbering
import Applesoft.Proofs.ReferenceGraph
import Applesoft.Proofs.RepeatedRenumbering
import Applesoft.Proofs.LineEnds
import Applesoft.Proofs.TraversalOrder
import Applesoft.Proofs.OwnedLines
import Applesoft.Proofs.ReusedTools
import Applesoft.Proofs.CommandOutcomes
import Applesoft.Proofs.RecordEnds
import Applesoft.Proofs.BeyondAscii
import Applesoft.Proofs.NamedLines
import Applesoft.Proofs.PairedLineEnds
import Applesoft.Proofs.MistakenNumbers
import Applesoft.Proofs.RecoveredStatements
import Applesoft.Proofs.DrawnTokens
import Applesoft.Proofs.LexerRuns
import Applesoft.Proofs.EmittedKinds
import Applesoft.Proofs.SameLetters
import Applesoft.Proofs.Spacing
import Applesoft.Proofs.OpaqueComments
import Applesoft.Proofs.PrintAlias
import Applesoft.Proofs.ReplacedTokens
import Applesoft.Proofs.ReadableDumps
import Applesoft.Proofs.WrittenIntegers
import Applesoft.Proofs.AppliedSettings
import Applesoft.Proofs.JsonTexts
