import KnittingPattern.Files.Tree
import KnittingPattern.Main
import KnittingPattern.Viewer.Screen
import KnittingPattern.Text.Letter
import KnittingPattern.Proofs.NestedUnrolling
import KnittingPattern.Proofs.RecordGrammar
import KnittingPattern.Proofs.FirstOffence
import KnittingPattern.Proofs.LexemeCuts
import KnittingPattern.Proofs.ReaderGrammar
import KnittingPattern.Proofs.PatternWriting
import KnittingPattern.Proofs.BracketReading
import KnittingPattern.Proofs.PatternRoundTrip
import KnittingPattern.Proofs.DefinitionWalks
import KnittingPattern.Proofs.LayoutFaults
import KnittingPattern.Proofs.StitchSequence
import KnittingPattern.Proofs.NestedLayout
import KnittingPattern.Proofs.RowRepeats
import KnittingPattern.Proofs.BinaryRounding
import KnittingPattern.Proofs.BinaryText
import KnittingPattern.Proofs.JsonRoundTrip
import KnittingPattern.Proofs.DocumentReading
import KnittingPattern.Proofs.PatternDecoding
import KnittingPattern.Proofs.TextSegmentation
import KnittingPattern.Proofs.TextPositions
import KnittingPattern.Proofs.TokenPositions
import KnittingPattern.Proofs.FeedAnswers
import KnittingPattern.Proofs.FilesWritten
import KnittingPattern.Proofs.SnapshotReading
import KnittingPattern.Session.Operation
import KnittingPattern.Proofs.SessionRestarts
import KnittingPattern.Proofs.PatternParts
import KnittingPattern.Proofs.DescriptionSources
import KnittingPattern.Proofs.WovenRows
import KnittingPattern.Proofs.RowContexts
import KnittingPattern.Proofs.DescriptionsInEffect
import KnittingPattern.Proofs.RowDescriptions
import KnittingPattern.Proofs.StitchCursor
import KnittingPattern.Proofs.NewNames
import KnittingPattern.Proofs.NamedStatements
import KnittingPattern.Proofs.OperationFrames
import KnittingPattern.Proofs.RelabelledLayout
import KnittingPattern.Proofs.DefinitionOrder
import KnittingPattern.Proofs.PlainReading
import KnittingPattern.Proofs.LeftOutComments
import KnittingPattern.Proofs.UndescribedStates
import KnittingPattern.Proofs.RowTotals
import KnittingPattern.Proofs.FilesApart
import KnittingPattern.Proofs.ViewerKeys
import KnittingPattern.Proofs.StateNumbers
import KnittingPattern.Proofs.CommandOutputs
import KnittingPattern.Proofs.CommentsCollected
import KnittingPattern.Proofs.JoinedTexts
import KnittingPattern.Proofs.LineEndings
import KnittingPattern.Proofs.RowsToldApart
import KnittingPattern.Proofs.SynonymsWrittenOut
import KnittingPattern.Proofs.UnfoldedRows
import KnittingPattern.Proofs.StitchMoves
import KnittingPattern.Proofs.StyledRows
import KnittingPattern.Proofs.RowFragments
import KnittingPattern.Proofs.SameLexemes
import KnittingPattern.Proofs.RespacedTexts
import KnittingPattern.Proofs.PatternNodes
import KnittingPattern.Proofs.WrittenCounts
import KnittingPattern.Proofs.UnmatchedEnds
import KnittingPattern.Proofs.UnrollingColumns
import KnittingPattern.Proofs.PatternNormalForm
import KnittingPattern.Proofs.TextSpots
import KnittingPattern.Proofs.MatchingBraces
import KnittingPattern.Proofs.GroupComments
import KnittingPattern.Proofs.FaithfulPositions
import KnittingPattern.Proofs.DescriptionLines
import KnittingPattern.Proofs.MergedDescriptions
import KnittingPattern.Proofs.DescentEnds
