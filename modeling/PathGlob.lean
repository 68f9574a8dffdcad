import PathGlob.CharClass.Basic
import PathGlob.CharClass.Members
import PathGlob.CharClass.Named
import PathGlob.CommandLine.Arguments
import PathGlob.CommandLine.Run
import PathGlob.Config.Basic
import PathGlob.Config.Discovery
import PathGlob.Config.FileTree
import PathGlob.Data.Basic
import PathGlob.Data.Binary64
import PathGlob.Error
import PathGlob.Glob.Cursor
import PathGlob.Glob.Matcher
import PathGlob.Glob.Normal
import PathGlob.Glob.Pattern
import PathGlob.Glob.Reader
import PathGlob.Glob.Segment
import PathGlob.Glob.Shape
import PathGlob.Glob.Sign
import PathGlob.Glob.Token
import PathGlob.Main
import PathGlob.Options.Basic
import PathGlob.Options.Decode
import PathGlob.Path.Normal
import PathGlob.Path.Root
import PathGlob.Path.Segment
import PathGlob.Platform
import PathGlob.Proofs.GlobGrammar
import PathGlob.Proofs.GlobItem
import PathGlob.Regex.Basic
import PathGlob.Regex.Language
import PathGlob.Regex.MatchExact
import PathGlob.Regex.Matching
import PathGlob.Regex.PlaceLaws
import PathGlob.Report.Basic
import PathGlob.Report.Json
import PathGlob.Text.CaseFolding
import PathGlob.Text.CodePointTable
import PathGlob.Text.DecimalDigit
import PathGlob.Text.GraphemeExtend
import PathGlob.Text.Numeral
import PathGlob.Text.Pieces
import PathGlob.Text.Quoted
import PathGlob.Text.Unprintable
import PathGlob.Text.Utf8
import PathGlob.Text.WhiteSpace
import PathGlob.Text.WordCharacter
import PathGlob.Toml.Document
import PathGlob.Toml.Reading
import PathGlob.Toml.Scalar
import PathGlob.Toml.Table
import PathGlob.Toml.Text
import PathGlob.Proofs.BracketReading
import PathGlob.Proofs.SegmentReading
import PathGlob.Proofs.CaseVariants
import PathGlob.Proofs.TextLanguage
import PathGlob.Proofs.GlobMeaning
import PathGlob.Proofs.ItemPattern
import PathGlob.Proofs.SegmentNames
import PathGlob.Proofs.GlobPatternMeaning
import PathGlob.Proofs.ClassText
import PathGlob.Proofs.RegexText
import PathGlob.Proofs.PatternForm
import PathGlob.Proofs.GlobPieces
import PathGlob.Proofs.CompiledMeaning
import PathGlob.Proofs.CompileRefusal
import PathGlob.Proofs.SourceSegments
import PathGlob.Proofs.TextPieces
import PathGlob.Proofs.SeparatorCrossings
import PathGlob.Proofs.PathResolution
import PathGlob.Proofs.PathReading
import PathGlob.Proofs.NormalPath
import PathGlob.Proofs.GlobShield
import PathGlob.Proofs.GlobIdempotence
import PathGlob.Proofs.GlobPlaces
import PathGlob.Proofs.GlobJoin
import PathGlob.Proofs.NormalSource
import PathGlob.Proofs.LiteralSegments
import PathGlob.Proofs.CanonicalPath
import PathGlob.Proofs.PlainGlobs
import PathGlob.Proofs.StayingInside
import PathGlob.Proofs.NameMatching
import PathGlob.Proofs.EmptyPieces
import PathGlob.Proofs.SeparatorRuns
import PathGlob.Proofs.ReadingOptions
import PathGlob.Proofs.GlobstarOption
import PathGlob.Proofs.DialectAgreement
import PathGlob.Proofs.LookAhead
import PathGlob.Proofs.GlobstarSplit
import PathGlob.Proofs.UnsignedText
import PathGlob.Proofs.UnsignedGlobs
import PathGlob.Proofs.CaseFolding
import PathGlob.Proofs.CaseInsensitivity
import PathGlob.Proofs.OptionLayers
import PathGlob.Proofs.RunOptions
import PathGlob.Proofs.BracketUnits
import PathGlob.Proofs.ClassReading
import PathGlob.Proofs.BracketMembers
import PathGlob.Proofs.ClassDifference
import PathGlob.Proofs.BracketDifference
import PathGlob.Proofs.NamesAround
import PathGlob.Proofs.RepeatedGlobstars
import PathGlob.Proofs.SegmentFronts
import PathGlob.Proofs.NegatedGroups
import PathGlob.Proofs.TextBehind
import PathGlob.Proofs.BraceExpansion
import PathGlob.Proofs.ClassRanges
import PathGlob.Proofs.BracketRanges
import PathGlob.Proofs.TrailingSeparators
import PathGlob.Proofs.PathWalk
import PathGlob.Proofs.CancelledSegments
import PathGlob.Proofs.WindowsPaths
import PathGlob.Proofs.JoinedShares
import PathGlob.Proofs.PosixForm
import PathGlob.Proofs.KeptParents
import PathGlob.Proofs.StackHeights
import PathGlob.Proofs.DotSegments
import PathGlob.Proofs.MarkedGlobs
import PathGlob.Proofs.SignReading
import PathGlob.Proofs.EscapedSigns
