import ScriptFrontend.Decimal.Layout
import ScriptFrontend.Decimal.Shortest
import ScriptFrontend.Declaration
import ScriptFrontend.Position
import ScriptFrontend.Proofs.Decimal.Limit
import ScriptFrontend.Proofs.Decimal.Packing
import ScriptFrontend.Proofs.Decimal.Rounding
import ScriptFrontend.Proofs.Numeral.Digits
import ScriptFrontend.Proofs.Numeral.Fraction
import ScriptFrontend.Proofs.Numeral.Integer
import ScriptFrontend.Proofs.Numeral.Overflow
import ScriptFrontend.Proofs.Scope.History
import ScriptFrontend.Proofs.Scope.Listing
import ScriptFrontend.Proofs.Script.BaseName
import ScriptFrontend.Proofs.Script.Fault
import ScriptFrontend.Proofs.Script.FirstError
import ScriptFrontend.Proofs.Script.Grammar
import ScriptFrontend.Proofs.Script.Incremental
import ScriptFrontend.Proofs.Script.Lenient
import ScriptFrontend.Proofs.Script.Lookahead
import ScriptFrontend.Proofs.Script.Metered
import ScriptFrontend.Proofs.Script.Parsing
import ScriptFrontend.Proofs.Script.Printing
import ScriptFrontend.Proofs.Script.Productions
import ScriptFrontend.Proofs.Script.Pushback
import ScriptFrontend.Proofs.Script.RoundTrip
import ScriptFrontend.Proofs.Script.Similar
import ScriptFrontend.Proofs.Script.Termination
import ScriptFrontend.Proofs.Script.Watched
import ScriptFrontend.Proofs.Source.Accepted
import ScriptFrontend.Proofs.Source.Delivery
import ScriptFrontend.Proofs.Source.Encoded
import ScriptFrontend.Proofs.Source.Metered
import ScriptFrontend.Proofs.Source.Recorded
import ScriptFrontend.Proofs.Source.Replay
import ScriptFrontend.Proofs.Source.Utf8
import ScriptFrontend.Proofs.Token.Agreement
import ScriptFrontend.Proofs.Token.Blame
import ScriptFrontend.Proofs.Token.Broken
import ScriptFrontend.Proofs.Token.Calls
import ScriptFrontend.Proofs.Token.Extension
import ScriptFrontend.Proofs.Token.First
import ScriptFrontend.Proofs.Token.Flaw
import ScriptFrontend.Proofs.Token.Joined
import ScriptFrontend.Proofs.Token.Line
import ScriptFrontend.Proofs.Token.LineByLine
import ScriptFrontend.Proofs.Token.Literal
import ScriptFrontend.Proofs.Token.Longest
import ScriptFrontend.Proofs.Token.LongestMatch
import ScriptFrontend.Proofs.Token.Metered
import ScriptFrontend.Proofs.Token.Outcome
import ScriptFrontend.Proofs.Token.Place
import ScriptFrontend.Proofs.Token.Placement
import ScriptFrontend.Proofs.Token.Pushback
import ScriptFrontend.Proofs.Token.Quoted
import ScriptFrontend.Proofs.Token.Readers
import ScriptFrontend.Proofs.Token.Spacing
import ScriptFrontend.Proofs.Token.Step
import ScriptFrontend.Proofs.Token.Stream
import ScriptFrontend.Proofs.Token.Taking
import ScriptFrontend.Proofs.Token.Terminators
import ScriptFrontend.Proofs.Token.Truncated
import ScriptFrontend.Proofs.Token.Uncommented
import ScriptFrontend.Proofs.Token.Woven
import ScriptFrontend.Proofs.Ty.Readability
import ScriptFrontend.Scope.Basic
import ScriptFrontend.Scope.Session
import ScriptFrontend.Script.ParseError
import ScriptFrontend.Script.Parser
import ScriptFrontend.Script.Reading
import ScriptFrontend.Source.Basic
import ScriptFrontend.Source.Decoder
import ScriptFrontend.Source.InputError
import ScriptFrontend.Source.Progress
import ScriptFrontend.Text.Alphabetic
import ScriptFrontend.Text.Blank
import ScriptFrontend.Text.Escaped
import ScriptFrontend.Text.Extending
import ScriptFrontend.Text.Numeric
import ScriptFrontend.Text.Ranges
import ScriptFrontend.Text.Unprintable
import ScriptFrontend.Token.Basic
import ScriptFrontend.Token.Head
import ScriptFrontend.Token.Kind
import ScriptFrontend.Token.LexError
import ScriptFrontend.Token.Lexeme
import ScriptFrontend.Token.Numeral
import ScriptFrontend.Token.Scanner
import ScriptFrontend.Ty
