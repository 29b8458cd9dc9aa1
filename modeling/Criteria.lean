import Criteria.Cursor
import Criteria.Cursor.Lookahead
import Criteria.Cursor.Step
import Criteria.Diagnostic
import Criteria.Expr.Basic
import Criteria.Expr.Equality
import Criteria.Expr.Export
import Criteria.Expr.Import
import Criteria.Expr.Nesting
import Criteria.Expr.Render
import Criteria.Expr.Shape
import Criteria.Expr.Subject
import Criteria.Expr.Traverse
import Criteria.Expr.WellFormed
import Criteria.Grammar
import Criteria.Json.Basic
import Criteria.Json.Read
import Criteria.Limit
import Criteria.Parse
import Criteria.Rule.Basic
import Criteria.Rule.Expression
import Criteria.Rule.Lookahead
import Criteria.Rule.Predicate
import Criteria.Session
import Criteria.Session.Act
import Criteria.Session.Bounds
import Criteria.Session.Move
import Criteria.Session.Step
import Criteria.Text.Blank
import Criteria.Text.Bytes
import Criteria.Text.Lexical
import Criteria.Text.Numeral
import Criteria.Text.Quoted
import Criteria.Text.Word
import Criteria.Token.Basic
import Criteria.Token.ByteScan
import Criteria.Token.Canonical
import Criteria.Token.Kind
import Criteria.Token.Layout
import Criteria.Token.LongestMatch
import Criteria.Token.Partner
import Criteria.Token.Scan
import Criteria.Trace
import Criteria.Usage
import Criteria.Usage.Call
import Criteria.Walk.Basic
import Criteria.Walk.Condition
import Criteria.Walk.Course
import Criteria.Proofs.Grammar.Predicate
import Criteria.Proofs.Grammar.Dispatch
import Criteria.Proofs.Grammar.Sound
import Criteria.Proofs.Grammar.Balanced
import Criteria.Proofs.Grammar.Complete
import Criteria.Proofs.Rule.Flat
import Criteria.Proofs.Rule.Orderly
import Criteria.Proofs.Rule.Cut
import Criteria.Proofs.Grammar.Filter
import Criteria.Proofs.Session.Reading
import Criteria.Proofs.Parse.Depth
import Criteria.Proofs.Parse.Language
import Criteria.Proofs.Token.Rescan
import Criteria.Proofs.Token.Written
import Criteria.Proofs.Token.Canonical
import Criteria.Proofs.Grammar.Render
import Criteria.Proofs.Grammar.WellFormed
import Criteria.Proofs.Parse.RoundTrip
import Criteria.Proofs.Token.Lossless
import Criteria.Proofs.Token.Longest
import Criteria.Proofs.Rule.Placeless
import Criteria.Proofs.Token.Part
import Criteria.Proofs.Session.Reuse
import Criteria.Proofs.Grammar.Viable
import Criteria.Proofs.Parse.Viable
import Criteria.Proofs.Grammar.Subject
import Criteria.Proofs.Parse.Subject
import Criteria.Proofs.Token.Seam
import Criteria.Proofs.Grammar.Junction
import Criteria.Proofs.Grammar.Classified
import Criteria.Proofs.Parse.Composition
import Criteria.Proofs.Cursor.Lookahead
import Criteria.Proofs.Walk.Settle
import Criteria.Proofs.Walk.Follows
import Criteria.Proofs.Walk.Reading
import Criteria.Proofs.Walk.Contract
import Criteria.Proofs.Walk.Precaution
import Criteria.Proofs.Token.Layout
import Criteria.Proofs.Parse.Layout
import Criteria.Proofs.Grammar.Mention
import Criteria.Proofs.Grammar.Shape
import Criteria.Proofs.Parse.Tree
import Criteria.Proofs.Json.Read
import Criteria.Proofs.Expr.Export
import Criteria.Proofs.Cursor.Protocol
import Criteria.Proofs.Text.Bytes
import Criteria.Proofs.Token.Quoted
import Criteria.Proofs.Token.ByteScan
import Criteria.Proofs.Token.ByteRounds
import Criteria.Proofs.Expr.Depth
import Criteria.Proofs.Parse.Height
import Criteria.Proofs.Usage.Account
import Criteria.Proofs.Diagnostic.Excerpt
import Criteria.Proofs.Cursor.Partner
import Criteria.Proofs.Walk.Moves
import Criteria.Proofs.Cursor.Search
import Criteria.Proofs.Walk.Course
import Criteria.Proofs.Session.Overflow
