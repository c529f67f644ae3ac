import SlideDeck.CommandLine.Flag
import SlideDeck.CommandLine.Program
import SlideDeck.CommandLine.Reader
import SlideDeck.Config.Assignment
import SlideDeck.Config.Embedded
import SlideDeck.Deck.Basic
import SlideDeck.Deck.Finalization
import SlideDeck.Deck.Report
import SlideDeck.Deck.Revision
import SlideDeck.Deck.Slug
import SlideDeck.Deck.Step
import SlideDeck.Deck.Template
import SlideDeck.Expression.Match
import SlideDeck.Expression.Reader
import SlideDeck.Expression.Syntax
import SlideDeck.Failure
import SlideDeck.Layout.Basic
import SlideDeck.Layout.Compiler
import SlideDeck.Layout.Outline
import SlideDeck.Layout.Reader
import SlideDeck.Log
import SlideDeck.Main
import SlideDeck.Markup.Document
import SlideDeck.Markup.Edit
import SlideDeck.Markup.Event
import SlideDeck.Markup.Names
import SlideDeck.Markup.Node
import SlideDeck.Markup.Reference
import SlideDeck.Markup.Span
import SlideDeck.Markup.StartTag
import SlideDeck.Markup.Stylesheet
import SlideDeck.Page.Basic
import SlideDeck.Proofs.Action
import SlideDeck.Proofs.Config.Again
import SlideDeck.Proofs.Config.Assignment
import SlideDeck.Proofs.Config.Fallback
import SlideDeck.Proofs.Config.Member
import SlideDeck.Proofs.Config.Reading
import SlideDeck.Proofs.Config.Update
import SlideDeck.Proofs.Deck.Alongside
import SlideDeck.Proofs.Deck.AnyOrder
import SlideDeck.Proofs.Deck.Damaged
import SlideDeck.Proofs.Deck.Ends
import SlideDeck.Proofs.Deck.Failing
import SlideDeck.Proofs.Deck.Finalized
import SlideDeck.Proofs.Deck.Install
import SlideDeck.Proofs.Deck.Making
import SlideDeck.Proofs.Deck.Merge
import SlideDeck.Proofs.Deck.Outcomes
import SlideDeck.Proofs.Deck.Sequence
import SlideDeck.Proofs.Deck.Slug
import SlideDeck.Proofs.Deck.Step
import SlideDeck.Proofs.Deck.Stylesheets
import SlideDeck.Proofs.Expression.Found
import SlideDeck.Proofs.Expression.Plain
import SlideDeck.Proofs.Expression.Tags
import SlideDeck.Proofs.Failing
import SlideDeck.Proofs.Layout.Compiler
import SlideDeck.Proofs.Layout.Count
import SlideDeck.Proofs.Layout.Grammar
import SlideDeck.Proofs.Layout.Nesting
import SlideDeck.Proofs.Layout.Place
import SlideDeck.Proofs.Layout.Structure
import SlideDeck.Proofs.Layout.Written
import SlideDeck.Proofs.Markup.Again
import SlideDeck.Proofs.Markup.Balance
import SlideDeck.Proofs.Markup.Change
import SlideDeck.Proofs.Markup.Descendants
import SlideDeck.Proofs.Markup.Document
import SlideDeck.Proofs.Markup.EndTag
import SlideDeck.Proofs.Markup.Kept
import SlideDeck.Proofs.Markup.Located
import SlideDeck.Proofs.Markup.Name
import SlideDeck.Proofs.Markup.Reading
import SlideDeck.Proofs.Markup.Region
import SlideDeck.Proofs.Markup.Rewrite
import SlideDeck.Proofs.Markup.Same
import SlideDeck.Proofs.Markup.SectionTree
import SlideDeck.Proofs.Markup.Site
import SlideDeck.Proofs.Markup.SiteEdit
import SlideDeck.Proofs.Markup.Span
import SlideDeck.Proofs.Markup.SpanEdit
import SlideDeck.Proofs.Markup.Splice
import SlideDeck.Proofs.Markup.StartTag
import SlideDeck.Proofs.Markup.Stripped
import SlideDeck.Proofs.Markup.Stylesheet
import SlideDeck.Proofs.Markup.Substitution
import SlideDeck.Proofs.Markup.Tag
import SlideDeck.Proofs.Markup.Written
import SlideDeck.Proofs.Outcome
import SlideDeck.Proofs.Page.Again
import SlideDeck.Proofs.Page.Causes
import SlideDeck.Proofs.Page.Configured
import SlideDeck.Proofs.Page.Frame
import SlideDeck.Proofs.Page.LineEnds
import SlideDeck.Proofs.Page.Repeat
import SlideDeck.Proofs.Page.Revised
import SlideDeck.Proofs.Page.Revision
import SlideDeck.Proofs.Page.Script
import SlideDeck.Proofs.Page.Sheet
import SlideDeck.Proofs.Page.Stripped
import SlideDeck.Proofs.Record.Limits
import SlideDeck.Proofs.Record.Reading
import SlideDeck.Proofs.Record.RoundTrip
import SlideDeck.Proofs.Record.Scalar
import SlideDeck.Proofs.Record.Tag
import SlideDeck.Proofs.Record.Truncation
import SlideDeck.Proofs.Record.Value
import SlideDeck.Proofs.Record.Written
import SlideDeck.Proofs.Run.Bytes
import SlideDeck.Proofs.Run.Finalizing
import SlideDeck.Proofs.Run.Making
import SlideDeck.Proofs.Run.Reports
import SlideDeck.Proofs.Run.Stages
import SlideDeck.Proofs.Run.Told
import SlideDeck.Proofs.Text.Numeral
import SlideDeck.Proofs.Text.Order
import SlideDeck.Proofs.Text.Position
import SlideDeck.Proofs.Text.Run
import SlideDeck.Proofs.Text.Search
import SlideDeck.Proofs.Text.Split
import SlideDeck.Proofs.Text.Utf8
import SlideDeck.Proofs.Tree.Length
import SlideDeck.Proofs.Tree.Location
import SlideDeck.Proofs.Tree.Move
import SlideDeck.Proofs.Tree.Normal
import SlideDeck.Proofs.Tree.Opening
import SlideDeck.Proofs.Tree.Plain
import SlideDeck.Proofs.Tree.Refusal
import SlideDeck.Proofs.Tree.Unpack
import SlideDeck.Proofs.Tree.Walk
import SlideDeck.Proofs.Tree.Within
import SlideDeck.Record.Basic
import SlideDeck.Record.Double
import SlideDeck.Record.Printer
import SlideDeck.Record.Reader
import SlideDeck.Run.Stage
import SlideDeck.Run.State
import SlideDeck.Settings.Basic
import SlideDeck.Settings.Reader
import SlideDeck.Text.Basic
import SlideDeck.Text.Blank
import SlideDeck.Text.Lowercase
import SlideDeck.Text.Numeral
import SlideDeck.Text.Position
import SlideDeck.Text.Printable
import SlideDeck.Text.Quoted
import SlideDeck.Text.Range
import SlideDeck.Text.Utf8
import SlideDeck.Text.Word
import SlideDeck.Tree.Action
import SlideDeck.Tree.Basic
import SlideDeck.Tree.Change
import SlideDeck.Tree.Path
import SlideDeck.Tree.Snapshot
import SlideDeck.Tree.Unpack
import SlideDeck.Tree.Walk
