import HtmlTemplates.Debug.Describe
import HtmlTemplates.Debug.Shape
import HtmlTemplates.Fuzz.Checks
import HtmlTemplates.Fuzz.Draw
import HtmlTemplates.Json.Basic
import HtmlTemplates.Json.Read
import HtmlTemplates.Proofs.EscapePieces
import HtmlTemplates.Main
import HtmlTemplates.Markup.LexState
import HtmlTemplates.Markup.Lexing
import HtmlTemplates.Markup.Scanner
import HtmlTemplates.Number.Notation
import HtmlTemplates.Number.Read
import HtmlTemplates.Number.Shortest
import HtmlTemplates.Settings
import HtmlTemplates.Template.Attribute
import HtmlTemplates.Template.Basic
import HtmlTemplates.Template.Binding
import HtmlTemplates.Template.Buffer
import HtmlTemplates.Template.Error
import HtmlTemplates.Template.Fragment
import HtmlTemplates.Template.Parse
import HtmlTemplates.Template.Part
import HtmlTemplates.Template.Placeholder
import HtmlTemplates.Template.Render
import HtmlTemplates.Template.Store
import HtmlTemplates.Template.Value
import HtmlTemplates.Text.Escape
import HtmlTemplates.Text.GraphemeExtend
import HtmlTemplates.Text.Printable
import HtmlTemplates.Text.Quoted
import HtmlTemplates.Text.Ranges
import HtmlTemplates.Text.Slice
import HtmlTemplates.Trace.Options
import HtmlTemplates.Trace.Report
import HtmlTemplates.Proofs.Text.CharBoundary
import HtmlTemplates.Proofs.Markup.Rules
import HtmlTemplates.Proofs.Markup.Termination
import HtmlTemplates.Proofs.Markup.Partition
import HtmlTemplates.Proofs.Markup.Grammar
import HtmlTemplates.Proofs.Markup.Joining
import HtmlTemplates.Proofs.Markup.Resumption
import HtmlTemplates.Proofs.Markup.Breaks
import HtmlTemplates.Proofs.Markup.Calls
import HtmlTemplates.Proofs.Template.Slots
import HtmlTemplates.Proofs.Template.PlainText
import HtmlTemplates.Proofs.Template.Reading
import HtmlTemplates.Proofs.Template.Interleaving
import HtmlTemplates.Proofs.Template.Binding
import HtmlTemplates.Proofs.Template.Store
import HtmlTemplates.Proofs.Template.Session
import HtmlTemplates.Proofs.Template.Lenient
import HtmlTemplates.Proofs.Template.MarkupFree
import HtmlTemplates.Proofs.Template.Placeholders
import HtmlTemplates.Proofs.Markup.LiveStates
import HtmlTemplates.Proofs.Template.Fragments
import HtmlTemplates.Proofs.Template.PartShape
