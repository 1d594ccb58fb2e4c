import ShellPrompt.Cache.Colors
import ShellPrompt.Cache.Directory
import ShellPrompt.Color.Basic
import ShellPrompt.Color.Style
import ShellPrompt.Color.Terminal
import ShellPrompt.CommandLine.Basic
import ShellPrompt.CommandLine.Parsing
import ShellPrompt.Digest.Sha1
import ShellPrompt.Environment
import ShellPrompt.Failure
import ShellPrompt.Main
import ShellPrompt.Markup.ColorSpec
import ShellPrompt.Markup.Cursor
import ShellPrompt.Markup.Error
import ShellPrompt.Markup.GlyphList
import ShellPrompt.Markup.Glyphs
import ShellPrompt.Markup.Lexing
import ShellPrompt.Markup.Literal
import ShellPrompt.Markup.Quote
import ShellPrompt.Markup.Scan
import ShellPrompt.Markup.Token
import ShellPrompt.Number.Binary
import ShellPrompt.Palette.Basic
import ShellPrompt.Palette.Pick
import ShellPrompt.Program.Commands
import ShellPrompt.Program.Invocation
import ShellPrompt.Program.Options
import ShellPrompt.Program.Run
import ShellPrompt.Program.World
import ShellPrompt.Prompt.Compose
import ShellPrompt.Prompt.Directory
import ShellPrompt.Random.Choices
import ShellPrompt.Random.Twister
import ShellPrompt.Render.Drawing
import ShellPrompt.Render.Line
import ShellPrompt.Render.Renderer
import ShellPrompt.Render.Rendering
import ShellPrompt.Render.Segment
import ShellPrompt.Repository
import ShellPrompt.Setting
import ShellPrompt.Shell.Mode
import ShellPrompt.Storage.OsError
import ShellPrompt.Storage.Path
import ShellPrompt.Storage.Tree
import ShellPrompt.TerminalWidth
import ShellPrompt.Text.Basic
import ShellPrompt.Text.Blank
import ShellPrompt.Text.Digit
import ShellPrompt.Text.Integer
import ShellPrompt.Text.Printable
import ShellPrompt.Text.Quoted
import ShellPrompt.Text.RangeTable
import ShellPrompt.Text.Slice
import ShellPrompt.Text.Utf8
import ShellPrompt.Text.Width
import ShellPrompt.Text.Width.Tables
import ShellPrompt.Trace.Datum
import ShellPrompt.Trace.Entry
import ShellPrompt.Trace.Sink
import ShellPrompt.Proofs.Terminal.Reading
import ShellPrompt.Proofs.Render.Run
import ShellPrompt.Proofs.Render.Sequences
import ShellPrompt.Proofs.Terminal.Tracking
import ShellPrompt.Proofs.Shell.Marks
import ShellPrompt.Proofs.Render.Pieces
import ShellPrompt.Proofs.Shell.Decoding
import ShellPrompt.Proofs.Markup.Dispatch
import ShellPrompt.Proofs.Markup.Grammar
import ShellPrompt.Proofs.Markup.Specs
import ShellPrompt.Proofs.Markup.Lists
import ShellPrompt.Proofs.Markup.Tokens
import ShellPrompt.Proofs.Markup.Acceptance
import ShellPrompt.Proofs.Markup.Appending
import ShellPrompt.Proofs.Render.LineBreaks
import ShellPrompt.Proofs.Storage.Entries
import ShellPrompt.Proofs.Cache.Listing
import ShellPrompt.Proofs.Text.Hexadecimal
import ShellPrompt.Proofs.Palette.Choice
import ShellPrompt.Proofs.Cache.Memory
import ShellPrompt.Proofs.Cache.Files
import ShellPrompt.Proofs.Cache.Recall
import ShellPrompt.Proofs.Markup.Written
import ShellPrompt.Proofs.Prompt.Lexemes
import ShellPrompt.Proofs.Render.Justified
import ShellPrompt.Proofs.CommandLine.Grammar
import ShellPrompt.Proofs.CommandLine.Construction
import ShellPrompt.Proofs.CommandLine.Occurrences
import ShellPrompt.Proofs.CommandLine.Values
import ShellPrompt.Proofs.CommandLine.Acceptance
import ShellPrompt.Proofs.Cache.Contents
import ShellPrompt.Proofs.Cache.Uses
import ShellPrompt.Proofs.Guarded.Basic
import ShellPrompt.Proofs.Guarded.Glyphs
import ShellPrompt.Proofs.Guarded.Lexing
import ShellPrompt.Proofs.Guarded.Lines
import ShellPrompt.Proofs.Guarded.Rendering
import ShellPrompt.Proofs.Markup.Cutting
import ShellPrompt.Proofs.Render.Faults
import ShellPrompt.Proofs.Program.Actions
import ShellPrompt.Proofs.Program.Quiet
import ShellPrompt.Proofs.Program.Homes
import ShellPrompt.Proofs.Guarded.Commands
import ShellPrompt.Proofs.Program.Breakdowns
import ShellPrompt.Proofs.Markup.Faults
import ShellPrompt.Proofs.Markup.Tiling
import ShellPrompt.Proofs.Markup.Cursors
import ShellPrompt.Proofs.Markup.Culprits
import ShellPrompt.Proofs.Markup.Regions
import ShellPrompt.Proofs.Prompt.Controls
import ShellPrompt.Proofs.Render.Regions
import ShellPrompt.Proofs.Terminal.Screen
import ShellPrompt.Proofs.Terminal.Transitions
import ShellPrompt.Proofs.Render.Gaps
import ShellPrompt.Proofs.Render.Lines
import ShellPrompt.Proofs.Render.Segments
import ShellPrompt.Proofs.Render.Fills
import ShellPrompt.Proofs.Render.Coloring
import ShellPrompt.Proofs.Render.Texts
import ShellPrompt.Proofs.Palette.Costs
import ShellPrompt.Proofs.Render.Quoted
import ShellPrompt.Proofs.Markup.Glyphs
import ShellPrompt.Proofs.Terminal.Differences
import ShellPrompt.Proofs.Markup.Gluing
import ShellPrompt.Proofs.Repository.Roots
import ShellPrompt.Proofs.Terminal.Width
import ShellPrompt.Proofs.Text.Measuring
import ShellPrompt.Proofs.Text.Ends
import ShellPrompt.Proofs.Prompt.Directories
import ShellPrompt.Proofs.Repository.Branches
import ShellPrompt.Proofs.Render.Widths
import ShellPrompt.Proofs.Cache.Names
