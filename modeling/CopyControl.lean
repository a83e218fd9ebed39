import CopyControl.Command.Run
import CopyControl.Document.Html
import CopyControl.Enhance.Pass
import CopyControl.Host.Run
import CopyControl.Main
import CopyControl.Markdown.Page
import CopyControl.Markdown.Reader
import CopyControl.Proofs.Document.Changes
import CopyControl.Proofs.Document.Forest
import CopyControl.Proofs.Document.Growth
import CopyControl.Proofs.Document.Lookup
import CopyControl.Proofs.Document.Moves
import CopyControl.Proofs.Document.Operations
import CopyControl.Proofs.Document.Outcome
import CopyControl.Settings
import CopyControl.Proofs.Document.Order
import CopyControl.Proofs.Document.Steps
import CopyControl.Proofs.Enhance.Wrap
import CopyControl.Proofs.Enhance.Pass
import CopyControl.Proofs.Document.Notice
import CopyControl.Proofs.Enhance.Result
import CopyControl.Proofs.Enhance.Backlog
import CopyControl.Proofs.Host.Actions
import CopyControl.Proofs.Markdown.Fragment
import CopyControl.Proofs.Host.Vigil
import CopyControl.Proofs.Enhance.Label
import CopyControl.Proofs.Host.Labels
import CopyControl.Proofs.Document.Blank
import CopyControl.Proofs.Document.Works
import CopyControl.Proofs.Enhance.Again
import CopyControl.Proofs.Enhance.Classes
import CopyControl.Proofs.Enhance.Unlabelled
import CopyControl.Proofs.Host.Effects
import CopyControl.Proofs.Host.Handles
import CopyControl.Proofs.Host.Once
import CopyControl.Proofs.Host.Origin
import CopyControl.Proofs.Document.Listeners
import CopyControl.Proofs.Host.Echo
import CopyControl.Proofs.Host.Clicks
import CopyControl.Proofs.Host.Erasure
import CopyControl.Proofs.Document.Shape
import CopyControl.Proofs.Markdown.Sketch
import CopyControl.Proofs.Document.Swap
import CopyControl.Proofs.Enhance.Shape
import CopyControl.Proofs.Markdown.Page
import CopyControl.Proofs.Markdown.Fresh
import CopyControl.Proofs.Host.Reload
import CopyControl.Proofs.Document.Markup
import CopyControl.Proofs.Markdown.Nesting
import CopyControl.Proofs.Document.Rooted
import CopyControl.Proofs.Markdown.Whole
import CopyControl.Proofs.Enhance.Tally
import CopyControl.Proofs.Host.Bounded
import CopyControl.Proofs.Host.Attempts
import CopyControl.Proofs.Host.Service
import CopyControl.Proofs.Host.Copying
import CopyControl.Proofs.Host.Fidelity
import CopyControl.Proofs.Document.Reports
import CopyControl.Proofs.Document.Delivery
import CopyControl.Proofs.Document.Ledger
import CopyControl.Proofs.Document.Freed
import CopyControl.Proofs.Enhance.Undo
import CopyControl.Proofs.Enhance.BlockText
import CopyControl.Proofs.Host.BlockText
import CopyControl.Proofs.Host.Rest
import CopyControl.Proofs.Markdown.Blocks
import CopyControl.Proofs.Association
import CopyControl.Proofs.Files.Places
import CopyControl.Proofs.Command.Live
import CopyControl.Proofs.Command.Current
import CopyControl.Proofs.Command.Footprint
import CopyControl.Proofs.Host.Pairs
import CopyControl.Proofs.Host.Refusal
import CopyControl.Proofs.Host.Copies
import CopyControl.Proofs.Host.Lifecycle
import CopyControl.Proofs.Document.Registrations
import CopyControl.Proofs.Host.Sessions
import CopyControl.Proofs.Command.Saving
import CopyControl.Proofs.Host.Exchange
import CopyControl.Proofs.Host.Insertion
import CopyControl.Proofs.Host.Walks
import CopyControl.Proofs.Document.Spoken
import CopyControl.Proofs.Markdown.Images
import CopyControl.Proofs.Host.Texts
import CopyControl.Proofs.Host.Aside
import CopyControl.Proofs.Host.Answers
import CopyControl.Proofs.Markdown.Title
import CopyControl.Proofs.Host.Head
import CopyControl.Proofs.Document.Beside
import CopyControl.Proofs.Host.Leftovers
import CopyControl.Proofs.Document.Reissue
