import MessageArchive.CommandLine.Run
import MessageArchive.Settings.File
import MessageArchive.Envelope
import MessageArchive.Text.Quoted
import MessageArchive.Toml.Document
import MessageArchive.Archive.Archiver
import MessageArchive.Archive.Checksum
import MessageArchive.Digest.Sha256
import MessageArchive.Json.Quoted
import MessageArchive.Json.Value
import MessageArchive.Archive.Name
import MessageArchive.Template.Resolver
import MessageArchive.FileTree.Operations
import MessageArchive.Properties
import MessageArchive.Text.Enclosed
import MessageArchive.Text.Decimal
import MessageArchive.Text.Hex
import MessageArchive.Calendar.Format
import MessageArchive.CommandLine.Scope
import MessageArchive.FileTree.Changes
import MessageArchive.Main
import MessageArchive.Proofs.Audit.Traced
import MessageArchive.Proofs.Template.Grammar
import MessageArchive.Proofs.Template.LiteralValues
import MessageArchive.Proofs.FileTree.Keeping
import MessageArchive.Proofs.Archive.Writing
import MessageArchive.Proofs.FileTree.Ancestors
import MessageArchive.Proofs.Archive.AllOrNothing
import MessageArchive.Proofs.CommandLine.Keeping
import MessageArchive.Proofs.Archive.Preservation
import MessageArchive.Proofs.Archive.Candidates
import MessageArchive.Proofs.Archive.StayingBelow
import MessageArchive.Proofs.Archive.Searching
import MessageArchive.Proofs.Archive.Concurrent
import MessageArchive.Proofs.Archive.Ownership
import MessageArchive.Proofs.Archive.Sharing
import MessageArchive.Proofs.Template.Trails
import MessageArchive.Proofs.Archive.Trail
import MessageArchive.Proofs.Calendar.PatternLanguage
import MessageArchive.Proofs.Text.Trimming
import MessageArchive.Proofs.Digest.Standard
import MessageArchive.Proofs.Archive.Verifying
import MessageArchive.Proofs.FileTree.Adding
import MessageArchive.Proofs.CommandLine.Housekeeping
import MessageArchive.Proofs.Template.Clock
import MessageArchive.Proofs.Archive.Previewing
import MessageArchive.Proofs.CommandLine.Previewing
import MessageArchive.Proofs.Template.Failures
import MessageArchive.Proofs.Template.Strictness
import MessageArchive.Proofs.Template.Joining
import MessageArchive.Proofs.Calendar.Dates
import MessageArchive.Proofs.Calendar.Timestamps
import MessageArchive.Proofs.Archive.Endings
import MessageArchive.Proofs.Archive.HandingOut
import MessageArchive.Proofs.Template.Delivery
import MessageArchive.Proofs.Calendar.Fields
import MessageArchive.Proofs.Calendar.PatternLaws
import MessageArchive.Proofs.Calendar.Separators
import MessageArchive.Proofs.Archive.StayingFlat
import MessageArchive.Proofs.Json.Grammar
import MessageArchive.Proofs.Json.Lexing
import MessageArchive.Proofs.Json.Reading
import MessageArchive.Proofs.Json.Writing
import MessageArchive.Proofs.Message.Envelopes
import MessageArchive.Proofs.Template.Replacement
import MessageArchive.Proofs.Message.PropertyMap
import MessageArchive.Proofs.Archive.Outlasting
import MessageArchive.Proofs.FileTree.Standing
import MessageArchive.Proofs.Toml.Lines
import MessageArchive.Proofs.Settings.Settling
import MessageArchive.Template.Placeholder
import MessageArchive.Proofs.Text.Locating
import MessageArchive.Proofs.Template.Loops
