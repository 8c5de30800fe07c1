import Minutes.Main
import Minutes.Roster.Writing
import Minutes.Proofs.Transcript.Effect
import Minutes.Proofs.Transcript.Interleaving
import Minutes.Proofs.Html.Token
import Minutes.Proofs.Html.Tree
import Minutes.Proofs.Document.WellFormed
import Minutes.Proofs.Html.Element
import Minutes.Proofs.Html.Links
import Minutes.Proofs.Transcript.Numbering
import Minutes.Proofs.Document.Anchors
import Minutes.Proofs.Document.SummaryLinks
import Minutes.Proofs.Publishing.IndexLinks
import Minutes.Proofs.Transcript.Scribing
import Minutes.Proofs.Transcript.Growth
import Minutes.Proofs.Transcript.Attendance
import Minutes.Proofs.Transcript.Attribution
import Minutes.Proofs.Document.Wording
import Minutes.Proofs.Roster.FirstClaimant
import Minutes.Proofs.Transcript.LineParts
import Minutes.Proofs.Transcript.Quotation
import Minutes.Proofs.Files.Path
import Minutes.Proofs.Files.Write
import Minutes.Proofs.Files.Folders
import Minutes.Proofs.Command.Noted
import Minutes.Proofs.Command.Changes
import Minutes.Proofs.Command.Lookups
import Minutes.Proofs.Command.Configured
import Minutes.Proofs.Command.Independence
import Minutes.Proofs.Toml.Strings
import Minutes.Proofs.Toml.Document
import Minutes.Proofs.Config.RoundTrip
import Minutes.Proofs.Text.Filling
import Minutes.Proofs.Text.FewestLines
import Minutes.Proofs.Text.Label
import Minutes.Proofs.Text.LowerCase
import Minutes.Proofs.Json.Written
import Minutes.Proofs.Roster.RoundTrip
import Minutes.Proofs.Publishing.Template
import Minutes.Proofs.Document.LineFeeds
import Minutes.Proofs.Document.BlankLines
import Minutes.Proofs.Publishing.Mail
import Minutes.Proofs.Document.Recording
import Minutes.Proofs.Document.Columns
import Minutes.Proofs.Html.Mentions
import Minutes.Proofs.Html.Targets
import Minutes.Proofs.Html.FirstLetter
import Minutes.Proofs.Transcript.Heading
import Minutes.Proofs.Transcript.Unusable
import Minutes.Proofs.Transcript.Precedence
import Minutes.Proofs.Transcript.RollCall
import Minutes.Proofs.Calendar.Forms
import Minutes.Proofs.Calendar.TimeStamp
import Minutes.Proofs.Calendar.InPath
import Minutes.Proofs.Publishing.Places
import Minutes.Proofs.Publishing.LiteralText
import Minutes.Proofs.Files.Descent
import Minutes.Proofs.Calendar.WrittenOrder
import Minutes.Proofs.Publishing.ArchiveScan
import Minutes.Proofs.Document.Outline
import Minutes.Proofs.Publishing.Announcement
