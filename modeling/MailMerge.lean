import MailMerge.Address
import MailMerge.App
import MailMerge.Catalog
import MailMerge.CommandLine.Arguments
import MailMerge.CommandLine.Command
import MailMerge.CommandLine.Report
import MailMerge.Decimal.Binary64
import MailMerge.Decimal.Shortest
import MailMerge.Disk.Basic
import MailMerge.Disk.Fault
import MailMerge.Disk.Folder
import MailMerge.Disk.Outside
import MailMerge.Disk.Path
import MailMerge.Disk.Program
import MailMerge.Disk.Request
import MailMerge.Disk.Walk
import MailMerge.Envelope
import MailMerge.Fragments
import MailMerge.Json.Decode
import MailMerge.Json.Document
import MailMerge.Json.Number
import MailMerge.Json.Printer
import MailMerge.Keyed
import MailMerge.Main
import MailMerge.Marker
import MailMerge.Placeholder
import MailMerge.Proofs.Address.Grammar
import MailMerge.Proofs.Address.Rules
import MailMerge.Proofs.Addressing
import MailMerge.Proofs.Calls
import MailMerge.Proofs.Catalog
import MailMerge.Proofs.CommandLine.Disclosure
import MailMerge.Proofs.CommandLine.Options
import MailMerge.Proofs.CommandLine.Perform
import MailMerge.Proofs.CommandLine.Words
import MailMerge.Proofs.Composition
import MailMerge.Proofs.Dependence
import MailMerge.Proofs.Disk.Changes
import MailMerge.Proofs.Disk.Evolution
import MailMerge.Proofs.Disk.Keeping
import MailMerge.Proofs.Disk.Leads
import MailMerge.Proofs.Disk.Linkless
import MailMerge.Proofs.Disk.Names
import MailMerge.Proofs.Disk.PlainFolder
import MailMerge.Proofs.Disk.Sound
import MailMerge.Proofs.Disk.Tree
import MailMerge.Proofs.Disk.Untouched
import MailMerge.Proofs.Disk.Without
import MailMerge.Proofs.Durability
import MailMerge.Proofs.Enclosure
import MailMerge.Proofs.Independence
import MailMerge.Proofs.Json.Grammar
import MailMerge.Proofs.Json.Reading
import MailMerge.Proofs.Json.Record
import MailMerge.Proofs.Marker
import MailMerge.Proofs.Protection
import MailMerge.Proofs.Request
import MailMerge.Proofs.Scan
import MailMerge.Proofs.Seam
import MailMerge.Proofs.Segmentation
import MailMerge.Proofs.Session
import MailMerge.Proofs.SetUp
import MailMerge.Proofs.Settings.File
import MailMerge.Proofs.Settings.Yaml
import MailMerge.Proofs.Store.Agreement
import MailMerge.Proofs.Store.Coherence
import MailMerge.Proofs.Store.Confinement
import MailMerge.Proofs.Store.Content
import MailMerge.Proofs.Store.Dealing
import MailMerge.Proofs.Store.Errors
import MailMerge.Proofs.Store.Failure
import MailMerge.Proofs.Store.FileName
import MailMerge.Proofs.Store.Interruption
import MailMerge.Proofs.Store.Naming
import MailMerge.Proofs.Store.Protection
import MailMerge.Proofs.Store.Reading
import MailMerge.Proofs.Store.Refinement
import MailMerge.Proofs.Store.Rewriting
import MailMerge.Proofs.Store.RoundTrip
import MailMerge.Proofs.Store.Seeding
import MailMerge.Proofs.Store.Separation
import MailMerge.Proofs.Store.Settled
import MailMerge.Proofs.Store.Sharing
import MailMerge.Proofs.Store.Stages
import MailMerge.Proofs.Store.Upkeep
import MailMerge.Proofs.Store.View
import MailMerge.Proofs.Store.Writing
import MailMerge.Proofs.Text.Ascii
import MailMerge.Proofs.Text.Boundary
import MailMerge.Proofs.Text.Cutting
import MailMerge.Proofs.Text.Hexadecimal
import MailMerge.Proofs.Unreadable
import MailMerge.Proofs.Verdict
import MailMerge.Proofs.Wire
import MailMerge.Proofs.Yaml.Block
import MailMerge.Proofs.Yaml.Character
import MailMerge.Proofs.Yaml.Node
import MailMerge.Proofs.Yaml.Plain
import MailMerge.Proofs.Yaml.Quoted
import MailMerge.Proofs.Yaml.Style
import MailMerge.Proofs.Yaml.Token
import MailMerge.Rendering
import MailMerge.Scan
import MailMerge.Settings
import MailMerge.Settings.File
import MailMerge.Settings.Yaml
import MailMerge.Store.Basic
import MailMerge.Store.Directory
import MailMerge.Store.Either
import MailMerge.Store.Memory
import MailMerge.Store.Shelf
import MailMerge.Substitution
import MailMerge.Template
import MailMerge.TemplateError
import MailMerge.Text.Alphanumeric
import MailMerge.Text.Blank
import MailMerge.Text.Cutting
import MailMerge.Text.Hexadecimal
import MailMerge.Text.Quoted
import MailMerge.Text.Search
import MailMerge.Text.Split
import MailMerge.Text.Table
import MailMerge.Text.Utf8
import MailMerge.Text.Width
import MailMerge.Wire.Request
import MailMerge.Wire.Settings
import MailMerge.Wire.Template
import MailMerge.Yaml.Character
import MailMerge.Yaml.Decode
import MailMerge.Yaml.Node
import MailMerge.Yaml.Scalar
import MailMerge.Yaml.Style
import MailMerge.Yaml.Token
