import Bearer.Base64Url
import Bearer.Bytes
import Bearer.CommandLine.Arguments
import Bearer.CommandLine.Options
import Bearer.CommandLine.Run
import Bearer.Config.Basic
import Bearer.Config.Fault
import Bearer.Config.Load
import Bearer.Config.Resolve
import Bearer.Crypto.Aes256
import Bearer.Crypto.Gcm
import Bearer.Crypto.Hmac
import Bearer.Crypto.Seal
import Bearer.Crypto.Sha256
import Bearer.EnvFile
import Bearer.Error
import Bearer.FileSystem
import Bearer.Host
import Bearer.Json.Fault
import Bearer.Json.Printer
import Bearer.Json.Reader
import Bearer.Json.Reader.Number
import Bearer.Json.Reader.Skip
import Bearer.Json.Reader.Text
import Bearer.Json.Reader.Value
import Bearer.Json.Record
import Bearer.Json.Value
import Bearer.Key.Audit
import Bearer.Key.Basic
import Bearer.Key.Record
import Bearer.Key.Ring
import Bearer.Key.Store
import Bearer.Key.Store.Any
import Bearer.Key.Store.Files
import Bearer.Key.Store.Memory
import Bearer.Main
import Bearer.Number.Binary64
import Bearer.Number.Layout
import Bearer.Number.Notation
import Bearer.Number.Shortest
import Bearer.Proofs.Base64Url
import Bearer.Proofs.CommandLine.Lifetime
import Bearer.Proofs.Config.DefaultLifetime
import Bearer.Proofs.Config.EnvFiles
import Bearer.Proofs.Config.Override
import Bearer.Proofs.Crypto.Seal
import Bearer.Proofs.EnvFile
import Bearer.Proofs.FileSystem
import Bearer.Proofs.Json.Grammar.Distinct
import Bearer.Proofs.Json.Grammar.Number
import Bearer.Proofs.Json.Grammar.Object
import Bearer.Proofs.Json.Grammar.Text
import Bearer.Proofs.Json.Grammar.Value
import Bearer.Proofs.Json.Members
import Bearer.Proofs.Json.Number
import Bearer.Proofs.Json.Reader
import Bearer.Proofs.Json.Record
import Bearer.Proofs.Json.Sorted
import Bearer.Proofs.Json.Text
import Bearer.Proofs.Json.Value
import Bearer.Proofs.Key.Change
import Bearer.Proofs.Key.Consistency
import Bearer.Proofs.Key.Deletion
import Bearer.Proofs.Key.Encryption
import Bearer.Proofs.Key.Expiry
import Bearer.Proofs.Key.Race
import Bearer.Proofs.Key.Record
import Bearer.Proofs.Key.Request
import Bearer.Proofs.Key.Restart
import Bearer.Proofs.Key.Retry
import Bearer.Proofs.Key.Rotation
import Bearer.Proofs.Key.Section
import Bearer.Proofs.Key.Signing
import Bearer.Proofs.Key.Stock
import Bearer.Proofs.Key.Store
import Bearer.Proofs.Key.Store.Files
import Bearer.Proofs.Key.Store.Interruption
import Bearer.Proofs.Key.Store.Listing
import Bearer.Proofs.Key.Store.Refinement
import Bearer.Proofs.Key.Store.Unreliable
import Bearer.Proofs.Key.Store.Views
import Bearer.Proofs.Key.Table
import Bearer.Proofs.Key.Trail
import Bearer.Proofs.Named
import Bearer.Proofs.Outcome
import Bearer.Proofs.Run
import Bearer.Proofs.Settings.Document
import Bearer.Proofs.Settings.Inline
import Bearer.Proofs.Settings.Merge
import Bearer.Proofs.Settings.Reader
import Bearer.Proofs.Settings.Scalar
import Bearer.Proofs.Settings.Variable
import Bearer.Proofs.Text.Blank
import Bearer.Proofs.Text.Digits
import Bearer.Proofs.Text.Integer
import Bearer.Proofs.Text.Utf8
import Bearer.Proofs.Time.Calendar
import Bearer.Proofs.Time.Duration
import Bearer.Proofs.Time.DurationText
import Bearer.Proofs.Time.Instant
import Bearer.Proofs.Time.Rfc3339
import Bearer.Proofs.Token.Acceptance
import Bearer.Proofs.Token.Authentication
import Bearer.Proofs.Token.Canonical
import Bearer.Proofs.Token.Claims
import Bearer.Proofs.Token.Codec
import Bearer.Proofs.Token.Encrypted
import Bearer.Proofs.Token.Envelope
import Bearer.Proofs.Token.Explicit
import Bearer.Proofs.Token.Fault
import Bearer.Proofs.Token.Issue
import Bearer.Proofs.Token.Lifetime
import Bearer.Proofs.Token.Plain
import Bearer.Proofs.Token.Race
import Bearer.Proofs.Token.Segments
import Bearer.Proofs.Token.Superseded
import Bearer.Proofs.Token.Usable
import Bearer.Proofs.Uuid
import Bearer.Settings.Document
import Bearer.Settings.Reader
import Bearer.Settings.Tree
import Bearer.Settings.Variable
import Bearer.Text.Blank
import Bearer.Text.Digits
import Bearer.Text.Hex
import Bearer.Text.Integer
import Bearer.Text.Property
import Bearer.Text.Quoted
import Bearer.Text.Utf8
import Bearer.Time.Calendar
import Bearer.Time.Duration
import Bearer.Time.Instant
import Bearer.Time.Rfc3339
import Bearer.Time.Span
import Bearer.Token.Claims
import Bearer.Token.Envelope
import Bearer.Token.Service
import Bearer.Uuid
import Bearer.Yaml.Event
import Bearer.Yaml.Fault
import Bearer.Yaml.Glyph
import Bearer.Yaml.Scalar
import Bearer.Yaml.Tag
import Bearer.Yaml.Token
