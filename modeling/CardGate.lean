import CardGate.Card.Brand
import CardGate.Card.Display
import CardGate.Card.FieldName
import CardGate.Card.Luhn
import CardGate.Card.Number
import CardGate.Card.Record
import CardGate.Cipher.Aes
import CardGate.Cipher.Gcm
import CardGate.Cipher.Sealing
import CardGate.Counter
import CardGate.Error
import CardGate.Hygiene.Clean
import CardGate.Hygiene.Injection
import CardGate.Icap.Chunked
import CardGate.Icap.Connection
import CardGate.Icap.Error
import CardGate.Icap.Headers
import CardGate.Icap.HttpHead
import CardGate.Icap.Message
import CardGate.Icap.Reply
import CardGate.Icap.Request
import CardGate.Icap.RequestLine
import CardGate.Icap.Room
import CardGate.Icap.Source
import CardGate.Json.Basic
import CardGate.Json.Fault
import CardGate.Json.Printer
import CardGate.Json.Reader
import CardGate.Keys.Cipher
import CardGate.Keys.DualMode
import CardGate.Keys.Hierarchy
import CardGate.Keys.Material
import CardGate.Keys.Rotation
import CardGate.Limiter
import CardGate.Pattern.Basic
import CardGate.Pattern.Search
import CardGate.Proofs.Card.Checksum
import CardGate.Proofs.Card.Coverage
import CardGate.Proofs.Card.Ends
import CardGate.Proofs.Card.Shapes
import CardGate.Proofs.Cipher.Opening
import CardGate.Proofs.Hygiene.Entities
import CardGate.Proofs.Hygiene.Evasion
import CardGate.Proofs.Hygiene.Harmless
import CardGate.Proofs.Hygiene.Remains
import CardGate.Proofs.Icap.Announced
import CardGate.Proofs.Icap.Answer
import CardGate.Proofs.Icap.ChunkedForm
import CardGate.Proofs.Icap.ChunkedRoundTrip
import CardGate.Proofs.Icap.CutOff
import CardGate.Proofs.Icap.Grammar
import CardGate.Proofs.Icap.Layout
import CardGate.Proofs.Icap.Limits
import CardGate.Proofs.Icap.LineLimit
import CardGate.Proofs.Icap.Lines
import CardGate.Proofs.Icap.Repeated
import CardGate.Proofs.Icap.Rooms
import CardGate.Proofs.Icap.RoundTrip
import CardGate.Proofs.Icap.SizeLine
import CardGate.Proofs.Icap.Writing
import CardGate.Proofs.Json.Collected
import CardGate.Proofs.Json.Grammar
import CardGate.Proofs.Json.Number
import CardGate.Proofs.Json.Path
import CardGate.Proofs.Json.Quoted
import CardGate.Proofs.Json.RoundTrip
import CardGate.Proofs.Json.Written
import CardGate.Proofs.Keys.Durability
import CardGate.Proofs.Keys.Hierarchy
import CardGate.Proofs.Keys.Inventory
import CardGate.Proofs.Keys.TextForm
import CardGate.Proofs.Limiter.Counters
import CardGate.Proofs.Limiter.Grants
import CardGate.Proofs.Limiter.Independence
import CardGate.Proofs.Limiter.Lockout
import CardGate.Proofs.Limiter.Run
import CardGate.Proofs.Limiter.Sweep
import CardGate.Proofs.Pattern.Classes
import CardGate.Proofs.Pattern.Cut
import CardGate.Proofs.Pattern.Deletion
import CardGate.Proofs.Pattern.Ends
import CardGate.Proofs.Pattern.InOrder
import CardGate.Proofs.Pattern.Language
import CardGate.Proofs.Pattern.Spans
import CardGate.Proofs.Settings.Independence
import CardGate.Proofs.Substitution.Deposit
import CardGate.Proofs.Substitution.Detokenized
import CardGate.Proofs.Substitution.Discretion
import CardGate.Proofs.Substitution.Frame
import CardGate.Proofs.Substitution.OneStep
import CardGate.Proofs.Substitution.Passing
import CardGate.Proofs.Substitution.PieceByPiece
import CardGate.Proofs.Substitution.Repeated
import CardGate.Proofs.Substitution.Resolved
import CardGate.Proofs.Substitution.Restored
import CardGate.Proofs.Substitution.Simultaneous
import CardGate.Proofs.Substitution.Sites
import CardGate.Proofs.Substitution.Tokenized
import CardGate.Proofs.Text.Base64
import CardGate.Proofs.Text.Broken
import CardGate.Proofs.Text.Lowercase
import CardGate.Proofs.Text.Numeral
import CardGate.Proofs.Text.Replace
import CardGate.Proofs.Text.Runs
import CardGate.Proofs.Text.Words
import CardGate.Proofs.Token.Found
import CardGate.Proofs.Token.Numbers
import CardGate.Proofs.Token.Occurrences
import CardGate.Proofs.Token.Recognised
import CardGate.Proofs.Token.Rewritten
import CardGate.Proofs.Token.Shape
import CardGate.Proofs.Validation.HandedOn
import CardGate.Proofs.Validation.Revalidated
import CardGate.Proofs.Validation.Violations
import CardGate.Proofs.Vault.Coherence
import CardGate.Proofs.Vault.Durability
import CardGate.Proofs.Vault.Shared
import CardGate.Proofs.Vault.WriteOnce
import CardGate.Settings.Environment
import CardGate.Settings.Gateway
import CardGate.Status
import CardGate.Substitution.Document
import CardGate.Substitution.Ledger
import CardGate.Substitution.Payload
import CardGate.Text.Base64
import CardGate.Text.Base64.Lemmas
import CardGate.Text.Blank
import CardGate.Text.Case
import CardGate.Text.Concealed
import CardGate.Text.Lowercase
import CardGate.Text.Numeral
import CardGate.Text.Quoted
import CardGate.Text.Replace
import CardGate.Text.Utf8
import CardGate.Text.Utf8.Lemmas
import CardGate.Text.WordChar
import CardGate.Token.Draw
import CardGate.Token.Format
import CardGate.Validation.Field
import CardGate.Validation.Rule
import CardGate.Validation.Validator
import CardGate.Vault
