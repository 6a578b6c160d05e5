import CashWallet.Address
import CashWallet.Bytes.Basic
import CashWallet.Bytes.CompactSize
import CashWallet.Bytes.Cursor
import CashWallet.Bytes.Endian
import CashWallet.Bytes.Field
import CashWallet.Bytes.Hex
import CashWallet.Bytes.Layout
import CashWallet.Bytes.Read
import CashWallet.Bytes.Utf8
import CashWallet.Cache.Entry
import CashWallet.Cache.Ledger
import CashWallet.Cache.Store
import CashWallet.Codec.Error
import CashWallet.Curve.Modular
import CashWallet.Curve.Point
import CashWallet.Hash.Block
import CashWallet.Hash.Digest
import CashWallet.Hash.Ripemd160
import CashWallet.Hash.Sha256
import CashWallet.Json.Basic
import CashWallet.Json.Document
import CashWallet.Json.Literal
import CashWallet.Json.Parser
import CashWallet.Json.Pointer
import CashWallet.Json.Printer
import CashWallet.Json.Record
import CashWallet.Key.Private
import CashWallet.Key.Public
import CashWallet.Ledger.Amount
import CashWallet.Ledger.Broadcaster
import CashWallet.Ledger.Config
import CashWallet.Ledger.Dealing
import CashWallet.Ledger.Documents
import CashWallet.Ledger.Error
import CashWallet.Ledger.Exchange
import CashWallet.Ledger.Fees
import CashWallet.Ledger.Fetch
import CashWallet.Ledger.Flights
import CashWallet.Ledger.HistoryEntry
import CashWallet.Ledger.Market
import CashWallet.Ledger.Normalize
import CashWallet.Ledger.Reply
import CashWallet.Ledger.Schema
import CashWallet.Ledger.SchemaJson
import CashWallet.Ledger.Submission
import CashWallet.Ledger.Traffic
import CashWallet.Number.Binary64
import CashWallet.Number.Decimal
import CashWallet.Number.Digits
import CashWallet.Number.FloatParse
import CashWallet.Number.FloatText
import CashWallet.Number.Integer
import CashWallet.Number.Saturating
import CashWallet.Number.Shortest
import CashWallet.Proofs.Address
import CashWallet.Proofs.Bytes.Cursor
import CashWallet.Proofs.Bytes.Fields
import CashWallet.Proofs.Bytes.HexText
import CashWallet.Proofs.Bytes.Layout
import CashWallet.Proofs.Bytes.ReadBack
import CashWallet.Proofs.Bytes.Sessions
import CashWallet.Proofs.Bytes.Utf8
import CashWallet.Proofs.Cache.ReadBack
import CashWallet.Proofs.Curve.Group
import CashWallet.Proofs.Json.Document
import CashWallet.Proofs.Json.Members
import CashWallet.Proofs.Json.NumberText
import CashWallet.Proofs.Json.ReadBack
import CashWallet.Proofs.Key.Forms
import CashWallet.Proofs.Key.ImportFormat
import CashWallet.Proofs.Ledger.Amounts
import CashWallet.Proofs.Ledger.Backends
import CashWallet.Proofs.Ledger.Canonical
import CashWallet.Proofs.Ledger.Classification
import CashWallet.Proofs.Ledger.Drafts
import CashWallet.Proofs.Ledger.Fields
import CashWallet.Proofs.Ledger.IdForms
import CashWallet.Proofs.Ledger.PushedIds
import CashWallet.Proofs.Ledger.Refusals
import CashWallet.Proofs.Ledger.Settling
import CashWallet.Proofs.Ledger.SubmittedIds
import CashWallet.Proofs.Ledger.Table
import CashWallet.Proofs.Ledger.Traffic
import CashWallet.Proofs.Ledger.Unspents
import CashWallet.Proofs.Number.Decimal
import CashWallet.Proofs.Number.Digits
import CashWallet.Proofs.Number.Integer
import CashWallet.Proofs.Number.Numeral
import CashWallet.Proofs.Results
import CashWallet.Proofs.Script.Assembly
import CashWallet.Proofs.Script.Chunks
import CashWallet.Proofs.Script.Grammar
import CashWallet.Proofs.Script.KeyHash
import CashWallet.Proofs.Script.Pushes
import CashWallet.Proofs.Script.Stack
import CashWallet.Proofs.Signature.Der
import CashWallet.Proofs.Signature.Ecdsa
import CashWallet.Proofs.Signature.Strict
import CashWallet.Proofs.Text.Base58
import CashWallet.Proofs.Transaction.Agreement
import CashWallet.Proofs.Transaction.Bounds
import CashWallet.Proofs.Transaction.Commitment
import CashWallet.Proofs.Transaction.Control
import CashWallet.Proofs.Transaction.Coverage
import CashWallet.Proofs.Transaction.FewestInputs
import CashWallet.Proofs.Transaction.Funding
import CashWallet.Proofs.Transaction.Layout
import CashWallet.Proofs.Transaction.Metered
import CashWallet.Proofs.Transaction.Reordering
import CashWallet.Proofs.Transaction.Selection
import CashWallet.Proofs.Transaction.Signing
import CashWallet.Proofs.Transaction.Size
import CashWallet.Proofs.Transaction.Unlocking
import CashWallet.Proofs.Transaction.WireForm
import CashWallet.Proofs.TxId
import CashWallet.Proofs.Wallet.Calls
import CashWallet.Proofs.Wallet.Cooperation
import CashWallet.Proofs.Wallet.Course
import CashWallet.Proofs.Wallet.Folders
import CashWallet.Proofs.Wallet.Lifecycle
import CashWallet.Proofs.Wallet.OwnHistory
import CashWallet.Proofs.Wallet.Payment
import CashWallet.Proofs.Wallet.Reloads
import CashWallet.Proofs.Wallet.Restoring
import CashWallet.Proofs.Wallet.Sessions
import CashWallet.Proofs.Wallet.Spendable
import CashWallet.Proofs.Wallet.Stages
import CashWallet.Record
import CashWallet.Script.Assembly
import CashWallet.Script.Basic
import CashWallet.Script.Chunk
import CashWallet.Script.Error
import CashWallet.Script.Opcode
import CashWallet.Script.Scan
import CashWallet.Script.Stack
import CashWallet.Signature.Basic
import CashWallet.Signature.Ecdsa
import CashWallet.Signature.Nonce
import CashWallet.Text.Base58
import CashWallet.Text.Printable
import CashWallet.Text.Quoted
import CashWallet.Text.Whitespace
import CashWallet.Toml.Basic
import CashWallet.Toml.Document
import CashWallet.Toml.Parser
import CashWallet.Toml.Record
import CashWallet.Toml.Scalar
import CashWallet.Transaction.Basic
import CashWallet.Transaction.Build
import CashWallet.Transaction.Digest
import CashWallet.Transaction.Error
import CashWallet.Transaction.Fee
import CashWallet.Transaction.Layout
import CashWallet.Transaction.Metered
import CashWallet.Transaction.Selection
import CashWallet.Transaction.Sign
import CashWallet.Transaction.Unlock
import CashWallet.TxId
import CashWallet.Wallet.Basic
import CashWallet.Wallet.Change
import CashWallet.Wallet.Config
import CashWallet.Wallet.Error
import CashWallet.Wallet.Send
import CashWallet.Wallet.SendHistory
import CashWallet.Wallet.SendState
import CashWallet.Wallet.Session
import CashWallet.Wallet.Shared
