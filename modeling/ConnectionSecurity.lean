import ConnectionSecurity.Asn1.Element
import ConnectionSecurity.Asn1.Header
import ConnectionSecurity.Asn1.Leaf
import ConnectionSecurity.Asn1.Time
import ConnectionSecurity.Base64
import ConnectionSecurity.Bytes
import ConnectionSecurity.Calendar
import ConnectionSecurity.Certificate
import ConnectionSecurity.CommandLine.Arguments
import ConnectionSecurity.CommandLine.Footprint
import ConnectionSecurity.CommandLine.Run
import ConnectionSecurity.Credential.Basic
import ConnectionSecurity.Credential.Check
import ConnectionSecurity.Credential.Chooser
import ConnectionSecurity.Credential.Contents
import ConnectionSecurity.Credential.Decoding
import ConnectionSecurity.Failure
import ConnectionSecurity.Field
import ConnectionSecurity.FileSystem.Basic
import ConnectionSecurity.FileSystem.Operations
import ConnectionSecurity.FileSystem.Walk
import ConnectionSecurity.Json
import ConnectionSecurity.Main
import ConnectionSecurity.Method.Basic
import ConnectionSecurity.Method.CaChooser
import ConnectionSecurity.Method.Edit
import ConnectionSecurity.Method.Menu
import ConnectionSecurity.Method.Password
import ConnectionSecurity.Method.Tls
import ConnectionSecurity.Method.Tunnel
import ConnectionSecurity.Path
import ConnectionSecurity.Pem
import ConnectionSecurity.Profile.Basic
import ConnectionSecurity.Profile.Codec
import ConnectionSecurity.Profile.File
import ConnectionSecurity.Profile.Setting
import ConnectionSecurity.Proofs.Asn1.Element
import ConnectionSecurity.Proofs.CommandLine.Validate
import ConnectionSecurity.Proofs.Credential.BinaryKey
import ConnectionSecurity.Proofs.Credential.Check
import ConnectionSecurity.Proofs.Demand
import ConnectionSecurity.Proofs.Except
import ConnectionSecurity.Proofs.FileSystem.Canonical
import ConnectionSecurity.Proofs.FileSystem.Growth
import ConnectionSecurity.Proofs.FileSystem.Seat
import ConnectionSecurity.Proofs.Method.ClientCert
import ConnectionSecurity.Proofs.Method.Fit
import ConnectionSecurity.Proofs.Method.Gate
import ConnectionSecurity.Proofs.Method.Invariant
import ConnectionSecurity.Proofs.Method.Nag
import ConnectionSecurity.Proofs.Method.OpenKey
import ConnectionSecurity.Proofs.Method.Reopen
import ConnectionSecurity.Proofs.Method.SameSettings
import ConnectionSecurity.Proofs.Method.Secrecy
import ConnectionSecurity.Proofs.Method.Waiver
import ConnectionSecurity.Proofs.Page.Gate
import ConnectionSecurity.Proofs.Page.Load
import ConnectionSecurity.Proofs.Page.Nag
import ConnectionSecurity.Proofs.Page.Refusal
import ConnectionSecurity.Proofs.Page.Reopen
import ConnectionSecurity.Proofs.Page.Run
import ConnectionSecurity.Proofs.Page.Save
import ConnectionSecurity.Proofs.Page.Secrecy
import ConnectionSecurity.Proofs.Pem
import ConnectionSecurity.Proofs.Profile.Secrecy
import ConnectionSecurity.Proofs.Profile.Setting
import ConnectionSecurity.Proofs.Secret.Control
import ConnectionSecurity.Proofs.Security.Gate
import ConnectionSecurity.Proofs.Security.Invariant
import ConnectionSecurity.Proofs.Security.Reopen
import ConnectionSecurity.Proofs.Security.SameSettings
import ConnectionSecurity.Proofs.Security.Secrecy
import ConnectionSecurity.Proofs.Security.Written
import ConnectionSecurity.Proofs.Toml.Document
import ConnectionSecurity.Proofs.Toml.Name
import ConnectionSecurity.Proofs.Waiver.Document
import ConnectionSecurity.Proofs.Waiver.Editors
import ConnectionSecurity.Proofs.Waiver.Persist
import ConnectionSecurity.Proofs.Waiver.Pool
import ConnectionSecurity.Proofs.Waiver.Rows
import ConnectionSecurity.Proofs.Waiver.Shelf
import ConnectionSecurity.Proofs.Waiver.Store
import ConnectionSecurity.Proofs.Waiver.Table
import ConnectionSecurity.Secret.Control
import ConnectionSecurity.Secret.Flags
import ConnectionSecurity.Secret.Policy
import ConnectionSecurity.Security.Basic
import ConnectionSecurity.Security.Enterprise
import ConnectionSecurity.Security.Kind
import ConnectionSecurity.Security.Page
import ConnectionSecurity.Security.Personal
import ConnectionSecurity.Security.Wep
import ConnectionSecurity.Security.WirelessLeap
import ConnectionSecurity.Session
import ConnectionSecurity.Settings.Basic
import ConnectionSecurity.Settings.Locations
import ConnectionSecurity.Settings.Schema
import ConnectionSecurity.Text.Ascii
import ConnectionSecurity.Text.Blank
import ConnectionSecurity.Text.Split
import ConnectionSecurity.Toml.Document
import ConnectionSecurity.Toml.Moment
import ConnectionSecurity.Toml.Number
import ConnectionSecurity.Toml.Plain
import ConnectionSecurity.Toml.Printer
import ConnectionSecurity.Toml.Quoted
import ConnectionSecurity.Toml.Record
import ConnectionSecurity.Toml.Table
import ConnectionSecurity.Toml.Value
import ConnectionSecurity.Validation
import ConnectionSecurity.Waiver.Store
import ConnectionSecurity.Waiver.Table
import ConnectionSecurity.Proofs.Page.Order
import ConnectionSecurity.Proofs.Security.Shape
import ConnectionSecurity.Proofs.Page.Residue
import ConnectionSecurity.Proofs.Page.Shape
import ConnectionSecurity.Proofs.Credential.Holding
import ConnectionSecurity.Proofs.Method.References
import ConnectionSecurity.Proofs.Page.References
import ConnectionSecurity.Proofs.Security.HiddenKey
import ConnectionSecurity.Proofs.Page.HiddenKey
import ConnectionSecurity.Proofs.Page.Adhoc
import ConnectionSecurity.Proofs.Text.Pieces
import ConnectionSecurity.Proofs.Toml.Quoted
import ConnectionSecurity.Proofs.Toml.Number
import ConnectionSecurity.Proofs.Toml.Inline
import ConnectionSecurity.Proofs.Toml.Tree
import ConnectionSecurity.Proofs.Toml.Record
import ConnectionSecurity.Proofs.Secret.FlagText
import ConnectionSecurity.Proofs.Profile.Document
import ConnectionSecurity.Proofs.Secret.Merge
import ConnectionSecurity.Proofs.Method.SecretFlags
import ConnectionSecurity.Proofs.Security.SecretFlags
import ConnectionSecurity.Proofs.Security.Switching
import ConnectionSecurity.Proofs.Security.StartingPolicy
import ConnectionSecurity.Proofs.Page.SecretFlags
import ConnectionSecurity.Proofs.Page.Choice
import ConnectionSecurity.Proofs.Page.StartingPolicy
import ConnectionSecurity.Proofs.Security.KeyTable
import ConnectionSecurity.Proofs.Page.FreshStart
import ConnectionSecurity.Proofs.Method.InnerSlot
import ConnectionSecurity.Proofs.Page.StaysValid
import ConnectionSecurity.Proofs.Page.Link
import ConnectionSecurity.Proofs.Text.Lossy
import ConnectionSecurity.Proofs.Credential.Contents
import ConnectionSecurity.Proofs.Credential.Container
import ConnectionSecurity.Proofs.Method.KeyChoice
import ConnectionSecurity.Proofs.Secret.History
