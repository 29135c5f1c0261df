import SessionCache.Association
import SessionCache.Cache.Activation
import SessionCache.Cache.Callbacks
import SessionCache.Cache.Capacity
import SessionCache.Cache.Checkout
import SessionCache.Cache.Inspection
import SessionCache.Cache.Passivation
import SessionCache.Cache.Resident
import SessionCache.Cache.Settings
import SessionCache.Cache.Sweeper
import SessionCache.Cache.Sweeping
import SessionCache.Cache.Usage
import SessionCache.Cache.World
import SessionCache.Command.Opening
import SessionCache.Command.Output
import SessionCache.Command.Records
import SessionCache.Command.Request
import SessionCache.Command.Run
import SessionCache.Command.Site
import SessionCache.Command.Sources
import SessionCache.Command.Switch
import SessionCache.Command.Words
import SessionCache.Config.Discovery
import SessionCache.Config.Document
import SessionCache.Config.Error
import SessionCache.Config.Json
import SessionCache.Config.Layer
import SessionCache.Config.Resolved
import SessionCache.Config.StoreKind
import SessionCache.Decimal.Double
import SessionCache.Decimal.Shortest
import SessionCache.Files.Path
import SessionCache.Files.Tree
import SessionCache.Files.Walk
import SessionCache.Json.Numeral
import SessionCache.Json.Printer
import SessionCache.Json.Tree
import SessionCache.Json.Value
import SessionCache.Logging.Filter
import SessionCache.Logging.Pattern.Atom
import SessionCache.Logging.Pattern.Bracket
import SessionCache.Logging.Pattern.Validity
import SessionCache.Main
import SessionCache.Proofs.Absence
import SessionCache.Proofs.Ages
import SessionCache.Proofs.Association
import SessionCache.Proofs.Atomicity
import SessionCache.Proofs.Automaton
import SessionCache.Proofs.Cache.History
import SessionCache.Proofs.Cache.Rounds
import SessionCache.Proofs.Cache.Slots
import SessionCache.Proofs.Cache.Usage
import SessionCache.Proofs.Chronicle
import SessionCache.Proofs.Command.Overriding
import SessionCache.Proofs.Command.Records
import SessionCache.Proofs.Config.Precedence
import SessionCache.Proofs.Config.Resolving
import SessionCache.Proofs.Config.Showing
import SessionCache.Proofs.Conservation
import SessionCache.Proofs.Drain
import SessionCache.Proofs.Exec
import SessionCache.Proofs.Expiry
import SessionCache.Proofs.Failure
import SessionCache.Proofs.Farewell
import SessionCache.Proofs.Json.Canonical
import SessionCache.Proofs.Json.Compact
import SessionCache.Proofs.Json.Reading
import SessionCache.Proofs.Legality
import SessionCache.Proofs.Lookups
import SessionCache.Proofs.Overdue
import SessionCache.Proofs.Phases
import SessionCache.Proofs.Punctuality
import SessionCache.Proofs.Recency
import SessionCache.Proofs.Record.Basket
import SessionCache.Proofs.Record.Envelope
import SessionCache.Proofs.Record.Judging
import SessionCache.Proofs.Record.Recovery
import SessionCache.Proofs.Refinement
import SessionCache.Proofs.Reinstatement
import SessionCache.Proofs.Removal
import SessionCache.Proofs.Residency
import SessionCache.Proofs.Safekeeping
import SessionCache.Proofs.Session.Key
import SessionCache.Proofs.Session.Naming
import SessionCache.Proofs.Session.Order
import SessionCache.Proofs.Session.Spelling
import SessionCache.Proofs.Simulation.Lossless
import SessionCache.Proofs.Simulation.Past
import SessionCache.Proofs.Simulation.Shelf
import SessionCache.Proofs.Store.Agreement
import SessionCache.Proofs.Store.Calls
import SessionCache.Proofs.Store.Clear
import SessionCache.Proofs.Store.Contents
import SessionCache.Proofs.Store.Folder
import SessionCache.Proofs.Store.Holding
import SessionCache.Proofs.Store.Purging
import SessionCache.Proofs.Store.Reach
import SessionCache.Proofs.Store.Writing
import SessionCache.Proofs.Time.Calendar
import SessionCache.Proofs.Time.Timestamp
import SessionCache.Proofs.Traffic.Ageing
import SessionCache.Proofs.Traffic.Alone
import SessionCache.Proofs.Traffic.Basic
import SessionCache.Proofs.Traffic.Departing
import SessionCache.Proofs.Traffic.Exchange
import SessionCache.Proofs.Traffic.Firing
import SessionCache.Proofs.Traffic.Handling
import SessionCache.Proofs.Traffic.Keeping
import SessionCache.Proofs.Traffic.Ledger
import SessionCache.Proofs.Traffic.Places
import SessionCache.Proofs.Traffic.Procession
import SessionCache.Proofs.Traffic.Recording
import SessionCache.Proofs.Traffic.Scene
import SessionCache.Proofs.Traffic.Serving
import SessionCache.Proofs.Traffic.Sleeping
import SessionCache.Proofs.Traffic.Sound
import SessionCache.Proofs.Traffic.Steps
import SessionCache.Proofs.Traffic.Telling
import SessionCache.Proofs.Traffic.Upkeep
import SessionCache.Proofs.Traffic.Waiting
import SessionCache.Record.Cart
import SessionCache.Record.Envelope
import SessionCache.Scenario.Answer
import SessionCache.Scenario.Focus
import SessionCache.Scenario.Outside
import SessionCache.Scenario.Passing
import SessionCache.Scenario.Perform
import SessionCache.Scenario.Script
import SessionCache.Scenario.Step
import SessionCache.Scenario.Stored
import SessionCache.Scenario.Tracking
import SessionCache.Session.Error
import SessionCache.Session.Key
import SessionCache.Session.Stage
import SessionCache.Simulation.Basket
import SessionCache.Simulation.Summary
import SessionCache.Simulation.Workload
import SessionCache.Store.Backend
import SessionCache.Store.DatabaseName
import SessionCache.Store.Directory
import SessionCache.Store.Folder
import SessionCache.Store.Memory
import SessionCache.Store.Sessions
import SessionCache.Store.Table
import SessionCache.Text.Characters
import SessionCache.Text.Hex
import SessionCache.Text.Letters
import SessionCache.Time.Calendar
import SessionCache.Time.Instant
import SessionCache.Time.Timestamp
import SessionCache.Toml.Document
import SessionCache.Toml.Numbers
import SessionCache.Toml.Strings
import SessionCache.Toml.Table
import SessionCache.Toml.Written
