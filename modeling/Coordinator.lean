import Coordinator.Action
import Coordinator.Backend
import Coordinator.Binary64
import Coordinator.Bytes
import Coordinator.Client.Mysql
import Coordinator.Client.Postgres
import Coordinator.Client.Script
import Coordinator.Client.Sqlite
import Coordinator.Command
import Coordinator.Config.Basic
import Coordinator.Config.Block
import Coordinator.Config.Decode
import Coordinator.Config.Document
import Coordinator.Config.Duration
import Coordinator.Config.Load
import Coordinator.Config.Logging
import Coordinator.Config.Numeral
import Coordinator.Config.Source
import Coordinator.Config.Validate
import Coordinator.Decimal
import Coordinator.Deployment
import Coordinator.Drivers
import Coordinator.Engine.Basic
import Coordinator.Engine.Branch
import Coordinator.Engine.Statement
import Coordinator.ErrorClass
import Coordinator.Fault
import Coordinator.Host
import Coordinator.Journal
import Coordinator.Main
import Coordinator.Participant
import Coordinator.Plant
import Coordinator.Pool
import Coordinator.Proofs.Bytes
import Coordinator.Proofs.Client.Lost
import Coordinator.Proofs.Client.Parameters
import Coordinator.Proofs.Client.Release
import Coordinator.Proofs.Client.Statements
import Coordinator.Proofs.Command.Listing
import Coordinator.Proofs.Command.Outcome
import Coordinator.Proofs.Command.Screen
import Coordinator.Proofs.Config.Document
import Coordinator.Proofs.Config.Duration
import Coordinator.Proofs.Config.Numeral
import Coordinator.Proofs.Contract
import Coordinator.Proofs.Decimal
import Coordinator.Proofs.Deployment
import Coordinator.Proofs.Deployment.Sharing
import Coordinator.Proofs.Deployment.Wiring
import Coordinator.Proofs.Drive
import Coordinator.Proofs.Engine.Acceptance
import Coordinator.Proofs.Engine.Addressing
import Coordinator.Proofs.Engine.Branches
import Coordinator.Proofs.Engine.History
import Coordinator.Proofs.Engine.Isolation
import Coordinator.Proofs.Engine.Protocol
import Coordinator.Proofs.Engine.Representation
import Coordinator.Proofs.Engine.Run
import Coordinator.Proofs.Journal.Engine
import Coordinator.Proofs.Journal.Escape
import Coordinator.Proofs.Journal.Operations
import Coordinator.Proofs.Journal.Records
import Coordinator.Proofs.Plant.Agreement
import Coordinator.Proofs.Plant.Answers
import Coordinator.Proofs.Plant.Calls
import Coordinator.Proofs.Plant.Commits
import Coordinator.Proofs.Plant.Custody
import Coordinator.Proofs.Plant.Duplicate
import Coordinator.Proofs.Plant.Exchange
import Coordinator.Proofs.Plant.Gateway
import Coordinator.Proofs.Plant.Growth
import Coordinator.Proofs.Plant.Hygiene
import Coordinator.Proofs.Plant.Journal
import Coordinator.Proofs.Plant.Listing
import Coordinator.Proofs.Plant.Managed
import Coordinator.Proofs.Plant.Operations
import Coordinator.Proofs.Plant.Preparing
import Coordinator.Proofs.Plant.Recovery
import Coordinator.Proofs.Plant.Registered
import Coordinator.Proofs.Plant.Sweeping
import Coordinator.Proofs.Plant.Workshop
import Coordinator.Proofs.Pool.Interleaving
import Coordinator.Proofs.Pool.Lost
import Coordinator.Proofs.Pool.Steps
import Coordinator.Proofs.Registry.Interleaving
import Coordinator.Proofs.Registry.Steps
import Coordinator.Proofs.Registry.Traffic
import Coordinator.Proofs.Retry.AsOf
import Coordinator.Proofs.Retry.Attempts
import Coordinator.Proofs.Retry.Backoff
import Coordinator.Proofs.Retry.Brackets
import Coordinator.Proofs.Retry.Budget
import Coordinator.Proofs.Retry.Operand
import Coordinator.Proofs.Retry.Placement
import Coordinator.Proofs.Retry.Rounds
import Coordinator.Proofs.Retry.Version
import Coordinator.Proofs.Session.Guards
import Coordinator.Proofs.Session.Life
import Coordinator.Proofs.Session.Postgres
import Coordinator.Proofs.Sql.Binding
import Coordinator.Proofs.Sql.Cells
import Coordinator.Proofs.Sql.Grammar
import Coordinator.Proofs.Sql.Literal
import Coordinator.Proofs.Sql.Placeholders
import Coordinator.Proofs.Sql.Position
import Coordinator.Proofs.Sql.Reading
import Coordinator.Proofs.Table
import Coordinator.Proofs.Xa.Literal
import Coordinator.Proofs.Xa.Recovered
import Coordinator.Registry
import Coordinator.Rehearsal.Perform
import Coordinator.Rehearsal.Report
import Coordinator.Rehearsal.Stage
import Coordinator.Rehearsal.Step
import Coordinator.Retry.AsOf
import Coordinator.Retry.Dialect
import Coordinator.Retry.Manager
import Coordinator.Retry.Policy
import Coordinator.Retry.Version
import Coordinator.Session
import Coordinator.Sql.Literal
import Coordinator.Sql.Param
import Coordinator.Sql.Row
import Coordinator.Sql.Template
import Coordinator.Sql.Words
import Coordinator.Table
import Coordinator.Xa.Dialect
import Coordinator.Xa.Recovered
import Coordinator.Xa.State
import Coordinator.Xa.Xid
