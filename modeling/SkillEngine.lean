import SkillEngine.Attribute.Aggregation
import SkillEngine.Attribute.Basic
import SkillEngine.Attribute.Hook
import SkillEngine.Attribute.Modifier
import SkillEngine.Attribute.Request
import SkillEngine.Attribute.Sheet
import SkillEngine.Attribute.Table
import SkillEngine.Binary.Format
import SkillEngine.Condition.Basic
import SkillEngine.Condition.Eval
import SkillEngine.Context
import SkillEngine.Cue.Definition
import SkillEngine.Cue.Request
import SkillEngine.Cue.Stage
import SkillEngine.Dice
import SkillEngine.Dice.ChaCha
import SkillEngine.Dict
import SkillEngine.Effect.Clock
import SkillEngine.Effect.Definition
import SkillEngine.Effect.Instance
import SkillEngine.Effect.Request
import SkillEngine.Effect.Roster
import SkillEngine.Formula.Expr
import SkillEngine.Formula.Parser
import SkillEngine.Formula.Source
import SkillEngine.Formula.Token
import SkillEngine.Graph.Library
import SkillEngine.Graph.Node
import SkillEngine.Graph.Request
import SkillEngine.Graph.Skill
import SkillEngine.Ident
import SkillEngine.Json.Decode
import SkillEngine.Json.Printer
import SkillEngine.Json.Reader
import SkillEngine.Json.Value
import SkillEngine.Number.Decimal
import SkillEngine.Number.Exact
import SkillEngine.Number.Numeral
import SkillEngine.Number.Scalar
import SkillEngine.Number.Stored
import SkillEngine.Proofs.Absorption
import SkillEngine.Proofs.Accounting
import SkillEngine.Proofs.Ageing
import SkillEngine.Proofs.Aggregation
import SkillEngine.Proofs.Appearances
import SkillEngine.Proofs.Applications
import SkillEngine.Proofs.Arrears
import SkillEngine.Proofs.Attachment
import SkillEngine.Proofs.Backlog
import SkillEngine.Proofs.Bearing
import SkillEngine.Proofs.Bounds
import SkillEngine.Proofs.Burden
import SkillEngine.Proofs.Clocks
import SkillEngine.Proofs.Combinators
import SkillEngine.Proofs.Consistency
import SkillEngine.Proofs.Constants
import SkillEngine.Proofs.Counts
import SkillEngine.Proofs.Courses
import SkillEngine.Proofs.CueStages
import SkillEngine.Proofs.Decoding
import SkillEngine.Proofs.Deferral
import SkillEngine.Proofs.Dict
import SkillEngine.Proofs.Differences
import SkillEngine.Proofs.Documents
import SkillEngine.Proofs.Doses
import SkillEngine.Proofs.Doubles
import SkillEngine.Proofs.Edits
import SkillEngine.Proofs.Effort
import SkillEngine.Proofs.Enrolment
import SkillEngine.Proofs.Entities
import SkillEngine.Proofs.Expiry
import SkillEngine.Proofs.Floats
import SkillEngine.Proofs.Formats
import SkillEngine.Proofs.Gates
import SkillEngine.Proofs.Grammar
import SkillEngine.Proofs.Grants
import SkillEngine.Proofs.Halfway
import SkillEngine.Proofs.JsonText
import SkillEngine.Proofs.Leaves
import SkillEngine.Proofs.Ledgers
import SkillEngine.Proofs.Lexing
import SkillEngine.Proofs.Library
import SkillEngine.Proofs.Lifetime
import SkillEngine.Proofs.Likeness
import SkillEngine.Proofs.Limits
import SkillEngine.Proofs.Magnitudes
import SkillEngine.Proofs.Mirror
import SkillEngine.Proofs.Moves
import SkillEngine.Proofs.Nesting
import SkillEngine.Proofs.Notices
import SkillEngine.Proofs.Orderly
import SkillEngine.Proofs.Owners
import SkillEngine.Proofs.Paths
import SkillEngine.Proofs.Piles
import SkillEngine.Proofs.Ports
import SkillEngine.Proofs.Precision
import SkillEngine.Proofs.Prompt
import SkillEngine.Proofs.Protocol
import SkillEngine.Proofs.Pulses
import SkillEngine.Proofs.Reading
import SkillEngine.Proofs.Rechecks
import SkillEngine.Proofs.Registry
import SkillEngine.Proofs.Remakes
import SkillEngine.Proofs.Removals
import SkillEngine.Proofs.Repeats
import SkillEngine.Proofs.Requirements
import SkillEngine.Proofs.Returns
import SkillEngine.Proofs.Rolls
import SkillEngine.Proofs.Roster
import SkillEngine.Proofs.Rounding
import SkillEngine.Proofs.Searches
import SkillEngine.Proofs.Seclusion
import SkillEngine.Proofs.Session
import SkillEngine.Proofs.Sheet
import SkillEngine.Proofs.Shortest
import SkillEngine.Proofs.Snapshots
import SkillEngine.Proofs.Spelling
import SkillEngine.Proofs.Stacking
import SkillEngine.Proofs.Staleness
import SkillEngine.Proofs.Tables
import SkillEngine.Proofs.TagSets
import SkillEngine.Proofs.Tags
import SkillEngine.Proofs.Termination
import SkillEngine.Proofs.TickCalls
import SkillEngine.Proofs.TickOrder
import SkillEngine.Proofs.Tracking
import SkillEngine.Proofs.Transitions
import SkillEngine.Proofs.Turn
import SkillEngine.Proofs.Unions
import SkillEngine.Proofs.Visits
import SkillEngine.Proofs.Widening
import SkillEngine.Proofs.Writes
import SkillEngine.Reply
import SkillEngine.Report.Event
import SkillEngine.Report.State
import SkillEngine.Schema.Attribute
import SkillEngine.Schema.Basic
import SkillEngine.Schema.Condition
import SkillEngine.Schema.Effect
import SkillEngine.Schema.Encoded
import SkillEngine.Schema.Node
import SkillEngine.Subscribers
import SkillEngine.Tag.Basic
import SkillEngine.Tag.Counts
import SkillEngine.Tag.Hash
import SkillEngine.Tag.Request
import SkillEngine.Tag.Set
import SkillEngine.Text.Extending
import SkillEngine.Text.Quoted
import SkillEngine.Text.Ranges
import SkillEngine.Text.Unassigned
import SkillEngine.Text.Visible
import SkillEngine.World.Cascade
import SkillEngine.World.Config
import SkillEngine.World.Effects
import SkillEngine.World.Entity
import SkillEngine.World.Event
import SkillEngine.World.Frame
import SkillEngine.World.Lifecycle
import SkillEngine.World.Magnitude
import SkillEngine.World.Perform
import SkillEngine.World.Registry
import SkillEngine.World.Request
import SkillEngine.World.State
import SkillEngine.World.Walk
