import Helm.Data.Least
import Helm.Data.SlotSet
import Helm.Data.Table
import Helm.Definition.Library
import Helm.Definition.Node
import Helm.Definition.Reader
import Helm.Definition.Requirement
import Helm.Duel.Config
import Helm.Duel.Motion
import Helm.Duel.Play
import Helm.Fault
import Helm.Main
import Helm.Number.Decimal
import Helm.Number.Scalar
import Helm.Number.Shortest
import Helm.Number.Single
import Helm.Pilot.Action
import Helm.Pilot.Agent
import Helm.Pilot.Builder
import Helm.Pilot.Context
import Helm.Pilot.Controls
import Helm.Pilot.Fleet
import Helm.Pilot.Gunnery
import Helm.Pilot.Leaf
import Helm.Pilot.Outfit
import Helm.Pilot.Steering
import Helm.Pilot.Systems
import Helm.Pilot.Targeting
import Helm.Proofs.Definition.Cycles
import Helm.Proofs.Definition.Inlined
import Helm.Proofs.Definition.References
import Helm.Proofs.Definition.Search
import Helm.Proofs.Definition.Valid
import Helm.Proofs.Duel.Engagement
import Helm.Proofs.Duel.Motion
import Helm.Proofs.Duel.Outcome
import Helm.Proofs.Evaluation
import Helm.Proofs.Number.Equality
import Helm.Proofs.Number.Exact
import Helm.Proofs.Number.Monotone
import Helm.Proofs.Number.Order
import Helm.Proofs.Number.Packing
import Helm.Proofs.Number.Rounding
import Helm.Proofs.Number.Sign
import Helm.Proofs.Pilot.Aim
import Helm.Proofs.Pilot.Alert
import Helm.Proofs.Pilot.Assembly
import Helm.Proofs.Pilot.Caches
import Helm.Proofs.Pilot.Capability
import Helm.Proofs.Pilot.Commands
import Helm.Proofs.Pilot.Effect
import Helm.Proofs.Pilot.Failure
import Helm.Proofs.Pilot.Frame
import Helm.Proofs.Pilot.Inlining
import Helm.Proofs.Pilot.Memory
import Helm.Proofs.Pilot.Messages
import Helm.Proofs.Pilot.Mothership
import Helm.Proofs.Pilot.NormalForm
import Helm.Proofs.Pilot.Orders
import Helm.Proofs.Pilot.Pruning
import Helm.Proofs.Pilot.Recall
import Helm.Proofs.Pilot.Recharge
import Helm.Proofs.Pilot.Run
import Helm.Proofs.Pilot.Safety
import Helm.Proofs.Pilot.Scope
import Helm.Proofs.Pilot.Targeting
import Helm.Proofs.Pilot.Termination
import Helm.Proofs.Pilot.Validity
import Helm.Proofs.Pilot.Volley
import Helm.Proofs.Random.Draw
import Helm.Proofs.Random.Range
import Helm.Proofs.Random.Seed
import Helm.Proofs.Random.Share
import Helm.Proofs.Tree.Collapse
import Helm.Proofs.Tree.Expression
import Helm.Proofs.Tree.History
import Helm.Proofs.Tree.Invariant
import Helm.Proofs.Tree.Laws
import Helm.Proofs.Tree.Machine
import Helm.Proofs.Tree.NormalForm
import Helm.Proofs.Tree.Parallel
import Helm.Proofs.Tree.Rounds
import Helm.Proofs.Tree.Shares
import Helm.Proofs.Tree.Standstill
import Helm.Proofs.Tree.Visit
import Helm.Proofs.Tree.Watch
import Helm.Proofs.Tree.Wheel
import Helm.Proofs.World.Contact
import Helm.Proofs.World.Gap
import Helm.Proofs.World.Heading
import Helm.Proofs.World.History
import Helm.Proofs.World.Nearby
import Helm.Proofs.World.Scene
import Helm.Random.ChaCha
import Helm.Random.Dice
import Helm.Random.Draw
import Helm.Ron.Number
import Helm.Ron.Reader
import Helm.Ron.Text
import Helm.Ron.Value
import Helm.Settings.Basic
import Helm.Settings.Document
import Helm.Settings.Level
import Helm.Status
import Helm.Text.Identifier
import Helm.Text.Phrasebook
import Helm.Toml.Document
import Helm.Toml.Reader
import Helm.Toml.Scalar
import Helm.Toml.Text
import Helm.Toml.Value
import Helm.Tree.Collapse
import Helm.Tree.Node
import Helm.Tree.Threshold
import Helm.Tree.Wheel
import Helm.World.Loadout
import Helm.World.Scene
import Helm.World.Ship
import Helm.World.Threat
import Helm.World.Vec2
