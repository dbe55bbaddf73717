import CandyDrop.Main
import CandyDrop.Proofs.Cache.RoundTrip
import CandyDrop.Proofs.Cluster.Effects
import CandyDrop.Proofs.Cluster.World
import CandyDrop.Proofs.Script.Runs
import CandyDrop.Proofs.Upload.Batches
import CandyDrop.Rehearsal.Ledger
import CandyDrop.Proofs.Cache.Marks
import CandyDrop.Proofs.Upload.Schedule
import CandyDrop.Proofs.Address.RoundTrip
import CandyDrop.Proofs.Upload.Survey
import CandyDrop.Proofs.Deploy.Create
import CandyDrop.Proofs.Upload.Merge
import CandyDrop.Proofs.Upload.Stages
import CandyDrop.Proofs.Upload.Written
import CandyDrop.Proofs.Rehearsal.Transcript
import CandyDrop.Proofs.Upload.Resume
import CandyDrop.Proofs.History.Soundness
import CandyDrop.Proofs.Upload.Payment
import CandyDrop.Proofs.Upload.Outcome
import CandyDrop.Proofs.Machine.Size
import CandyDrop.Proofs.History.Capacity
import CandyDrop.Proofs.Deploy.Recorded
import CandyDrop.Proofs.History.FirstRecord
import CandyDrop.Proofs.Mint.Outcome
import CandyDrop.Proofs.Text.ByteOrder
import CandyDrop.Proofs.Cache.FixedPoint
import CandyDrop.Proofs.Cache.Machine
import CandyDrop.Proofs.Script.Local
import CandyDrop.Proofs.Checks.Precedence
import CandyDrop.Proofs.History.NoTrace
import CandyDrop.Proofs.Upload.Again
import CandyDrop.Proofs.Token.Delegates
import CandyDrop.Proofs.Mint.Delegates
import CandyDrop.Proofs.History.Signers
import CandyDrop.Proofs.Upload.Coverage
import CandyDrop.Proofs.Upload.Division
import CandyDrop.Proofs.Script.Unaffected
import CandyDrop.Proofs.Upload.Unsaved
import CandyDrop.Proofs.Assets.Folder
import CandyDrop.Proofs.Upload.Items
import CandyDrop.Proofs.Mint.Shape
import CandyDrop.Proofs.Borsh.Exact
import CandyDrop.Proofs.Checks.Limits
import CandyDrop.Proofs.Config.EndSettings
import CandyDrop.Proofs.Config.RoundTrip
import CandyDrop.Proofs.Deploy.Collection
import CandyDrop.Proofs.Deploy.Settings
import CandyDrop.Proofs.History.Checked
import CandyDrop.Proofs.History.Creation
import CandyDrop.Proofs.Machine.Space
import CandyDrop.Proofs.Binary64.Power
import CandyDrop.Proofs.Config.Price
import CandyDrop.Proofs.History.Price
