import StagedCopy.Main
import StagedCopy.Rehearsal
import StagedCopy.Proofs.Copy.Phase
import StagedCopy.Proofs.Copy.Simulation
import StagedCopy.Proofs.Copy.History
import StagedCopy.Proofs.Copy.Publication
import StagedCopy.Proofs.Copy.Classification
import StagedCopy.Proofs.Memory.View
import StagedCopy.Proofs.Memory.Reachable
import StagedCopy.Proofs.Memory.FailStop
import StagedCopy.Proofs.Copy.Stores
import StagedCopy.Proofs.Copy.Atomicity
import StagedCopy.Proofs.Copy.Success
import StagedCopy.Proofs.Copy.Target
import StagedCopy.Proofs.Copy.Cleanup
import StagedCopy.Proofs.Path.Canonical
import StagedCopy.Proofs.Memory.Integrity
import StagedCopy.Proofs.ByteOrder
import StagedCopy.Proofs.Memory.Footprint
import StagedCopy.Proofs.Memory.Streams
import StagedCopy.Proofs.Copy.Rounds
import StagedCopy.Proofs.Copy.Requests
import StagedCopy.Proofs.Event.Statistics
import StagedCopy.Proofs.Observers
import StagedCopy.Proofs.Event.Task
import StagedCopy.Proofs.Event.Conduct
import StagedCopy.Proofs.Event.Delivery
import StagedCopy.Proofs.Copy.Observers
import StagedCopy.Proofs.Copy.Booking
import StagedCopy.Proofs.Copy.Redirection
import StagedCopy.Proofs.Memory.Alike
import StagedCopy.Proofs.Copy.Unread
import StagedCopy.Proofs.Copy.Residue
import StagedCopy.Proofs.Copy.Evidence
import StagedCopy.Proofs.Copy.Commutation
import StagedCopy.Proofs.Copy.Shared
import StagedCopy.Proofs.Copy.Promotion
import StagedCopy.Proofs.Copy.Spelling
import StagedCopy.Proofs.Crc32
import StagedCopy.Proofs.Checksum.Stores
import StagedCopy.Proofs.Checksum.Corruption
import StagedCopy.Proofs.Path.Normal
import StagedCopy.Proofs.Path.Plain
import StagedCopy.Proofs.Disk.Follow
import StagedCopy.Proofs.Disk.Sound
import StagedCopy.Proofs.Disk.Chain
import StagedCopy.Proofs.Disk.Vacant
import StagedCopy.Proofs.Local.Stream
import StagedCopy.Proofs.Local.Calls
import StagedCopy.Proofs.Local.Mirror
import StagedCopy.Proofs.Local.Answers
import StagedCopy.Proofs.Copy.OnDisk
import StagedCopy.Proofs.Copy.Calls
import StagedCopy.Proofs.Copy.Agreement
import StagedCopy.Proofs.Copy.Depth
import StagedCopy.Proofs.CommandLine
import StagedCopy.Proofs.Retry.Driver
import StagedCopy.Proofs.Copy.Staging
import StagedCopy.Proofs.Size
import StagedCopy.Proofs.Json.Numbers
import StagedCopy.Proofs.Config.Retry
import StagedCopy.Proofs.Config.Settings
import StagedCopy.Proofs.Throttle
import StagedCopy.Proofs.Config.Sizes
import StagedCopy.Proofs.Binary64
import StagedCopy.Proofs.Retry.Delay
import StagedCopy.Proofs.Throttle.Rate
import StagedCopy.Proofs.Event.Conservation
import StagedCopy.Proofs.Copy.Reporting
import StagedCopy.Proofs.Copy.Progress
import StagedCopy.Proofs.Path.Respelling
import StagedCopy.Proofs.Copy.StagingDirectory
import StagedCopy.Proofs.Path.Resolution
import StagedCopy.Proofs.Progress
import StagedCopy.Proofs.Memory.Keys
import StagedCopy.Proofs.Event.Table
