import ObjectLedger.Acl.Text
import ObjectLedger.Bucket.Text
import ObjectLedger.Key.Text
import ObjectLedger.Proofs.Codec.Record
import ObjectLedger.Service.Commit
import ObjectLedger.Proofs.Service.Action
import ObjectLedger.Proofs.Service.Call
import ObjectLedger.Proofs.Store.Records
import ObjectLedger.Proofs.Key.Reconciliation
import ObjectLedger.Proofs.Service.Run
import ObjectLedger.Proofs.Key.Draft
import ObjectLedger.Proofs.Key.History
import ObjectLedger.Proofs.Store.Allocator
import ObjectLedger.Proofs.Service.Bucket
import ObjectLedger.Proofs.Service.Session
import ObjectLedger.Proofs.Service.Commit
import ObjectLedger.Proofs.Service.Deletion
import ObjectLedger.Proofs.Service.Step
import ObjectLedger.Proofs.Service.Generations
import ObjectLedger.Proofs.Service.Rollback
import ObjectLedger.Proofs.Service.Blocks
import ObjectLedger.Proofs.Store.Path
import ObjectLedger.Proofs.Store.Usage
import ObjectLedger.Proofs.Service.Usage
import ObjectLedger.Proofs.Key.Made
import ObjectLedger.Proofs.Bucket.RoundTrip
import ObjectLedger.Proofs.Codec.RoundTrip
import ObjectLedger.Proofs.Store.Isolation
import ObjectLedger.Proofs.Service.Repair
import ObjectLedger.Proofs.Store.Versions
import ObjectLedger.Proofs.Service.Versions
import ObjectLedger.Proofs.Service.Leaks
import ObjectLedger.Proofs.Service.Apart
import ObjectLedger.Proofs.Service.Quota
import ObjectLedger.Proofs.Service.Formed
import ObjectLedger.Proofs.Service.Removal
import ObjectLedger.Proofs.Service.Answer
import ObjectLedger.Proofs.Codec.Crc32
import ObjectLedger.Proofs.Codec.Damage
import ObjectLedger.Proofs.Codec.Decoded
import ObjectLedger.Proofs.Service.Order
import ObjectLedger.Proofs.Service.Histories
import ObjectLedger.Proofs.Service.Counter
import ObjectLedger.Proofs.Service.Lengths
import ObjectLedger.Proofs.Service.Course
import ObjectLedger.Proofs.Service.Commute
import ObjectLedger.Proofs.Key.Matching
import ObjectLedger.Proofs.Key.Edit
import ObjectLedger.Proofs.Store.GivenBack
import ObjectLedger.Proofs.Replication.Stripes
import ObjectLedger.Proofs.Replication.Fairness
import ObjectLedger.Proofs.Settings.RoundTrip
import ObjectLedger.Proofs.Acl.Grants
import ObjectLedger.Proofs.Acl.Text
import ObjectLedger.Proofs.Key.Handling
import ObjectLedger.Proofs.Service.Attempts
import ObjectLedger.Proofs.Replication.Text
import ObjectLedger.Proofs.Toml.Lines
import ObjectLedger.Proofs.Text.Order
import ObjectLedger.Proofs.Store.Listing
import ObjectLedger.Proofs.Service.Drawing
import ObjectLedger.Proofs.Store.Identities
