import FleetControl.Catalog.Visits
import FleetControl.Main
import FleetControl.Signal.Session
import FleetControl.Wait.Details
import FleetControl.Proofs.Schedule
import FleetControl.Proofs.Permits
import FleetControl.Proofs.Calls
import FleetControl.Proofs.Clearance
import FleetControl.Proofs.InOrder
import FleetControl.Proofs.Course
import FleetControl.Proofs.Alone
import FleetControl.Proofs.Abreast
import FleetControl.Proofs.Isolation
import FleetControl.Proofs.Completion
import FleetControl.Proofs.Waiting
import FleetControl.Proofs.Timetable
import FleetControl.Proofs.Decision
import FleetControl.Proofs.Interruption
import FleetControl.Proofs.Cancellation
import FleetControl.Proofs.Sharing
import FleetControl.Proofs.Retention
import FleetControl.Proofs.Redraw
import FleetControl.Proofs.BatchLog
import FleetControl.Proofs.Trimming
import FleetControl.Proofs.Division
import FleetControl.Proofs.Assignments
import FleetControl.Proofs.Spelling
import FleetControl.Proofs.Candidates
import FleetControl.Proofs.Verdict
import FleetControl.Proofs.Resumption
import FleetControl.Proofs.Punctuality
import FleetControl.Proofs.Attendance
import FleetControl.Proofs.Attribution
import FleetControl.Proofs.Schema
import FleetControl.Proofs.Records
import FleetControl.Proofs.PercentCoding
import FleetControl.Proofs.Segments
import FleetControl.Proofs.Hosts
import FleetControl.Proofs.Fronts
import FleetControl.Proofs.Joining
import FleetControl.Proofs.ResourceUrls
import FleetControl.Proofs.Matching
import FleetControl.Proofs.Relisting
import FleetControl.Proofs.Casing
import FleetControl.Proofs.Reaching
import FleetControl.Proofs.Tolerance
import FleetControl.Proofs.Awaiting
import FleetControl.Proofs.Freezing
import FleetControl.Proofs.Inspection
import FleetControl.Proofs.Emptiness
import FleetControl.Proofs.Plainness
import FleetControl.Proofs.Abridgement
import FleetControl.Proofs.Refusals
import FleetControl.Proofs.Blame
import FleetControl.Proofs.Retelling
import FleetControl.Proofs.Bodiless
import FleetControl.Proofs.Room
import FleetControl.Proofs.Overflow
import FleetControl.Proofs.Accumulation
import FleetControl.Proofs.Precedence
import FleetControl.Proofs.Truncation
