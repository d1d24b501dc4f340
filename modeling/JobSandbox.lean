import JobSandbox.Address
import JobSandbox.Arena
import JobSandbox.Buffer
import JobSandbox.Bytes
import JobSandbox.CommandLine
import JobSandbox.CommandLine.Arguments
import JobSandbox.CommandLine.Files
import JobSandbox.Contract
import JobSandbox.Contract.Text
import JobSandbox.Dataset
import JobSandbox.Fault
import JobSandbox.Host
import JobSandbox.Job
import JobSandbox.Job.Execute
import JobSandbox.Job.Reference
import JobSandbox.Json
import JobSandbox.Json.Document
import JobSandbox.Json.Shape
import JobSandbox.Main
import JobSandbox.Memory
import JobSandbox.Memory.Scripted
import JobSandbox.Numeral
import JobSandbox.Policy
import JobSandbox.Policy.Resolve
import JobSandbox.Proofs.Address
import JobSandbox.Proofs.Arena.Access
import JobSandbox.Proofs.Arena.Bump
import JobSandbox.Proofs.Arena.Failure
import JobSandbox.Proofs.Arena.History
import JobSandbox.Proofs.Arena.Order
import JobSandbox.Proofs.Arena.Ownership
import JobSandbox.Proofs.Arena.Paged
import JobSandbox.Proofs.Arena.Serve
import JobSandbox.Proofs.Arena.Termination
import JobSandbox.Proofs.Arena.Tries
import JobSandbox.Proofs.Base64
import JobSandbox.Proofs.Blank
import JobSandbox.Proofs.CommandLine
import JobSandbox.Proofs.CommandLine.Simulate
import JobSandbox.Proofs.Dataset
import JobSandbox.Proofs.Delivery
import JobSandbox.Proofs.Fault
import JobSandbox.Proofs.Hex
import JobSandbox.Proofs.Host
import JobSandbox.Proofs.Ingestion
import JobSandbox.Proofs.Job.Capacity
import JobSandbox.Proofs.Job.Course
import JobSandbox.Proofs.Job.Execute
import JobSandbox.Proofs.Job.Isolation
import JobSandbox.Proofs.Job.Layout
import JobSandbox.Proofs.Job.Path
import JobSandbox.Proofs.Job.Requests
import JobSandbox.Proofs.Job.Transcript
import JobSandbox.Proofs.Json
import JobSandbox.Proofs.Json.Number
import JobSandbox.Proofs.Json.Reading
import JobSandbox.Proofs.Json.Records
import JobSandbox.Proofs.Line
import JobSandbox.Proofs.Line.Fronts
import JobSandbox.Proofs.Memory
import JobSandbox.Proofs.Numeral
import JobSandbox.Proofs.Numeral.Room
import JobSandbox.Proofs.Numeral.RoundTrip
import JobSandbox.Proofs.Placement
import JobSandbox.Proofs.Policy
import JobSandbox.Proofs.Policy.Spellings
import JobSandbox.Proofs.Report.Body
import JobSandbox.Proofs.Report.Call
import JobSandbox.Proofs.Report.Checksum
import JobSandbox.Proofs.Report.Consistency
import JobSandbox.Proofs.Report.Decoding
import JobSandbox.Proofs.Report.Echo
import JobSandbox.Proofs.Report.Numbers
import JobSandbox.Proofs.Report.Outcome
import JobSandbox.Proofs.Report.Placeholder
import JobSandbox.Proofs.Report.Reading
import JobSandbox.Proofs.Report.Trap
import JobSandbox.Proofs.Report.Words
import JobSandbox.Proofs.Result
import JobSandbox.Proofs.Rounding
import JobSandbox.Proofs.Single
import JobSandbox.Proofs.Single.Interval
import JobSandbox.Proofs.Single.Text
import JobSandbox.Proofs.Utf8
import JobSandbox.Proofs.Utf8.Encoding
import JobSandbox.Proofs.Words
import JobSandbox.Report
import JobSandbox.Report.Call
import JobSandbox.Report.Simulation
import JobSandbox.Report.Text
import JobSandbox.Report.Value
import JobSandbox.Result
import JobSandbox.Sha256
import JobSandbox.Single
import JobSandbox.Single.Shortest
import JobSandbox.Text.Base64
import JobSandbox.Text.Blank
import JobSandbox.Text.Hex
import JobSandbox.Text.Line
import JobSandbox.Text.Printable
import JobSandbox.Text.Quoted
import JobSandbox.Text.Utf8
import JobSandbox.Words
