import JobSandbox.Report
import JobSandbox.Report.Call
import JobSandbox.Report.Value

/-!
# Reports as text

A report is written as a JSON object with a field for each of its own.  It can be read again, by
rules that are more lenient: fields may come in another order, and among others; values that may be
absent may be left out, and so may anything about the memory.

## Main definitions

* `Report.toJson`, and one for each part of a report — how they are written.
* `Report.record`, and one for each part of a report — how they are read.
* `Report.survivesText` — whether a report is what its text is read as.
-/

namespace JobSandbox

/-- A length or an address, which is below the end of the address space. -/
def Document.address : Document → Except ReadError Nat := Document.nat Address.addressSpace

namespace PolicyReport

def toJson (policy : PolicyReport) : Json :=
  .object
    [("granularity", .string policy.granularity),
      ("implicit_result", .string policy.implicitResult),
      ("placeholder_emitted", .bool policy.placeholderEmitted)]

def record : Record PolicyReport where
  blank := {}
  fields :=
    [.required "granularity" Document.text fun v r => { r with granularity := v },
      .required "implicit_result" Document.text fun v r => { r with implicitResult := v },
      .required "placeholder_emitted" Document.boolean fun v r =>
        { r with placeholderEmitted := v }]

end PolicyReport

namespace DatasetReport

def toJson (dataset : DatasetReport) : Json :=
  .object
    [("len", .nat dataset.length),
      ("allocated_len", .optional .nat dataset.allocatedLength),
      ("sha256", .string dataset.sha256)]

def record : Record DatasetReport where
  blank := {}
  fields :=
    [.required "len" Document.address fun v r => { r with length := v },
      .omissible "allocated_len" (Document.optional Document.address) fun v r =>
        { r with allocatedLength := v },
      .required "sha256" Document.text fun v r => { r with sha256 := v }]

end DatasetReport

namespace MemoryReport

def toJson (memory : MemoryReport) : Json :=
  .object
    [("heap_base", .nat memory.heapBase),
      ("high_water_mark", .optional .nat memory.highWaterMark),
      ("pages", .nat memory.pages),
      ("grow_calls", .nat memory.growCalls)]

/-- Anything about the memory may be left out. -/
def record : Record MemoryReport where
  blank := {}
  fields :=
    [.omissible "heap_base" Document.address fun v r => { r with heapBase := v },
      .omissible "high_water_mark" (Document.optional Document.address) fun v r =>
        { r with highWaterMark := v },
      .omissible "pages" Document.address fun v r => { r with pages := v },
      .omissible "grow_calls" Document.address fun v r => { r with growCalls := v }]
  mayEndEarly := true

end MemoryReport

namespace Report

def toJson (report : Report) : Json :=
  .object
    [("schema_version", .string report.schemaVersion),
      ("abi_version", .nat report.abiVersion),
      ("policy", report.policy.toJson),
      ("ok", .bool report.ok),
      ("failure", .optional .string report.failure),
      ("trap", .optional .string report.trap),
      ("dataset", report.dataset.toJson),
      ("emit_count", .nat report.emitCount),
      ("result", .optional ResultValue.toJson report.result),
      ("logs", .array (report.logs.map .string)),
      ("progress", .array (report.progress.map .single)),
      ("sleeps", .array (report.sleeps.map .single)),
      ("memory", report.memory.toJson),
      ("calls", .array (report.calls.map HostCall.toJson))]

/-- How reports are read.  The result is nested in the report, and a call in a list too. -/
def record : Record Report where
  blank := {}
  fields :=
    [.required "schema_version" Document.text fun v r => { r with schemaVersion := v },
      .required "abi_version" (Document.nat UInt32.size) fun v r => { r with abiVersion := v },
      .required "policy" PolicyReport.record.read fun v r => { r with policy := v },
      .required "ok" Document.boolean fun v r => { r with ok := v },
      .omissible "failure" (Document.optional Document.text) fun v r => { r with failure := v },
      .omissible "trap" (Document.optional Document.text) fun v r => { r with trap := v },
      .required "dataset" DatasetReport.record.read fun v r => { r with dataset := v },
      .required "emit_count" Document.address fun v r => { r with emitCount := v },
      .omissible "result" (Document.optional (ResultValue.ofDocument 1)) fun v r =>
        { r with result := v },
      .required "logs" (Document.list Document.text) fun v r => { r with logs := v },
      .required "progress" (Document.list Document.single) fun v r => { r with progress := v },
      .required "sleeps" (Document.list Document.single) fun v r => { r with sleeps := v },
      .required "memory" MemoryReport.record.read fun v r => { r with memory := v },
      .required "calls" (Document.list (HostCall.ofDocument 2)) fun v r => { r with calls := v }]

/-- The report of a text. -/
def ofText : String → Except ReadError Report := Document.readText record.read

/-- Whether reading the text of a report gives the report again. -/
def survivesText (report : Report) : Bool :=
  match ofText report.toJson.text with
  | .ok again => again = report
  | .error _ => false

end Report
end JobSandbox
