import JobSandbox.Proofs.Json.Records
import JobSandbox.Proofs.Report.Call
import JobSandbox.Proofs.Report.Echo
import JobSandbox.Report.Text

/-!
# Reports are read again

The text of a report is an object, and reading it gives the report: the calls, the last result, and
all that is told of the memory.  There are two limits.  Lengths and addresses have to be below the
end of the address space.  And a number in single precision is read by rounding, so what is said of
a report depends on its numbers being read as themselves.

## Main definitions

* `Single.ReadsBack`, `HostCall.IsReadable`, `Report.IsReadable` — what is read as itself.
* `Report.Printed` — a text in which a report can be found.

## Main results

* `HostCall.ofDocument_toJson`, `ResultValue.ofDocument_toJson` — calls and results are read again.
* `Report.ofText_of_ofChars`, `Report.survivesText_of_isReadable` — **so are reports.**
* `Report.exists_printed` — **what is printed of a report, apart from its calls and with them.**
-/

namespace JobSandbox

open Address

/-! ### Values -/

/-- A number that is read back from its text. -/
def Single.ReadsBack (x : Single) : Prop := Document.single (Json.single x).document = .ok x

/-! ### Calls and results -/

namespace HostCall

/-- A call whose numbers are read as themselves. -/
def IsReadable : HostCall → Prop
  | datasetLen length | datasetWrite length => length < addressSpace
  | progress x | sleep x => x.ReadsBack
  | _ => True

/-- **A call is read from its object.** -/
theorem ofDocument_toJson {call : HostCall} (h : call.IsReadable) (depth : ℕ) :
    ofDocument depth call.toJson.document = .ok call := by
  have hlength {length : ℕ} (hlt : length < addressSpace) :
      Document.nat addressSpace (.number (.ofInt length)) = .ok length :=
    Document.nat_ofInt (by decide) hlt
  cases call with
  | datasetLen length | datasetWrite length =>
    exact Document.tagged_of_fills rfl (by decide) (.required (hlength h) (.nil _))
      (List.forall_mem_singleton.mpr (Document.isContent_of_numeric (hlength h) _))
  | result kind payload =>
    have hkind : Document.nat UInt32.size (.number (.ofInt kind.toNat)) = .ok kind.toNat :=
      Document.nat_ofInt (by decide) kind.toNat_lt
    have hform : forms.find? (·.name == importName (result kind payload)) =
        some ⟨_, fun d => (fun r : UInt32 × Bytes => result r.1 r.2) <$> resultRecord.readKept d⟩ :=
      rfl
    refine (Document.tagged_of_fills hform (by decide) (.required (Document.uint32_ofInt kind)
      (.required (Document.base64_string payload) (.nil _))) ?_).trans rfl
    exact List.forall_mem_cons.mpr ⟨Document.isContent_of_numeric hkind _,
      List.forall_mem_singleton.mpr (Document.isContent_string _ _)⟩
  | log message =>
    exact Document.tagged_of_fills rfl (by decide)
      (.required (Document.base64_string message) (.nil _))
      (List.forall_mem_singleton.mpr (Document.isContent_string _ _))
  | progress x | sleep x =>
    exact Document.tagged_of_fills rfl (by decide) (.required h (.nil _))
      (List.forall_mem_singleton.mpr (Document.isContent_of_numeric h _))

end HostCall

namespace ResultValue

/-- **A result is read from its object.** -/
theorem ofDocument_toJson (value : ResultValue) (depth : ℕ) :
    ofDocument depth value.toJson.document = .ok value := by
  cases value with
  | integer n =>
    have hread := Document.int32_ofInt n
    exact Document.tagged_of_fills rfl (by decide) (.required hread (.nil _))
      (List.forall_mem_singleton.mpr (Document.isContent_of_numeric hread _))
  | bytes payload =>
    exact Document.tagged_of_fills rfl (by decide)
      (.required (Document.base64_string payload) (.nil _))
      (List.forall_mem_singleton.mpr (Document.isContent_string _ _))
  | string s =>
    exact Document.tagged_of_fills rfl (by decide) (.required rfl (.nil _))
      (List.forall_mem_singleton.mpr (Document.isContent_string _ _))

end ResultValue

/-! ### Parts of a report -/

theorem PolicyReport.read_toJson (policy : PolicyReport) :
    record.read policy.toJson.document = .ok policy := by
  refine Record.readWith_of_fills (by decide) ?_ _
  exact .required rfl (.required rfl (.required rfl (.nil _)))

/-- Lengths and addresses that are read. -/
structure DatasetReport.IsReadable (dataset : DatasetReport) : Prop where
  length_lt : dataset.length < addressSpace
  allocatedLength_lt : ∀ n ∈ dataset.allocatedLength, n < addressSpace

structure MemoryReport.IsReadable (memory : MemoryReport) : Prop where
  heapBase_lt : memory.heapBase < addressSpace
  highWaterMark_lt : ∀ n ∈ memory.highWaterMark, n < addressSpace
  pages_lt : memory.pages < addressSpace
  growCalls_lt : memory.growCalls < addressSpace

theorem Document.address_nat {n : ℕ} (h : n < addressSpace) :
    Document.address (Json.nat n).document = .ok n :=
  Document.nat_ofInt (by decide) h

theorem Document.optional_address {value : Option ℕ} (h : ∀ n ∈ value, n < addressSpace) :
    Document.optional Document.address (Json.optional .nat value).document = .ok value :=
  Document.optional_document (fun _ hnull => Document.noConfusion hnull)
    fun n hn => Document.address_nat (h n hn)

theorem DatasetReport.read_toJson {dataset : DatasetReport} (h : dataset.IsReadable) :
    record.read dataset.toJson.document = .ok dataset := by
  refine Record.readWith_of_fills (by decide) ?_ _
  exact .required (Document.address_nat h.length_lt)
    (.omissible (Document.optional_address h.allocatedLength_lt) (.required rfl (.nil _)))

theorem MemoryReport.read_toJson {memory : MemoryReport} (h : memory.IsReadable) :
    record.read memory.toJson.document = .ok memory := by
  refine Record.readWith_of_fills (by decide) ?_ _
  exact .omissible (Document.address_nat h.heapBase_lt)
    (.omissible (Document.optional_address h.highWaterMark_lt)
      (.omissible (Document.address_nat h.pages_lt)
        (.omissible (Document.address_nat h.growCalls_lt) (.nil _))))

/-! ### Reports -/

namespace Report

/-- A report whose numbers are read as themselves. -/
structure IsReadable (report : Report) : Prop where
  abiVersion_lt : report.abiVersion < UInt32.size
  dataset : report.dataset.IsReadable
  emitCount_lt : report.emitCount < addressSpace
  progress : ∀ x ∈ report.progress, x.ReadsBack
  sleeps : ∀ x ∈ report.sleeps, x.ReadsBack
  memory : report.memory.IsReadable
  calls : ∀ call ∈ report.calls, call.IsReadable

/-- Leaving out the calls leaves out their numbers. -/
theorem IsReadable.withoutCalls {report : Report} (h : report.IsReadable) :
    report.withoutCalls.IsReadable :=
  { h with calls := fun _ hcall => absurd hcall List.not_mem_nil }

/-- The report of an echo has only lengths and addresses. -/
theorem isReadable_ofEcho (policy : Policy) {data : Bytes} (hlength : data.length < addressSpace)
    {allocated : ℕ} (hallocated : allocated < addressSpace) {memory : MemoryReport}
    (hmemory : memory.IsReadable) : (ofEcho policy data allocated memory).IsReadable where
  abiVersion_lt := show Contract.abiVersion < UInt32.size by decide
  dataset := ⟨hlength, fun n hn => Option.some.inj hn ▸ hallocated⟩
  emitCount_lt := by
    show (1 + if policy.implicitResult = .placeholderZero then 1 else 0) < addressSpace
    split <;> decide
  progress x hx := absurd hx List.not_mem_nil
  sleeps x hx := absurd hx List.not_mem_nil
  memory := hmemory
  calls := by
    have hplaceholder : ∀ call ∈ policy.placeholder, call.IsReadable := by
      unfold Policy.placeholder
      split <;> simp [HostCall.IsReadable]
    have hemitted : (HostCall.result ResultKind.bytes.discriminant data).IsReadable := trivial
    simp only [ofEcho, List.forall_mem_append, List.forall_mem_cons]
    exact ⟨⟨⟨hlength, hlength, by simp⟩, hplaceholder⟩, hemitted, by simp⟩

/-- The document of a report is read as the report. -/
theorem read_toJson {report : Report} (h : report.IsReadable) :
    record.read report.toJson.document = .ok report := by
  have htext {s : Option String} :
      Document.optional Document.text (Json.optional .string s).document = .ok s :=
    Document.optional_document (fun _ hnull => Document.noConfusion hnull) fun _ _ => rfl
  have hresult : Document.optional (ResultValue.ofDocument 1)
      (Json.optional ResultValue.toJson report.result).document = .ok report.result :=
    Document.optional_document (fun _ hnull => Document.noConfusion hnull)
      fun value _ => value.ofDocument_toJson 1
  have hlogs : Document.list Document.text (Json.array (report.logs.map .string)).document =
      .ok report.logs := Document.list_document fun _ _ => rfl
  have hcalls : Document.list (HostCall.ofDocument 2)
      (Json.array (report.calls.map HostCall.toJson)).document = .ok report.calls :=
    Document.list_document fun call hcall => HostCall.ofDocument_toJson (h.calls call hcall) 2
  refine Record.readWith_of_fills (by decide) ?_ _
  exact .required rfl <| .required (Document.nat_ofInt (by decide) h.abiVersion_lt) <|
    .required report.policy.read_toJson <| .required rfl <| .omissible htext <|
    .omissible htext <| .required (DatasetReport.read_toJson h.dataset) <|
    .required (Document.address_nat h.emitCount_lt) <| .omissible hresult <|
    .required hlogs <| .required (Document.list_document h.progress) <|
    .required (Document.list_document h.sleeps) <|
    .required (MemoryReport.read_toJson h.memory) <| .required hcalls <| .nil _

/-- A text with the document of a report is read as the report. -/
theorem ofText_of_ofChars {text : String} {report : Report} {rest : List Char}
    (htext : Document.ofChars text.toList = (report.toJson.document, some rest))
    (hrest : rest.all Document.isGap = true) (h : report.IsReadable) :
    ofText text = .ok report := by
  rw [ofText, Document.readText, htext]
  simp [bind, Except.bind, read_toJson h, hrest]

/-- **A report is read from its text**, so the text keeps all of it. -/
theorem survivesText_of_isReadable {report : Report} (h : report.IsReadable) :
    report.survivesText = true := by
  have hends : NumberText.Ends ("" : String).toList := by
    intro c hc
    cases hc
  have htext := report.toJson.ofChars_text hends
  rw [String.append_empty] at htext
  rw [survivesText, ofText_of_ofChars htext rfl h]
  exact decide_eq_true rfl

/-! ### Reports that are printed -/

/-- A text in which a report can be found.  It is an object with the calls for its last field, and
what it says apart from them is `others`. -/
structure Printed (report : Report) (text : String) (others : List (String × Json)) : Prop where
  text_eq : text =
    (Json.object (others ++ [("calls", HostCall.transcript report.calls)])).prettyText ++ "\n"
  /-- The text is read as an object with these fields, and only the end of the line follows. -/
  ofChars_eq : Document.ofChars text.toList =
    (.object (Json.members (others ++ [("calls", HostCall.transcript report.calls)])) true,
      some ['\n'])
  names_eq : others.map Prod.fst =
    ["schema_version", "abi_version", "policy", "ok", "failure", "trap", "dataset", "emit_count",
      "result", "logs", "progress", "sleeps", "memory"]
  ok_mem : ("ok", .bool report.ok) ∈ others
  /-- The whole report is read from it, if its numbers are read as themselves. -/
  ofText_eq : report.IsReadable → ofText text = .ok report

/-- The fields of a report in front of its calls. -/
def fieldsBeforeCalls (report : Report) : List (String × Json) :=
  match report.toJson with
  | .object fields => fields.dropLast
  | _ => []

/-- No field in front of the calls depends on them. -/
theorem toJson_eq (report : Report) (calls : List HostCall) :
    ({ report with calls } : Report).toJson =
      .object (report.fieldsBeforeCalls ++ [("calls", HostCall.transcript calls)]) := rfl

/-- **What is printed of a report is the same but for its calls**, whatever these are. -/
theorem exists_printed (report : Report) :
    ∃ others, ∀ calls : List HostCall,
      let report := { report with calls }
      report.Printed (report.toJson.prettyText ++ "\n") others := by
  have hjson := report.toJson_eq
  have hok : ("ok", .bool report.ok) ∈ report.fieldsBeforeCalls := by
    simp [fieldsBeforeCalls, toJson]
  refine ⟨report.fieldsBeforeCalls, fun calls => ?_⟩
  intro printed
  have hends : NumberText.Ends ("\n" : String).toList := by
    intro c hc
    cases hc
    decide
  have htext : Document.ofChars (printed.toJson.prettyText ++ "\n").toList =
      (printed.toJson.document, some ['\n']) := printed.toJson.ofChars_prettyText hends
  refine ⟨congrArg (Json.prettyText · ++ "\n") (hjson calls), ?_, rfl, hok,
    fun hreadable => ofText_of_ofChars htext rfl hreadable⟩
  rw [htext, hjson calls, Json.document]

end Report
end JobSandbox
