import JobSandbox.Proofs.Base64
import JobSandbox.Proofs.Json
import JobSandbox.Report.Call

/-!
# What the record of a call keeps

A record keeps a call as text, and a reader of the text wants the call back: the bytes of a result
or a message, and which call it was.  The bytes are written as digits that they can be read from
again, and the rest is plain JSON, so no two calls have the same text.  Calls with numbers in single
precision are left out.

## Main definitions

* `HostCall.IsExact` — a call without a number in single precision.

## Main results

* `HostCall.toJson_injective` — a call can be told from its object.
* `HostCall.text_keeps` — **texts of calls keep all bytes, and tell the calls apart.**
-/

namespace JobSandbox
namespace HostCall

/-- A call without a number in single precision. -/
def IsExact (call : HostCall) : Prop := call.progress? = none ∧ call.sleep? = none

theorem IsExact.plain_toJson {call : HostCall} (h : call.IsExact) : call.toJson.Plain := by
  have hfields : ∀ field ∈ call.arguments, field.2.Plain := by
    cases call with
    | datasetLen length | datasetWrite length => simpa [arguments] using Json.plain_nat length
    | result kind payload =>
      simpa [arguments] using ⟨Json.plain_nat kind.toNat, Json.Plain.string _⟩
    | log message => simpa [arguments] using Json.Plain.string _
    | progress fraction => cases h.1
    | sleep seconds => cases h.2
  refine .object fun field hfield => ?_
  rcases List.mem_cons.mp hfield with rfl | hfield
  · exact .string _
  · exact hfields field hfield

/-- A call can be told from its object. -/
theorem toJson_injective : Function.Injective toJson := by
  intro call call' h
  obtain ⟨hname, harguments⟩ : call.importName = call'.importName ∧
      call.arguments = call'.arguments := by
    simpa [toJson] using h
  -- calls of different kinds differ in the import, and those of one kind in an argument
  cases call <;> cases call' <;>
    simp_all [importName, arguments, Json.nat_inj, Base64.ofBytes_injective.eq_iff,
      UInt32.toNat_inj, Contract.importDatasetLen, Contract.importDatasetWrite,
      Contract.importEmitResult, Contract.importLog, Contract.importProgress, Contract.importSleep]

/-! ### Bytes as text -/

/-- Digits stand for themselves in a string. -/
theorem stringChars_ofBytes (bytes : Bytes) :
    Json.stringChars (Base64.ofBytes bytes) = '"' :: (Base64.encode bytes ++ ['"']) := by
  have hplain : ∀ c ∈ Base64.padding :: Base64.alphabet, Json.escapeChar c = [c] :=
    List.all_iff_forall_prop.mp (by decide)
  have hdigits : ∀ c ∈ Base64.encode bytes, Json.escapeChar c = [c] := fun c hc =>
    hplain c ((Base64.encodes_encode bytes).mem_alphabet c hc)
  rw [Json.stringChars, Base64.ofBytes, String.toList_ofList, List.flatMap_congr hdigits,
    List.flatMap_singleton']

/-- The text of a call that emits a result. -/
theorem text_result (kind : UInt32) (payload : Bytes) :
    (result kind payload).toJson.text =
      "\x7b\"import\":\"result\",\"kind\":" ++ toString kind.toNat ++ ",\"payload_b64\":\"" ++
        Base64.ofBytes payload ++ "\"\x7d" := by
  have hkind : Json.intChars kind.toNat = Nat.toDigits 10 kind.toNat := rfl
  have hnumber : (toString kind.toNat).toList = Nat.toDigits 10 kind.toNat := Nat.toList_repr
  have hpayload : (Base64.ofBytes payload).toList = Base64.encode payload := String.toList_ofList
  rw [Json.text, ← String.toList_inj]
  simp only [toJson, importName, Contract.importEmitResult, arguments, Json.chars, Json.nat,
    Json.fieldsChars, stringChars_ofBytes, hkind, hnumber, hpayload, String.toList_append,
    String.toList_ofList, List.append_assoc, List.cons_append]
  rfl

example : (result 1 [1, 2, 3]).toJson.text =
    "\x7b\"import\":\"result\",\"kind\":1,\"payload_b64\":\"AQID\"\x7d" :=
  by decide

/-- The text of a call that logs a message. -/
theorem text_log (message : Bytes) :
    (log message).toJson.text =
      "\x7b\"import\":\"log\",\"message_b64\":\"" ++ Base64.ofBytes message ++ "\"\x7d" := by
  have hmessage : (Base64.ofBytes message).toList = Base64.encode message := String.toList_ofList
  rw [Json.text, ← String.toList_inj]
  simp only [toJson, importName, Contract.importLog, arguments, Json.chars, Json.fieldsChars,
    stringChars_ofBytes, hmessage, String.toList_append, String.toList_ofList, List.append_assoc,
    List.cons_append]
  rfl

/-! ### Transcripts -/

/-- Calls in their order, as a report has them. -/
def transcript (calls : List HostCall) : Json := .array (calls.map toJson)

theorem transcript_injective : Function.Injective transcript :=
  fun _ _ h => toJson_injective.list_map (Json.array.inj h)

theorem plain_transcript {calls : List HostCall} (h : ∀ call ∈ calls, call.IsExact) :
    (transcript calls).Plain := by
  refine .array fun item hitem => ?_
  obtain ⟨call, hcall, rfl⟩ := List.mem_map.mp hitem
  exact (h call hcall).plain_toJson

/-- **Texts of calls keep all bytes, and tell the calls apart.**  In the text of a call that has a
payload or a message, there are the padded digits of its bytes, and what is read of these digits are
the bytes.  No two calls have the same text, be it in one line or indented, unless they have numbers
in single precision; and no two transcripts of such calls. -/
theorem text_keeps :
    (∀ kind payload, ∃ digits, Base64.Encodes payload digits ∧
        Base64.decode? digits = some payload ∧
        (result kind payload).toJson.text =
          "\x7b\"import\":\"result\",\"kind\":" ++ toString kind.toNat ++ ",\"payload_b64\":\"" ++
            String.ofList digits ++ "\"\x7d") ∧
      (∀ message, ∃ digits, Base64.Encodes message digits ∧
        Base64.decode? digits = some message ∧
        (log message).toJson.text =
          "\x7b\"import\":\"log\",\"message_b64\":\"" ++ String.ofList digits ++ "\"\x7d") ∧
      (∀ call call' : HostCall, call.IsExact → call'.IsExact →
        call.toJson.text = call'.toJson.text ∨
          call.toJson.prettyText = call'.toJson.prettyText → call = call') ∧
      ∀ calls calls' : List HostCall, (∀ call ∈ calls ++ calls', call.IsExact) →
        (transcript calls).text = (transcript calls').text ∨
          (transcript calls).prettyText = (transcript calls').prettyText → calls = calls' := by
  refine ⟨?_, ?_, ?_, ?_⟩
  · intro kind payload
    exact ⟨Base64.encode payload, Base64.encodes_encode payload, Base64.decode?_encode payload,
      text_result kind payload⟩
  · intro message
    exact ⟨Base64.encode message, Base64.encodes_encode message, Base64.decode?_encode message,
      text_log message⟩
  · intro call call' hcall hcall' htext
    have hplain := hcall.plain_toJson
    have hplain' := hcall'.plain_toJson
    rw [Json.text_inj hplain hplain', Json.prettyText_inj hplain hplain', or_self] at htext
    exact toJson_injective htext
  · intro calls calls' hcalls htext
    have hplain := plain_transcript fun call hcall => hcalls call (List.mem_append_left _ hcall)
    have hplain' := plain_transcript fun call hcall => hcalls call (List.mem_append_right _ hcall)
    rw [Json.text_inj hplain hplain', Json.prettyText_inj hplain hplain', or_self] at htext
    exact transcript_injective htext

end HostCall
end JobSandbox
