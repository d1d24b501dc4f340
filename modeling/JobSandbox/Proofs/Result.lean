import JobSandbox.Proofs.Utf8
import JobSandbox.Report.Simulation
import Mathlib.Algebra.Order.Group.Nat

/-!
# Results from the job to its host

A job writes its result into an envelope, and a host takes it out again with a reader of its own.
The two agree: whatever a job sends, its host understands as what was meant.  A text is meant by its
bytes; bytes of no text are still sent as such, and the host shows what it can read of them, with
replacements for the gaps.

The reader accepts all that an envelope can hold and no more, so a result can be sent on.  What is
sent on are the bytes that came in, save for replacements in a text.

## Main definitions

* `Envelope.Means` — what a job means by an envelope.
* `ResultValue.IsIn` — a result as it stands in a payload.
* `ResultValue.envelope` — the envelope in which a result is sent on.

## Main results

* `ResultValue.decode_eq_ok_iff` — what the reader makes of a discriminant and a payload.
* `Envelope.emit_decode` — **what is sent is read as it was meant, and can be sent on.**
-/

namespace JobSandbox

/-! ### Integers in four bytes -/

namespace Bytes

theorem littleEndian_lt (bytes : Bytes) : littleEndian bytes < 256 ^ bytes.length := by
  induction bytes with
  | nil => exact Nat.one_pos
  | cons b bytes ih =>
    have hb : b.toNat < 256 := b.toNat_lt
    rw [littleEndian_cons, List.length_cons, Nat.pow_succ]
    omega

/-- A number has one form in a given count of bytes. -/
theorem ofNat_littleEndian (bytes : Bytes) : ofNat bytes.length (littleEndian bytes) = bytes := by
  induction bytes with
  | nil => rfl
  | cons b bytes ih =>
    have hb : b.toNat < 256 := b.toNat_lt
    have hfirst : UInt8.ofNat (b.toNat + 256 * littleEndian bytes) = b := by
      rw [← UInt8.toNat_inj, UInt8.toNat_ofNat']
      omega
    have hrest : (b.toNat + 256 * littleEndian bytes) / 256 = littleEndian bytes := by omega
    rw [List.length_cons, littleEndian_cons, ofNat, hfirst, hrest, ih]

/-- Four bytes are those of one integer. -/
theorem eq_ofInt32_iff {bytes : Bytes} {v : Int32} :
    bytes = ofInt32 v ↔ bytes.length = 4 ∧ toInt32 bytes = v := by
  constructor
  · rintro rfl
    exact ⟨length_ofInt32 v, toInt32_ofInt32 v⟩
  · rintro ⟨hlength, rfl⟩
    -- the number of four bytes has 32 bits, so none is lost
    have hlt := littleEndian_lt bytes
    have hback := ofNat_littleEndian bytes
    rw [hlength] at hlt hback
    rw [ofInt32, toInt32, UInt32.toUInt32_toInt32, UInt32.toNat_ofNat_of_lt' hlt, hback]

end Bytes

/-! ### What is meant and what is read -/

theorem ResultKind.ofDiscriminant?_eq_some_iff {raw : UInt32} {kind : ResultKind} :
    ofDiscriminant? raw = some kind ↔ raw = kind.discriminant := by
  constructor
  · intro h
    unfold ofDiscriminant? at h
    split at h
    · next hraw => cases h; exact hraw
    split at h
    · next hraw => cases h; exact hraw
    split at h
    · next hraw => cases h; exact hraw
    · cases h
  · rintro rfl
    exact ofDiscriminant?_discriminant kind

/-- What a job means by an envelope. -/
inductive Envelope.Means : Envelope → ResultValue → Prop where
  | integer (value : Int32) : Means (.integer value) (.integer value)
  | bytes (payload : Bytes) : Means (.bytes payload) (.bytes payload)
  | text (text : String) : Means (.string (Bytes.ofText text)) (.string text)
  /-- Bytes of no text show what can be read of them. -/
  | replaced {payload : Bytes} {found : List (Option Char)}
      (hnone : ∀ text, payload ≠ Bytes.ofText text) (hreads : Utf8.Reads payload found) :
      Means (.string payload)
        (.string (String.ofList (found.map fun c => c.getD Utf8.replacement)))

namespace ResultValue

/-- The payload is one that stands for the value. -/
def IsIn (payload : Bytes) : ResultValue → Prop
  | integer value => payload = Bytes.ofInt32 value
  | bytes content => payload = content
  | string text => Utf8.lossy payload = text

/-- **What the reader makes of a discriminant and a payload.** -/
theorem decode_eq_ok_iff {raw : UInt32} {payload : Bytes} {value : ResultValue} :
    decode raw payload = .ok value ↔
      raw = value.kind.discriminant ∧ value.IsIn payload := by
  rw [← ResultKind.ofDiscriminant?_eq_some_iff, decode]
  cases hkind : ResultKind.ofDiscriminant? raw with
  | none => simp
  | some kind =>
    cases kind with
    | integer =>
      have hwidth : Contract.resultIntegerWidth = 4 := rfl
      by_cases hlength : payload.length = 4 <;> cases value <;>
        simp [ResultValue.kind, IsIn, Bytes.eq_ofInt32_iff, hwidth, hlength]
    | bytes => cases value <;> simp [ResultValue.kind, IsIn]
    | string => cases value <;> simp [ResultValue.kind, IsIn]

/-- The reader accepts integers of four bytes, all bytes and all texts. -/
theorem exists_decode_eq_ok_iff {raw : UInt32} {payload : Bytes} :
    (∃ value, decode raw payload = .ok value) ↔
      raw = 0 ∧ payload.length = 4 ∨ raw = 1 ∨ raw = 2 := by
  simp only [decode_eq_ok_iff]
  constructor
  · rintro ⟨value, rfl, hin⟩
    cases value with
    | integer value => exact .inl ⟨rfl, (Bytes.eq_ofInt32_iff.mp hin).1⟩
    | bytes content => exact .inr (.inl rfl)
    | string text => exact .inr (.inr rfl)
  · rintro (⟨rfl, hlength⟩ | rfl | rfl)
    · exact ⟨.integer (Bytes.toInt32 payload), rfl, Bytes.eq_ofInt32_iff.mpr ⟨hlength, rfl⟩⟩
    · exact ⟨.bytes payload, rfl, rfl⟩
    · exact ⟨.string (Utf8.lossy payload), rfl, rfl⟩

/-- The envelope in which a result is sent on. -/
def envelope : ResultValue → Envelope
  | integer value => .integer value
  | bytes content => .bytes content
  | string text => .string (Bytes.ofText text)

@[simp] theorem kind_envelope (value : ResultValue) : value.envelope.kind = value.kind := by
  cases value <;> rfl

theorem means_envelope (value : ResultValue) : value.envelope.Means value := by
  cases value with
  | integer value => exact .integer value
  | bytes content => exact .bytes content
  | string text => exact .text text

/-- Of a result that is no text, the payload is sent on as it came. -/
theorem payload_envelope {value : ResultValue} {payload : Bytes} (h : value.IsIn payload)
    (hkind : value.kind ≠ .string) : value.envelope.payload = payload := by
  cases value with
  | integer value => exact Eq.symm h
  | bytes content => exact Eq.symm h
  | string text => exact absurd rfl hkind

end ResultValue

namespace Envelope

variable {envelope : Envelope} {value : ResultValue}

/-- What is meant is of the same kind, and stands in the payload. -/
theorem means_iff :
    envelope.Means value ↔ envelope.kind = value.kind ∧ value.IsIn envelope.payload := by
  constructor
  · intro h
    cases h with
    | integer value => exact ⟨rfl, rfl⟩
    | bytes payload => exact ⟨rfl, rfl⟩
    | text text => exact ⟨rfl, Utf8.lossy_ofText text⟩
    | replaced hnone hreads =>
      refine ⟨rfl, ?_⟩
      rw [ResultValue.IsIn, payload, Utf8.lossy, hreads.scan_eq]
  · rintro ⟨hkind, hin⟩
    cases envelope with
    | integer v =>
      cases value with
      | integer w =>
        have hback : v = w := by
          rw [← Bytes.toInt32_ofInt32 v, ← Bytes.toInt32_ofInt32 w]
          exact congrArg Bytes.toInt32 hin
        exact hback ▸ .integer v
      | bytes | string => cases hkind
    | bytes payload =>
      cases value with
      | bytes content => exact (show payload = content from hin) ▸ .bytes payload
      | integer | string => cases hkind
    | string payload =>
      cases value with
      | string text =>
        have hlossy : Utf8.lossy payload = text := hin
        -- the bytes of a text are read as it, so they mean nothing else
        by_cases htext : ∃ text, payload = Bytes.ofText text
        · obtain ⟨text', rfl⟩ := htext
          rw [Utf8.lossy_ofText] at hlossy
          exact hlossy ▸ .text text'
        · rw [← hlossy]
          exact .replaced (fun text' heq => htext ⟨text', heq⟩) (Utf8.scan_eq_iff.mp rfl)
      | integer | bytes => cases hkind

/-- A job means something by every envelope. -/
theorem exists_means (envelope : Envelope) : ∃ value, envelope.Means value := by
  simp only [means_iff]
  cases envelope with
  | integer value => exact ⟨.integer value, rfl, rfl⟩
  | bytes payload => exact ⟨.bytes payload, rfl, rfl⟩
  | string payload => exact ⟨.string (Utf8.lossy payload), rfl, rfl⟩

/-- What a host has for its last result once an envelope has come. -/
theorem lastResult_perform_emit (host : Host) (envelope : Envelope) :
    (host.perform (.emit envelope)).2.lastResult =
      some (envelope.kind.discriminant, envelope.payload) := rfl

theorem decode_eq_ok_iff_means :
    ResultValue.decode envelope.kind.discriminant envelope.payload = .ok value ↔
      envelope.Means value := by
  have hinj : envelope.kind.discriminant = value.kind.discriminant ↔
      envelope.kind = value.kind := by
    rw [← ResultKind.ofDiscriminant?_eq_some_iff, ResultKind.ofDiscriminant?_discriminant,
      Option.some.injEq]
  rw [ResultValue.decode_eq_ok_iff, hinj, means_iff]

/-- A host reads the envelope that came last as it was meant. -/
theorem lastResult_emit_iff (host : Host) :
    Report.lastResult (host.perform (.emit envelope)).2 = .ok (some value) ↔
      envelope.Means value := by
  rw [← decode_eq_ok_iff_means, Report.lastResult, lastResult_perform_emit]
  dsimp only
  cases ResultValue.decode envelope.kind.discriminant envelope.payload with
  | ok value' => simp
  | error error => simp

/-- **What is sent is read as it was meant, and can be sent on.**  After every envelope, whatever
the host has seen before, its last result is what the envelope means: the integer, the bytes, the
text, or what can be read of bytes that are no text.  The reader accepts integers of four bytes, all
bytes and all texts.  What it has read can be sent on, and is read as the same again; and what is no
text is sent on in the bytes that came in. -/
theorem emit_decode :
    (∀ envelope : Envelope, ∃ value, envelope.Means value ∧
      ∀ host : Host, Report.lastResult (host.perform (.emit envelope)).2 = .ok (some value)) ∧
    (∀ raw payload, (∃ value, ResultValue.decode raw payload = .ok value) ↔
      raw = 0 ∧ payload.length = 4 ∨ raw = 1 ∨ raw = 2) ∧
    ∀ raw payload value, ResultValue.decode raw payload = .ok value →
      ∀ host : Host,
        Report.lastResult (host.perform (.emit value.envelope)).2 = .ok (some value) ∧
        (value.kind ≠ .string →
          (host.perform (.emit value.envelope)).2.lastResult = some (raw, payload)) := by
  refine ⟨?_, fun raw payload => ResultValue.exists_decode_eq_ok_iff, ?_⟩
  · intro envelope
    obtain ⟨value, hmeans⟩ := envelope.exists_means
    exact ⟨value, hmeans, fun host => (lastResult_emit_iff host).mpr hmeans⟩
  · intro raw payload value hdecode host
    obtain ⟨hraw, hin⟩ := ResultValue.decode_eq_ok_iff.mp hdecode
    refine ⟨(lastResult_emit_iff host).mpr value.means_envelope, ?_⟩
    intro hkind
    rw [lastResult_perform_emit, value.kind_envelope, ← hraw,
      ResultValue.payload_envelope hin hkind]

/-- The bytes 1 to 4 are read as an integer, and sent on as the same four bytes. -/
theorem emit_decode_of_four_bytes :
    ResultValue.decode 0 [1, 2, 3, 4] = .ok (.integer 0x04030201) ∧
      (Host.perform { dataset := [] }
        (.emit (ResultValue.integer 0x04030201).envelope)).2.lastResult =
          some (0, [1, 2, 3, 4]) := by
  have hdecode : ResultValue.decode 0 [1, 2, 3, 4] = .ok (.integer 0x04030201) := by decide
  have hkind : (ResultValue.integer 0x04030201).kind ≠ .string := by decide
  exact ⟨hdecode, (emit_decode.2.2 0 [1, 2, 3, 4] _ hdecode { dataset := [] }).2 hkind⟩

end Envelope
end JobSandbox
