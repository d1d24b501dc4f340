import JobSandbox.Proofs.Report.Call
import JobSandbox.Proofs.Single.Text

/-!
# What the record keeps of a number

A job may report any number at all as its progress or as a pause, and the host takes it as it is.
In the text of the record a finite number can be told by its digits, signed zeros and the least
numbers included.  For the numbers that are not finite there are no digits in JSON, and all of them
are written as `null`, so that the two infinities read the same.

Nothing else is lost.  A call can be told from its text up to that, and so can all calls of a
transcript.

## Main definitions

* `Single.noted`, `HostCall.noted` — a number, and a call, as far as its text keeps it.

## Main results

* `HostCall.write_eq_iff`, `HostCall.write_transcript_eq_iff` — which texts are the same.
* `HostCall.text_tells_numbers` — **a text tells a number exactly if the number is finite.**
-/

namespace JobSandbox

open NumberText (Ends)

/-! ### Numbers -/

namespace Single

/-- A number as far as its text keeps it: all that are not finite are taken for one. -/
def noted (x : Single) : Single := if x.isFinite then x else ⟨0x7f800000⟩

theorem noted_eq_iff {x y : Single} :
    x.noted = y.noted ↔ x = y ∨ x.isFinite = false ∧ y.isFinite = false := by
  have hinfinite : (⟨0x7f800000⟩ : Single).isFinite = false := rfl
  unfold noted
  split <;> split <;> grind

theorem noted_noted (x : Single) : x.noted.noted = x.noted := by
  rw [noted_eq_iff]
  unfold noted
  split
  · exact .inl rfl
  · next hx => exact .inr ⟨rfl, Bool.eq_false_iff.mpr hx⟩

theorem singleChars_noted (x : Single) : Json.singleChars x.noted = Json.singleChars x := by
  unfold noted
  split
  · rfl
  · next hx =>
    rw [Json.singleChars, Json.singleChars, if_neg hx]
    rfl

end Single

namespace HostCall

open Json (EndsNumber Style Writes WritesSingles)

/-! ### Calls -/

/-- A call as far as its text keeps it. -/
def noted : HostCall → HostCall
  | progress fraction => progress fraction.noted
  | sleep seconds => sleep seconds.noted
  | call => call

theorem noted_noted (call : HostCall) : call.noted.noted = call.noted := by
  cases call with
  | progress x => exact congrArg progress x.noted_noted
  | sleep x => exact congrArg sleep x.noted_noted
  | _ => rfl

/-- Calls of one import are of one kind. -/
theorem kinds_of_importName_eq {call call' : HostCall} (h : call.importName = call'.importName) :
    call.IsExact ∧ call'.IsExact ∨ (∃ x y, call = progress x ∧ call' = progress y) ∨
      ∃ x y, call = sleep x ∧ call' = sleep y := by
  cases call <;> cases call' <;>
    simp_all [importName, IsExact, progress?, sleep?, Contract.importDatasetLen,
      Contract.importDatasetWrite, Contract.importEmitResult, Contract.importLog,
      Contract.importProgress, Contract.importSleep]

section Writes

variable {style : Style} {write : ℕ → Json → List Char} {depth : ℕ} {call call' : HostCall}
  {x y : Single} {name : String} {r s : List Char}

/-- The import of a call can be told from its text, and what follows it are the arguments. -/
theorem importName_of_write (hwrite : Writes style write)
    (h : write depth call.toJson ++ r = write depth call'.toJson ++ s) :
    call.importName = call'.importName ∧
      style.entries depth (style.field (write (depth + 1))) Json.closeBrace call.arguments ++ r =
        style.entries depth (style.field (write (depth + 1))) Json.closeBrace call'.arguments ++
          s := by
  simp only [toJson, hwrite.object, hwrite.string, Style.enclosed, Style.field, List.cons_append,
    List.append_assoc] at h
  obtain ⟨-, hbehind⟩ := Json.stringChars_append_inj (List.append_cancel_left (List.cons.inj h).2)
  exact Json.stringChars_append_inj (List.append_cancel_left (List.cons.inj hbehind).2)

/-- A finite number that is the last argument can be told from what is left of the text. -/
theorem single_of_write (hwrite : WritesSingles style write)
    (h : style.entries depth (style.field (write (depth + 1))) Json.closeBrace
        [(name, .single x)] ++ r =
      style.entries depth (style.field (write (depth + 1))) Json.closeBrace
        [(name, .single y)] ++ s) :
    x.noted = y.noted ∧ r = s := by
  have hends (r : List Char) : Ends (style.newLine depth ++ (Json.closeBrace :: r)) := by
    have hclosed : Ends (style.entries depth (fun _ : Unit => []) Json.closeBrace [] ++ r) :=
      NumberText.ends_entries (by decide) [] r
    rwa [Style.entries, List.append_assoc, List.singleton_append] at hclosed
  simp only [Style.entries, Style.field, hwrite.single, List.cons_append, List.append_assoc,
    List.nil_append] at h
  obtain ⟨-, hbehind⟩ := Json.stringChars_append_inj (List.append_cancel_left (List.cons.inj h).2)
  obtain ⟨hnumber, hrest⟩ := Json.singleChars_append_inj (hends r) (hends s)
    (List.append_cancel_left (List.cons.inj hbehind).2)
  exact ⟨Single.noted_eq_iff.mpr hnumber, (List.cons.inj (List.append_cancel_left hrest)).2⟩

variable (hwrite : WritesSingles style write)

include hwrite

/-- Calls can be told apart by their texts, and from what follows these, as far as texts keep
them. -/
theorem noted_of_write (hr : EndsNumber r) (hs : EndsNumber s)
    (h : write depth call.toJson ++ r = write depth call'.toJson ++ s) :
    call.noted = call'.noted ∧ r = s := by
  obtain ⟨hname, hrest⟩ := importName_of_write hwrite.toWrites h
  rcases kinds_of_importName_eq hname with ⟨hexact, hexact'⟩ | ⟨x, y, rfl, rfl⟩ | ⟨x, y, rfl, rfl⟩
  · obtain ⟨hjson, hrest⟩ := hexact.plain_toJson.toldApart hwrite.toWrites hexact'.plain_toJson
      hr hs h
    exact ⟨congrArg noted (toJson_injective hjson), hrest⟩
  · obtain ⟨hnumber, hrest⟩ := single_of_write hwrite hrest
    exact ⟨congrArg progress hnumber, hrest⟩
  · obtain ⟨hnumber, hrest⟩ := single_of_write hwrite hrest
    exact ⟨congrArg sleep hnumber, hrest⟩

/-- The text keeps no more of a call. -/
theorem write_noted (depth : ℕ) (call : HostCall) :
    write depth call.noted.toJson = write depth call.toJson := by
  cases call with
  | progress x | sleep x =>
    simp only [noted, toJson, arguments, hwrite.object, Style.enclosed, Style.entries, Style.field,
      hwrite.single, Single.singleChars_noted, importName]
  | _ => rfl

/-- Two calls have the same text exactly if they are the same as far as texts keep them. -/
theorem write_eq_iff (depth : ℕ) (call call' : HostCall) :
    write depth call.toJson = write depth call'.toJson ↔ call.noted = call'.noted := by
  have hends : EndsNumber [] := by
    intro c hc
    cases hc
  constructor
  · intro h
    exact (noted_of_write hwrite hends hends (congrArg (· ++ []) h)).1
  · intro h
    rw [← write_noted hwrite depth call, h, write_noted hwrite depth call']

/-- The text of a transcript keeps no more of its calls. -/
theorem write_transcript (depth : ℕ) (calls : List HostCall) :
    write depth (transcript calls) =
      style.enclosed depth (fun call => write (depth + 1) call.toJson) '[' ']'
        (calls.map noted) := by
  rw [transcript, hwrite.array, Style.enclosed_map, Style.enclosed_map]
  simp only [write_noted hwrite]

/-- Two transcripts have the same text exactly if their calls are the same as far as texts keep
them. -/
theorem write_transcript_eq_iff (depth : ℕ) (calls calls' : List HostCall) :
    write depth (transcript calls) = write depth (transcript calls') ↔
      calls.map noted = calls'.map noted := by
  have hbracket (call : HostCall) (r : List Char) :
      (write (depth + 1) call.toJson ++ r).head? ≠ some ']' := by
    rw [toJson, hwrite.object]
    exact fun h => absurd (Option.some.inj h) (by decide)
  have happart : ∀ x ∈ calls.map noted, ∀ y ∈ calls'.map noted,
      Style.ToldApart (fun call => write (depth + 1) call.toJson) x y := by
    rintro _ hx _ hy r s hr hs h
    obtain ⟨call, -, rfl⟩ := List.mem_map.mp hx
    obtain ⟨call', -, rfl⟩ := List.mem_map.mp hy
    obtain ⟨hnoted, hrest⟩ := noted_of_write hwrite hr hs h
    exact ⟨by rwa [noted_noted, noted_noted] at hnoted, hrest⟩
  rw [write_transcript hwrite, write_transcript hwrite]
  constructor
  · intro h
    exact (Style.enclosed_append_inj (by decide) (fun call _ => hbracket call)
      (fun call _ => hbracket call) happart (congrArg (· ++ []) h)).1
  · intro h
    rw [h]

end Writes

/-- **A text tells a number exactly if the number is finite.**  The host records what a job reports
as it is.  Two reports of progress have the same text exactly if their numbers have the same bits,
or neither of them is finite; and so have two pauses.  Any two calls have the same text, be it in
one line or indented, exactly if they are the same up to this, and so have any two transcripts. -/
theorem text_tells_numbers (host : Host) (x y : Single) (call call' : HostCall)
    (calls calls' : List HostCall) :
    ((host.perform (.progress x)).2.calls = host.calls ++ [progress x] ∧
        ((progress x).toJson.text = (progress y).toJson.text ↔
          x.bits = y.bits ∨ x.isFinite = false ∧ y.isFinite = false)) ∧
      ((host.perform (.sleep x)).2.calls = host.calls ++ [sleep x] ∧
        ((sleep x).toJson.text = (sleep y).toJson.text ↔
          x.bits = y.bits ∨ x.isFinite = false ∧ y.isFinite = false)) ∧
      ((call.toJson.text = call'.toJson.text ↔ call.noted = call'.noted) ∧
        (call.toJson.prettyText = call'.toJson.prettyText ↔ call.noted = call'.noted)) ∧
      ((transcript calls).text = (transcript calls').text ↔ calls.map noted = calls'.map noted) ∧
        ((transcript calls).prettyText = (transcript calls').prettyText ↔
          calls.map noted = calls'.map noted) := by
  have htext (call call' : HostCall) :
      call.toJson.text = call'.toJson.text ↔ call.noted = call'.noted := by
    rw [Json.text, Json.text, String.ofList_inj]
    exact write_eq_iff Json.writesSingles_chars 0 call call'
  have hbits : x.bits = y.bits ↔ x = y := by
    cases x
    cases y
    exact (Single.mk.injEq _ _).symm ▸ Iff.rfl
  refine ⟨⟨rfl, ?_⟩, ⟨rfl, ?_⟩, ⟨htext call call', ?_⟩, ?_, ?_⟩
  · rw [htext, hbits, ← Single.noted_eq_iff, noted, noted, progress.injEq]
  · rw [htext, hbits, ← Single.noted_eq_iff, noted, noted, sleep.injEq]
  · rw [Json.prettyText, Json.prettyText, String.ofList_inj]
    exact write_eq_iff Json.writesSingles_indented 0 call call'
  · rw [Json.text, Json.text, String.ofList_inj]
    exact write_transcript_eq_iff Json.writesSingles_chars 0 calls calls'
  · rw [Json.prettyText, Json.prettyText, String.ofList_inj]
    exact write_transcript_eq_iff Json.writesSingles_indented 0 calls calls'

/-- The two infinities have different bits and the same text, as progress and as a pause. -/
theorem exists_text_eq_of_infinite :
    ∃ x y : Single, x.isNaN = false ∧ y.isNaN = false ∧ x.bits ≠ y.bits ∧
      (progress x).toJson.text = (progress y).toJson.text ∧
      (sleep x).toJson.text = (sleep y).toJson.text :=
  ⟨⟨0x7f800000⟩, ⟨0xff800000⟩, rfl, rfl, by decide, rfl, rfl⟩

end HostCall
end JobSandbox
