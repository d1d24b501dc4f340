import JobSandbox.Json.Shape
import JobSandbox.Proofs.Base64
import JobSandbox.Proofs.Json.Reading

/-!
# Records in documents

A record is written as an object with its fields in their order, and reading takes them up one by
one.  So a record is read if each field is, whatever the fields are of.  Where there are several
forms of record, the first member names the form, and the rest is read as a record of that form.

## Main definitions

* `Record.Fills` — members that are read, field by field, from one record to another.

## Main results

* `Record.readWith_of_fills` — **members that fill a record are read as it.**
* `Document.tagged_of_fills` — **a record behind the name of its form is read in this form.**
* `Document.nat_ofInt`, `Document.int32_ofInt`, `Document.list_document` — values of fields.
-/

namespace JobSandbox

/-! ### Numbers -/

namespace NumberText

theorem le_foldl_digits (n : ℕ) (cs : List Char) :
    n ≤ cs.foldl (fun n c => 10 * n + digitOf c) n := by
  induction cs generalizing n with
  | nil => exact Nat.le_refl n
  | cons c cs ih =>
    have hnext := ih (10 * n + digitOf c)
    rw [List.foldl_cons]
    omega

/-- Digits whose value stays below the limit are all taken in. -/
theorem gather_eq {n : ℕ} {cs : List Char}
    (h : cs.foldl (fun n c => 10 * n + digitOf c) n < significandLimit) :
    gather n cs = (cs.foldl (fun n c => 10 * n + digitOf c) n, 0) := by
  induction cs generalizing n with
  | nil => rfl
  | cons c cs ih =>
    have hnext := le_foldl_digits (10 * n + digitOf c) cs
    rw [List.foldl_cons] at h
    rw [gather, if_pos (by omega), ih h, List.foldl_cons]

theorem gather_toDigits {n : ℕ} (h : n < significandLimit) :
    gather 0 (Nat.toDigits 10 n) = (n, 0) := by
  have hvalue : (Nat.toDigits 10 n).foldl (fun n c => 10 * n + digitOf c) 0 = n :=
    decimalOf_toDigits n
  rw [gather_eq (by rwa [hvalue]), hvalue]

/-- A natural number is read as itself. -/
theorem value?_ofNat {n : ℕ} (h : n < significandLimit) :
    (ofInt n).value? = some (.natural n) := by
  simp [ofInt, value?, gather_toDigits h]

/-- A negative number is read as itself. -/
theorem value?_ofInt_neg {n : ℕ} (hpos : 0 < n) (h : n ≤ 0x8000000000000000) :
    (ofInt (-n)).value? = some (.negative n) := by
  have hlimit : n < significandLimit := Nat.lt_of_le_of_lt h (by decide)
  have hne : n ≠ 0 := Nat.ne_of_gt hpos
  simp [ofInt, value?, gather_toDigits hlimit, hpos, hne, h]

end NumberText

/-! ### Values of fields -/

namespace Document

variable {α β : Type}

theorem nat_ofInt {bound n : ℕ} (hbound : bound ≤ NumberText.significandLimit) (h : n < bound) :
    Document.nat bound (.number (.ofInt n)) = .ok n := by
  rw [Document.nat, numeric, NumberText.value?_ofNat (Nat.lt_of_lt_of_le h hbound)]
  dsimp only
  rw [if_pos h]

theorem uint32_ofInt (n : UInt32) : Document.uint32 (.number (.ofInt n.toNat)) = .ok n := by
  rw [uint32, nat_ofInt (by decide) n.toNat_lt]
  exact congrArg Except.ok (UInt32.ofNat_toNat (x := n))

theorem int32_ofInt (n : Int32) : Document.int32 (.number (.ofInt n.toInt)) = .ok n := by
  have hlower := n.le_toInt
  have hupper := n.toInt_lt
  have hback : Int32.ofInt n.toInt = n := Int32.ofInt_toInt n
  rcases lt_or_ge n.toInt 0 with hneg | hnonneg
  · obtain ⟨m, hm⟩ : ∃ m : ℕ, n.toInt = -(m : ℤ) := ⟨n.toInt.natAbs, by omega⟩
    rw [hm] at hback ⊢
    have hvalue : -Int32.ofNat m = n := by
      rw [← hback, Int32.ofInt_neg, Int32.ofInt_eq_ofNat]
    rw [int32, numeric, NumberText.value?_ofInt_neg (by omega) (by omega)]
    dsimp only
    rw [if_pos (by omega), hvalue]
  · obtain ⟨m, hm⟩ := Int.eq_ofNat_of_zero_le hnonneg
    rw [hm] at hback ⊢
    have hvalue : Int32.ofNat m = n := by
      rw [← hback, Int32.ofInt_eq_ofNat]
    have hlimit : m < NumberText.significandLimit :=
      Nat.lt_trans (show m < 0x80000000 by omega) (by decide)
    rw [int32, numeric, NumberText.value?_ofNat hlimit]
    dsimp only
    rw [if_pos (by omega), hvalue]

theorem base64_string (bytes : Bytes) :
    Document.base64 (.string (some (Base64.ofBytes bytes))) = .ok bytes := by
  have hdecode := Base64.decode?_encode bytes
  have htext : (Base64.ofBytes bytes).toList = Base64.encode bytes := String.toList_ofList
  rw [← htext] at hdecode
  simp [base64, text, bind, Except.bind, hdecode]

/-! ### Values with parts -/

section Parts

variable {read : Document → Except ReadError α} {write : α → Json}

/-- A value that may be absent is read if it is not.  It must not be taken for none. -/
theorem optional_document (hnull : ∀ x, (write x).document ≠ .null) {value : Option α}
    (h : ∀ x ∈ value, read (write x).document = .ok x) :
    Document.optional read (Json.optional write value).document = .ok value := by
  cases value with
  | none => rfl
  | some x =>
    have hread := h x rfl
    have hne := hnull x
    rw [Json.optional]
    generalize (write x).document = document at hread hne
    cases document with
    | null => exact absurd rfl hne
    | _ => exact congrArg (Functor.map some) hread

/-- A list is read if its items are. -/
theorem list_document {xs : List α} (h : ∀ x ∈ xs, read (write x).document = .ok x) :
    Document.list read (Json.array (xs.map write)).document = .ok xs := by
  have hitems : ((xs.map write).map Json.document).mapM read = .ok xs := by
    induction xs with
    | nil => rfl
    | cons x xs ih =>
      obtain ⟨hx, hxs⟩ := List.forall_mem_cons.mp h
      rw [List.map_cons, List.map_cons, List.mapM_cons, hx, ih hxs]
      rfl
  rw [Json.document, Json.documents_eq_map, list, hitems]
  rfl

end Parts

/-! ### Values that are kept -/

/-- Whatever is read as a number has a value. -/
theorem isContent_of_numeric {convert : Numeric → Option α} {document : Document} {value : α}
    (h : numeric convert document = .ok value) (room : ℕ) : document.isContent room = true := by
  cases document with
  | number text =>
    have hvalue : text.value?.isSome = true := by
      rw [numeric] at h
      cases htext : text.value? with
      | none =>
        rw [htext] at h
        cases h
      | some n => rfl
    cases room <;> exact hvalue
  | _ => cases h

theorem isContent_string (s : String) (room : ℕ) : (string (some s)).isContent room = true := by
  cases room <;> rfl

end Document

/-! ### Records -/

namespace Record

variable {ρ : Type}

/-- Members that name fields in their order, and are read by them from one record to another. -/
inductive Fills : List (Field ρ) → ρ → List (Option String × Document) → ρ → Prop where
  | nil (record : ρ) : Fills [] record [] record
  | cons {field : Field ρ} {fields : List (Field ρ)} {document : Document}
      {members : List (Option String × Document)} {record next last : ρ}
      (hread : field.read document record = .ok next) (h : Fills fields next members last) :
      Fills (field :: fields) record ((some field.name, document) :: members) last

namespace Fills

variable {α : Type} {fields : List (Field ρ)} {read : Document → Except ReadError α}
  {put : α → ρ → ρ} {name : String} {document : Document} {value : α} {record last : ρ}
  {members : List (Option String × Document)}

theorem required (hread : read document = .ok value)
    (h : Fills fields (put value record) members last) :
    Fills (.required name read put :: fields) record ((some name, document) :: members) last :=
  .cons (congrArg (Functor.map (put · record)) hread) h

theorem omissible (hread : read document = .ok value)
    (h : Fills fields (put value record) members last) :
    Fills (.omissible name read put :: fields) record ((some name, document) :: members) last :=
  .cons (congrArg (Functor.map (put · record)) hread) h

/-- The members have the names of the fields. -/
theorem exists_field (h : Fills fields record members last) :
    ∀ m ∈ members, ∃ field ∈ fields, m.1 = some field.name := by
  induction h with
  | nil => exact fun m hm => absurd hm List.not_mem_nil
  | cons hread h ih =>
    refine List.forall_mem_cons.mpr ⟨⟨_, List.mem_cons_self, rfl⟩, fun m hm => ?_⟩
    obtain ⟨field, hfield, hname⟩ := ih m hm
    exact ⟨field, List.mem_cons_of_mem _ hfield, hname⟩

end Fills

variable {shape : Record ρ} {done fields : List (Field ρ)} {record last : ρ}
  {members : List (Option String × Document)}

/-- The fields that are left are read, if no name is there twice. -/
theorem readFields_of_fills (hnodup : (shape.fields.map Field.name).Nodup)
    (hfields : shape.fields = done ++ fields) (h : Fills fields record members last) :
    shape.readFields (done.map Field.name).reverse record members =
      .ok ((shape.fields.map Field.name).reverse, last) := by
  induction h generalizing done with
  | nil record =>
    rw [readFields, hfields, List.append_nil]
  | @cons field fields document members record next last hread h ih =>
    have hnew : ∀ f ∈ done, f.name ≠ field.name := by
      rw [hfields, List.map_append, List.nodup_append] at hnodup
      intro f hf
      exact hnodup.2.2 _ (List.mem_map_of_mem hf) _ List.mem_cons_self
    have hfind : shape.fields.find? (·.name == field.name) = some field := by
      have hbefore : done.find? (·.name == field.name) = none := by
        simpa [List.find?_eq_none] using hnew
      rw [hfields, List.find?_append, hbefore, Option.none_or]
      exact List.find?_cons_of_pos (beq_self_eq_true field.name)
    have hfresh : (done.map Field.name).reverse.contains field.name = false := by
      simpa using hnew
    have hsplit : shape.fields = (done ++ [field]) ++ fields := by
      rw [hfields, List.append_assoc, List.singleton_append]
    have hnext := ih hsplit
    rw [List.map_append, List.reverse_append] at hnext
    rw [readFields, hfind]
    dsimp only
    rw [hfresh, hread]
    exact hnext

/-- **Members that fill a record are read as it.** -/
theorem readWith_of_fills (hnodup : (shape.fields.map Field.name).Nodup)
    (h : Fills shape.fields shape.blank members last) (surplus : ReadError) :
    shape.readWith surplus (.object members true) = .ok last := by
  have hread : shape.readFields [] shape.blank members = _ :=
    readFields_of_fills hnodup (List.nil_append _).symm h
  have hcovered : shape.isCovered (shape.fields.map Field.name).reverse = true := by
    simp only [isCovered, List.all_eq_true, Bool.or_eq_true]
    intro field hfield
    exact .inr (by simpa using ⟨field, hfield, rfl⟩)
  rw [readWith, hread]
  simp [bind, Except.bind, hcovered]

end Record

/-! ### Records of several forms -/

namespace Document

variable {α : Type}

/-- The other members are kept, if they have values. -/
theorem findForm_of_content {tag : String} {forms : List (Form α)} {room : ℕ} {form : Form α}
    {members : List (Option String × Document)}
    (h : ∀ m ∈ members, (∃ name, m.1 = some name ∧ name ≠ tag) ∧ m.2.isContent room = true)
    (kept : List (Option String × Document)) :
    findForm tag forms room (some form) kept members =
      .ok (some form, kept.reverse ++ members) := by
  induction members generalizing kept with
  | nil => rw [findForm, List.append_nil]
  | cons m members ih =>
    obtain ⟨⟨name, hname, hne⟩, hcontent⟩ := h m List.mem_cons_self
    obtain ⟨key, value⟩ := m
    cases hname
    rw [findForm, if_neg hne, if_pos hcontent,
      ih (fun m hm => h m (List.mem_cons_of_mem _ hm)), List.reverse_cons, List.append_assoc]
    rfl

/-- The form is the one that the first member names. -/
theorem tagged_object {tag name : String} {forms : List (Form α)} {form : Form α} {depth : ℕ}
    {members : List (Option String × Document)}
    (hform : forms.find? (·.name == name) = some form)
    (h : ∀ m ∈ members, (∃ name, m.1 = some name ∧ name ≠ tag) ∧
      m.2.isContent (maxDepth - 1 - depth) = true) :
    tagged tag forms depth (.object ((some tag, .string (some name)) :: members) true) =
      form.read (.object members true) := by
  have hnamed : Document.form forms (.string (some name)) = .ok form := by
    simp [Document.form, text, bind, Except.bind, hform]
  have hkept : findForm tag forms (maxDepth - 1 - depth) (some form) [] members = _ :=
    findForm_of_content h []
  rw [tagged, findForm, if_pos rfl, hnamed]
  simp [bind, Except.bind, hkept]

/-- **A record behind the name of its form is read in this form.** -/
theorem tagged_of_fills {ρ : Type} {shape : Record ρ} {build : ρ → α} {tag name : String}
    {forms : List (Form α)} {depth : ℕ} {members : List (Option String × Document)} {record : ρ}
    (hform : forms.find? (·.name == name) = some ⟨name, fun d => build <$> shape.readKept d⟩)
    (hnodup : (tag :: shape.fields.map Field.name).Nodup)
    (hfills : Record.Fills shape.fields shape.blank members record)
    (hcontent : ∀ m ∈ members, m.2.isContent (maxDepth - 1 - depth) = true) :
    tagged tag forms depth (.object ((some tag, .string (some name)) :: members) true) =
      .ok (build record) := by
  obtain ⟨htag, hnodup⟩ := List.nodup_cons.mp hnodup
  rw [tagged_object hform]
  · exact congrArg (Functor.map build) (Record.readWith_of_fills hnodup hfills _)
  · intro m hm
    obtain ⟨field, hfield, hname⟩ := hfills.exists_field m hm
    refine ⟨⟨field.name, hname, ?_⟩, hcontent m hm⟩
    rintro rfl
    exact htag (List.mem_map_of_mem hfield)

end Document
end JobSandbox
