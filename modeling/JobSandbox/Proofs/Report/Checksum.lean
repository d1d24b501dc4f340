import JobSandbox.Proofs.Numeral.Room
import JobSandbox.Proofs.Report.Body
import JobSandbox.Proofs.Result
import JobSandbox.Proofs.Single
import Mathlib.Algebra.Order.Floor.Div

/-!
# The checksum of a dataset

The checksum job cuts its dataset into pieces of a quarter, rounded up, and adds up the bytes piece
by piece; after each piece it tells its host what share of the pieces is done.  Rounding up twice
leaves no more than four pieces, and none only of an empty dataset.  The sum does not depend on
where the dataset was cut.  It ends up in a line, as eight hexadecimal digits, and in the result.

## Main definitions

* `pieceCount` — the number of pieces of a dataset.
* `pieceShares` — the shares of progress that are told.
* `checksumLine` — the line that tells the sum.

## Main results

* `flatten_pieces`, `length_pieces` — pieces make up the dataset, and there are so many.
* `foldl_addBytes` — **a sum of bytes does not depend on the pieces they come in.**
* `sumPieces_comesTo` — one share of progress after every piece.
* `length_ofText_paddedDigits`, `readDigits?_paddedDigits` — a number in hexadecimal takes eight
  digits.
* `bytes_checksumLine` — the line of a checksum is whole.
* `Setup.simulate_checksum` — **the reports of the checksum job.**
-/

namespace JobSandbox

/-! ### Pieces -/

/-- The number of pieces of a dataset with `n` bytes. -/
def pieceCount (n : ℕ) : ℕ := n ⌈/⌉ max 1 (n ⌈/⌉ 4)

section Pieces

variable {size : ℕ} (hsize : 0 < size)

include hsize

theorem pieces_of_ne_nil {bytes : Bytes} (hne : bytes ≠ []) :
    pieces size bytes = bytes.take size :: pieces size (bytes.drop size) := by
  rw [pieces, dif_neg (by simp [hsize.ne', hne])]

/-- Pieces are gone through one by one. -/
theorem pieces_induction {P : Bytes → Prop} (nil : P [])
    (piece : ∀ bytes, bytes ≠ [] → P (bytes.drop size) → P bytes) (bytes : Bytes) : P bytes := by
  induction hn : bytes.length using Nat.strong_induction_on generalizing bytes with
  | _ n ih =>
    by_cases hne : bytes = []
    · rw [hne]
      exact nil
    · have hpos := List.length_pos_iff.mpr hne
      refine piece bytes hne (ih (bytes.drop size).length ?_ _ rfl)
      rw [List.length_drop]
      omega

/-- The pieces make up the whole. -/
theorem flatten_pieces (bytes : Bytes) : (pieces size bytes).flatten = bytes := by
  induction bytes using pieces_induction hsize with
  | nil =>
    rw [pieces, dif_pos (.inr rfl)]
    rfl
  | piece bytes hne ih =>
    rw [pieces_of_ne_nil hsize hne, List.flatten_cons, ih, List.take_append_drop]

/-- All pieces but the last have the full size. -/
theorem length_pieces (bytes : Bytes) : (pieces size bytes).length = bytes.length ⌈/⌉ size := by
  induction bytes using pieces_induction hsize with
  | nil =>
    rw [pieces, dif_pos (.inr rfl), List.length_nil, List.length_nil, zero_ceilDiv]
  | piece bytes hne ih =>
    have hpos := List.length_pos_iff.mpr hne
    rw [pieces_of_ne_nil hsize hne, List.length_cons, ih, List.length_drop,
      Nat.ceilDiv_eq_add_pred_div, Nat.ceilDiv_eq_add_pred_div]
    -- a piece is one unit of the quotient, be it the last and short
    have hone : (bytes.length + size - 1) / size = (bytes.length - 1) / size + 1 := by
      rw [← Nat.add_div_right _ hsize]
      congr 1
      omega
    rw [hone]
    congr 1
    rcases Nat.lt_or_ge bytes.length size with hlt | hge
    · rw [Nat.div_eq_of_lt (by omega), Nat.div_eq_of_lt (by omega)]
    · congr 1
      omega

end Pieces

theorem quarterLength_eq (n : ℕ) : quarterLength n = max 1 (n ⌈/⌉ 4) := by
  rw [quarterLength, Nat.ceilDiv_eq_add_pred_div, max_comm]
  rfl

/-- Four quarters, rounded up, are enough. -/
theorem pieceCount_le (n : ℕ) : pieceCount n ≤ 4 := by
  have hquarter : n ≤ 4 * (n ⌈/⌉ 4) := (ceilDiv_le_iff_le_mul (by decide)).mp le_rfl
  have hsize : n ⌈/⌉ 4 ≤ max 1 (n ⌈/⌉ 4) := le_max_right _ _
  rw [pieceCount, ceilDiv_le_iff_le_mul (by omega)]
  omega

theorem pieceCount_eq_zero_iff (n : ℕ) : pieceCount n = 0 ↔ n = 0 := by
  rw [pieceCount, ← Nat.le_zero, ceilDiv_le_iff_le_mul (by omega), Nat.mul_zero, Nat.le_zero]

/-! ### The sum -/

theorem addBytes_eq (sum : UInt32) (bytes : Bytes) :
    addBytes sum bytes = sum + UInt32.ofNat (bytes.map UInt8.toNat).sum := by
  induction bytes generalizing sum with
  | nil => simp [addBytes]
  | cons b bytes ih =>
    have hbyte : UInt32.ofNat b.toNat = b.toUInt32 := by simp
    rw [List.map_cons, List.sum_cons, UInt32.ofNat_add, hbyte, ← UInt32.add_assoc]
    exact ih (sum + b.toUInt32)

/-- **A sum of bytes does not depend on the pieces they come in.** -/
theorem foldl_addBytes (chunks : List Bytes) (sum : UInt32) :
    chunks.foldl addBytes sum = addBytes sum chunks.flatten :=
  List.foldl_flatten.symm

/-! ### Progress -/

/-- The shares of progress after so many pieces, from the `first` one of `total` on. -/
def pieceShares (total first count : ℕ) : List Single :=
  (List.range' first count).map fun i => .ofRatio i total

theorem length_pieceShares (total first count : ℕ) :
    (pieceShares total first count).length = count := by
  rw [pieceShares, List.length_map, List.length_range']

theorem getElem?_pieceShares {total first count i : ℕ} (hi : i < count) :
    (pieceShares total first count)[i]? = some (.ofRatio (first + i) total) := by
  rw [pieceShares, List.getElem?_map, List.getElem?_range' hi, Nat.one_mul]
  rfl

/-- Each share is as near to the truth as the format allows. -/
theorem isNearest_of_getElem?_pieceShares {total i : ℕ} {share : Single}
    (h : (pieceShares total 1 total)[i]? = some share) : share.IsNearest ((i + 1 : ℕ) / total) := by
  have hi : i < total := by
    rw [← length_pieceShares total 1 total]
    exact (List.getElem?_eq_some_iff.mp h).1
  rw [getElem?_pieceShares hi, Option.some.injEq, Nat.add_comm] at h
  rw [← h]
  apply Single.isNearest_ofRatio
  · omega
  · have hpow : total * 2 ≤ total * 2 ^ 127 := Nat.mul_le_mul_left total (by norm_num)
    omega

/-- The last share is one. -/
theorem toRat_of_getLast?_pieceShares {total : ℕ} {share : Single}
    (h : (pieceShares total 1 total).getLast? = some share) : share.toRat = 1 := by
  rw [List.getLast?_eq_getElem?, length_pieceShares] at h
  have hpos : total ≠ 0 := by
    rintro rfl
    cases h
  have hlast : 1 + (total - 1) = total := by omega
  rw [getElem?_pieceShares (by omega), Option.some.injEq, hlast] at h
  rw [← h]
  exact Single.toRat_ofRatio_self hpos

section Job

variable {ν α : Type}

/-- Every piece is added, and then there is one share more. -/
theorem sumPieces_comesTo (total done : ℕ) (sum : UInt32) (chunks : List Bytes)
    (next : UInt32 → Job ν α) (session : Session) :
    ∃ after, ((sumPieces total done sum chunks).bind next).ComesTo session
      ((pieceShares total (done + 1) chunks.length).map .progress)
      (next (chunks.foldl addBytes sum)) after := by
  induction chunks generalizing done sum session with
  | nil => exact ⟨session, .refl _ session⟩
  | cons chunk chunks ih =>
    have hshare := Job.comesTo_call (.progress (.ofRatio (done + 1) total))
      (fun _ => (sumPieces total (done + 1) (addBytes sum chunk) chunks).bind next) session
    obtain ⟨after, hrest⟩ := ih (done + 1) (addBytes sum chunk) _
    exact ⟨after, hshare.trans hrest⟩

end Job

/-! ### The line -/

/-- Zeros in front do not count. -/
theorem readDigits?_zeros (k : ℕ) (bytes : Bytes) :
    Numeral.readDigits? 16 (List.replicate k 48 ++ bytes) = Numeral.readDigits? 16 bytes := by
  have hzero : Numeral.readDigit? 16 0 48 = some 0 := rfl
  induction k with
  | zero => rfl
  | succ k ih =>
    rw [← ih, List.replicate_succ, List.cons_append, Numeral.readDigits?, List.foldlM_cons, hzero]
    rfl

theorem ofChars_replicate_zero (k : ℕ) :
    Bytes.ofChars (List.replicate k '0') = List.replicate k 48 := by
  induction k with
  | zero => rfl
  | succ k ih =>
    rw [List.replicate_succ, List.replicate_succ, Bytes.ofChars_cons, ih]
    rfl

/-- The digits of a number, with zeros in front. -/
def paddedDigits (w : UInt32) : String :=
  let digits := Nat.toDigits 16 w.toNat
  String.ofList (List.replicate (8 - digits.length) '0' ++ digits)

theorem hexWord_eq (w : UInt32) : hexWord w = "0x" ++ paddedDigits w := rfl

theorem isWord_paddedDigits (w : UInt32) : IsWord (paddedDigits w) := by
  unfold paddedDigits
  dsimp only
  rw [String.ofList_append]
  apply IsWord.append
  · intro c hc
    rw [String.toList_ofList] at hc
    rw [List.eq_of_mem_replicate hc]
    decide
  · exact isWord_toDigits (by decide) (by decide)

/-- There are eight digits, whatever the number. -/
theorem length_ofText_paddedDigits (w : UInt32) : (Bytes.ofText (paddedDigits w)).length = 8 := by
  have hlength : (Nat.toDigits 16 w.toNat).length ≤ 8 :=
    (Nat.length_toDigits_le_iff (by decide) (by decide)).mpr w.toNat_lt
  rw [(isWord_paddedDigits w).length_ofText, paddedDigits, String.toList_ofList,
    List.length_append, List.length_replicate]
  omega

/-- They are those of the number. -/
theorem readDigits?_paddedDigits (w : UInt32) :
    Numeral.readDigits? 16 (Bytes.ofText (paddedDigits w)) = some w.toNat := by
  rw [Bytes.ofText, paddedDigits, String.toList_ofList, Bytes.ofChars_append,
    ofChars_replicate_zero, Numeral.ofChars_toDigits (by decide) (by decide), readDigits?_zeros]
  exact Numeral.readDigits?_digitBytes (by decide) w.toNat

/-- The line of a checksum. -/
def checksumLine (n : ℕ) (sum : UInt32) : Line :=
  .ofParts ["checksum of ", toString n, " bytes: ", hexWord sum]

/-- **The line of a checksum is whole** for every length that a machine has. -/
theorem bytes_checksumLine {n : ℕ} (h : n < Address.addressSpace) (sum : UInt32) :
    (checksumLine n sum).bytes =
      Bytes.ofText s!"checksum of {n} bytes: 0x" ++ Bytes.ofText (paddedDigits sum) := by
  have hjoin : String.join ["checksum of ", toString n, " bytes: ", hexWord sum] =
      s!"checksum of {n} bytes: 0x" ++ paddedDigits sum := by
    change _ = "checksum of " ++ toString n ++ " bytes: 0x" ++ paddedDigits sum
    rw [hexWord_eq, ← String.toList_inj]
    simp
  have hnumber : (Bytes.ofText (toString n)).length ≤ 20 := by
    rw [(isWord_toString n).length_ofText, Nat.toString_eq_ofList_toDigits, String.toList_ofList]
    exact Fault.length_toDigits_ten_le h
  have hfits : (Bytes.ofText
      (String.join ["checksum of ", toString n, " bytes: ", hexWord sum])).length ≤
      Line.blank.room := by
    have hroom : Line.blank.room = 256 := rfl
    have hfront : (Bytes.ofText "checksum of ").length = 12 := rfl
    have hmiddle : (Bytes.ofText " bytes: 0x").length = 10 := rfl
    have htext : s!"checksum of {n} bytes: 0x" = "checksum of " ++ toString n ++ " bytes: 0x" := rfl
    rw [hjoin, htext, hroom]
    simp only [Bytes.ofText_append, List.length_append, hfront, hmiddle, length_ofText_paddedDigits]
    omega
  rw [checksumLine, Line.ofParts, Line.foldl_write_of_le hfits, Line.write_of_le hfits, hjoin,
    Bytes.ofText_append]
  rfl

/-! ### The job -/

/-- The line and the result are the last two calls. -/
theorem exists_comesTo_lineAndResult {ν : Type} (line : Bytes) (value : Int32)
    (session : Session) :
    ∃ after, ((Job.log line).bind fun _ => (Job.emit (.integer value) : Job ν Unit)).ComesTo
      session [.log line, .result 0 (Bytes.ofInt32 value)] (.done ()) after := by
  have hline := Job.comesTo_call (.log line)
    (fun _ => (Job.emit (.integer value) : Job ν Unit)) session
  exact ⟨_, hline.trans (Job.comesTo_call (.emit (.integer value)) _ _)⟩

section Job

variable {ν : Type} {session : Session} {data : Bytes}
  (hread : session.dataset.read? session.arena = some data)

include hread

/-- The job starts with a look at its dataset. -/
theorem checksumJob_comesTo :
    (checksumJob : Job ν Unit).ComesTo session []
      ((sumPieces (pieceCount data.length) 0 0 (pieces (quarterLength data.length) data)).bind
        fun sum =>
          (Job.log (checksumLine data.length sum).bytes).bind
            fun _ => Job.emit (.integer sum.toInt32)) session := by
  have htotal : pieceCount data.length =
      (data.length + quarterLength data.length - 1) / quarterLength data.length := by
    rw [pieceCount, ← quarterLength_eq, Nat.ceilDiv_eq_add_pred_div]
  rw [htotal]
  exact Job.comesTo_dataset hread _

/-- **The checksum job** tells of its progress, piece by piece, and then of the sum. -/
theorem checksumJob_of_read :
    let sum := UInt32.ofNat (data.map UInt8.toNat).sum
    ((checksumJob : Job ν Unit).run session).ending = .ok () ∧
      (checksumJob : Job ν Unit).calls session =
        (pieceShares (pieceCount data.length) 1 (pieceCount data.length)).map .progress ++
          [.log (checksumLine data.length sum).bytes,
            .result 0 (Bytes.ofInt32 sum.toInt32)] := by
  intro sum
  have hquarter : 0 < quarterLength data.length := by
    rw [quarterLength_eq]
    omega
  have hcount : (pieces (quarterLength data.length) data).length = pieceCount data.length := by
    rw [length_pieces hquarter, pieceCount, quarterLength_eq]
  have hsum : (pieces (quarterLength data.length) data).foldl addBytes 0 = sum := by
    rw [foldl_addBytes, flatten_pieces hquarter, addBytes_eq, UInt32.zero_add]
  obtain ⟨middle, hpieces⟩ := sumPieces_comesTo (pieceCount data.length) 0 0
    (pieces (quarterLength data.length) data)
    (fun sum => (Job.log (checksumLine data.length sum).bytes).bind fun _ =>
      (Job.emit (.integer sum.toInt32) : Job ν Unit)) session
  rw [hcount, hsum] at hpieces
  obtain ⟨after, hend⟩ := exists_comesTo_lineAndResult (ν := ν)
    (checksumLine data.length sum).bytes sum.toInt32 middle
  exact (((checksumJob_comesTo hread).trans hpieces).trans hend).returns

end Job

/-- The checksum job puts its result in an envelope. -/
theorem callsOnly_checksumJob {ν : Type} :
    (checksumJob : Job ν Unit).CallsOnly Request.Enveloped := by
  have hpieces (total done : ℕ) (sum : UInt32) (chunks : List Bytes) :
      (sumPieces total done sum chunks : Job ν UInt32).CallsOnly Request.Enveloped := by
    induction chunks generalizing done sum with
    | nil => trivial
    | cons chunk chunks ih => exact Job.callsOnly_call trivial fun _ => ih _ _
  refine ⟨?_, ?_⟩
  · intro request heq
    cases heq
  · intro data
    refine (hpieces _ _ _ _).bind fun sum => ?_
    exact (Saying.logLine _).callsOnly_job.bind fun _ => (Saying.emit _).callsOnly_job

namespace Setup

/-- **The reports of the checksum job.**  With its dataset taken in, it cuts it into no more than
four pieces, and into none only if it is empty, and reports after each what share of them is done,
as near to the truth as the format allows; the last share is one.  It then logs one line, which is
whole and ends in eight hexadecimal digits, and emits one integer.  Both have the sum of all bytes,
modulo `2 ^ 32`, to which pieces of any other kind would have come as well. -/
theorem simulate_checksum {setup : Setup} {data : Bytes} {dataset : Dataset} {host' : Host}
    {arena : Arena PagedMemory}
    (h : Dataset.ingest { dataset := data } (.ofMemory setup.memory) setup.policy.granularity =
      (.ready dataset, host', arena)) :
    let count := data.length ⌈/⌉ max 1 (data.length ⌈/⌉ 4)
    let sum := UInt32.ofNat (data.map UInt8.toNat).sum
    (∀ chunks : List Bytes, chunks.flatten = data → chunks.foldl addBytes 0 = sum) ∧
    ∃ (report : Report) (shares : List Single) (digits : Bytes),
      setup.simulateReference data .checksum = .ok report ∧
      report.ok = true ∧
      report.result = some (.integer sum.toInt32) ∧
      report.calls = [.datasetLen data.length, .datasetWrite data.length] ++
        setup.policy.placeholder ++ (shares.map .progress ++
          [.log (Bytes.ofText s!"checksum of {data.length} bytes: 0x" ++ digits),
            .result 0 (Bytes.ofInt32 sum.toInt32)]) ∧
      (shares.length = count ∧ count ≤ 4 ∧ (count = 0 ↔ data.length = 0) ∧
        (∀ (i : ℕ) (share : Single), shares[i]? = some share →
          share.IsNearest ((i + 1 : ℕ) / count)) ∧
        ∀ share, shares.getLast? = some share → share.toRat = 1) ∧
      digits.length = 8 ∧ Numeral.readDigits? 16 digits = some sum.toNat := by
  intro count sum
  obtain ⟨report, hreport, hbody⟩ := exists_report_ofBody h (callsOnly_checksumJob (ν := Empty))
  obtain ⟨hending, hcalls⟩ := checksumJob_of_read (ν := Empty) (read?_of_ready h)
  rw [hending, hcalls, bytes_checksumLine (Dataset.announced_lt_of_ingest h)] at hbody
  refine ⟨?_, report, pieceShares count 1 count, Bytes.ofText (paddedDigits sum), hreport,
    hbody.ok_iff.mpr rfl, ?_, hbody.calls_eq, ⟨length_pieceShares _ _ _, pieceCount_le _,
      pieceCount_eq_zero_iff _, ?_, ?_⟩, length_ofText_paddedDigits sum,
    readDigits?_paddedDigits sum⟩
  · intro chunks hchunks
    rw [foldl_addBytes, hchunks, addBytes_eq, UInt32.zero_add]
  · refine hbody.result_of_last _ _ _ ?_ (ResultValue.decode_eq_ok_iff.mpr ⟨rfl, rfl⟩)
    rw [HostCall.results, List.filterMap_append]
    exact List.getLast?_concat
  · intro i share hshare
    exact isNearest_of_getElem?_pieceShares hshare
  · intro share hshare
    exact toRat_of_getLast?_pieceShares hshare

/-- Five bytes come in three pieces, and could have come in others. -/
theorem simulate_checksum_of_five_bytes :
    let setup : Setup := { policy := .legacy, maxPages := 2 }
    [[200, 200], [200], [200, 3]].foldl addBytes 0 = 803 ∧
    ∃ (report : Report) (shares : List Single) (digits : Bytes),
      setup.simulateReference [200, 200, 200, 200, 3] .checksum = .ok report ∧
      report.result = some (.integer 803) ∧
      report.calls = [.datasetLen 5, .datasetWrite 5, .result 0 [0, 0, 0, 0]] ++
        (shares.map .progress ++ [.log (Bytes.ofText "checksum of 5 bytes: 0x" ++ digits),
          .result 0 [0x23, 3, 0, 0]]) ∧
      shares.length = 3 ∧ Numeral.readDigits? 16 digits = some 803 := by
  intro setup
  obtain ⟨_, _, _, hready⟩ := setup.exists_ready_of_fits [200, 200, 200, 200, 3]
    (by decide) (by decide) (by decide)
  obtain ⟨hchunks, report, shares, digits, hreport, -, hresult, hcalls, ⟨hlength, -⟩, -, hdigits⟩ :=
    simulate_checksum hready
  exact ⟨hchunks [[200, 200], [200], [200, 3]] rfl, report, shares, digits, hreport, hresult,
    hcalls, hlength, hdigits⟩

end Setup
end JobSandbox
