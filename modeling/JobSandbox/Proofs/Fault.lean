import JobSandbox.Job
import JobSandbox.Proofs.Line
import JobSandbox.Proofs.Utf8
import Mathlib.Algebra.Order.Group.Nat

/-!
# The last line of a job that is stopped

A job that is stopped for a fault leaves a line with its host, which says in which phase it was and
what was wrong.  Whoever reads the line wants to know both, so nothing of it may be cut off, and no
two faults may read the same.

The line is a text of words between single blanks.  Numbers stand in words of their own, apart from
a bracket behind some of them, and the words around them are those of one cause only; so the words
can be told apart, and with them the cause and its numbers.  Numbers of a machine have at most
twenty digits, which leaves half of the line empty.

## Main definitions

* `Fault.Representable` — a fault with numbers that a machine has.
* `Fault.words`, `Fault.fatalWords` — the words of a message and of a last line.
* `Host.stop` — stopping a job in some phase.

## Main results

* `Fault.fatalText_inj` — **the text names the phase and the fault.**
* `Fault.stop_decodable` — **the last line is complete, and tells what stopped the job.**
-/

namespace JobSandbox

/-! ### Digits -/

section Digits

variable {b m n : ℕ}

/-- What holds of the digits up to a base holds of all characters of a numeral in it. -/
theorem forall_mem_toDigits {P : Char → Prop} (hb : 1 < b) (h : ∀ d < b, P d.digitChar) :
    ∀ c ∈ Nat.toDigits b n, P c := by
  induction n using Nat.strong_induction_on with
  | _ n ih =>
    rw [Nat.toDigits_eq_if hb]
    split
    · next hlt => simpa using h n hlt
    · next hge =>
      rw [List.forall_mem_append]
      refine ⟨ih (n / b) (Nat.div_lt_self (by omega) hb), ?_⟩
      simpa using h (n % b) (Nat.mod_lt n (by omega))

theorem digitChar_inj : ∀ d < 16, ∀ e < 16, d.digitChar = e.digitChar → d = e := by decide

/-- A numeral stands for one number, in any base that has single digits. -/
theorem toDigits_injective (hb : 1 < b) (hle : b ≤ 16) : Function.Injective (Nat.toDigits b) := by
  intro m
  induction m using Nat.strong_induction_on with
  | _ m ih =>
    intro n h
    have hdigit (k : ℕ) : k % b < 16 := (Nat.mod_lt k (by omega)).trans_le hle
    have hpos (k : ℕ) : 0 < (Nat.toDigits b k).length := Nat.length_toDigits_pos
    rcases Nat.lt_or_ge m b with hm | hm <;> rcases Nat.lt_or_ge n b with hn | hn
    · rw [Nat.toDigits_of_lt_base hm, Nat.toDigits_of_lt_base hn] at h
      exact digitChar_inj m (by omega) n (by omega) (List.singleton_inj.mp h)
    -- a single digit is shorter than a numeral with a digit in front of its last
    · have hlength := congrArg List.length h
      have hfront := hpos (n / b)
      rw [Nat.toDigits_of_lt_base hm, Nat.toDigits_of_base_le hb hn, List.length_append,
        List.length_singleton, List.length_singleton] at hlength
      omega
    · have hlength := congrArg List.length h
      have hfront := hpos (m / b)
      rw [Nat.toDigits_of_base_le hb hm, Nat.toDigits_of_lt_base hn, List.length_append,
        List.length_singleton, List.length_singleton] at hlength
      omega
    · rw [Nat.toDigits_of_base_le hb hm, Nat.toDigits_of_base_le hb hn] at h
      obtain ⟨hquotient, hlast⟩ := List.append_inj' h rfl
      have hdiv : m / b = n / b := ih (m / b) (Nat.div_lt_self (by omega) hb) hquotient
      have hmod : m % b = n % b :=
        digitChar_inj _ (hdigit m) _ (hdigit n) (List.singleton_inj.mp hlast)
      rw [← Nat.div_add_mod m b, ← Nat.div_add_mod n b, hdiv, hmod]

end Digits

theorem repr_injective : Function.Injective Nat.repr := by
  intro m n h
  have hdigits := congrArg String.toList h
  rw [Nat.toList_repr, Nat.toList_repr] at hdigits
  exact toDigits_injective (by decide) (by decide) hdigits

@[simp] theorem toList_hexText (n : ℕ) : (hexText n).toList = '0' :: 'x' :: Nat.toDigits 16 n := by
  simp [hexText]

theorem hexText_injective : Function.Injective hexText := by
  intro m n h
  have hdigits := congrArg String.toList h
  rw [toList_hexText, toList_hexText, List.cons.injEq, List.cons.injEq] at hdigits
  exact toDigits_injective (by decide) (by decide) hdigits.2.2

/-! ### Words -/

/-- A word: graphic characters of ASCII, among which the blank is not. -/
def IsWord (w : String) : Prop := ∀ c ∈ w.toList, 0x21 ≤ c.toNat ∧ c.toNat ≤ 0x7e

section Words

variable {v w : String} {ws ws' : List String}

theorem IsWord.append (hv : IsWord v) (hw : IsWord w) : IsWord (v ++ w) := by
  rw [IsWord, String.toList_append, List.forall_mem_append]
  exact ⟨hv, hw⟩

theorem isWord_toDigits {b n : ℕ} (hb : 1 < b) (hle : b ≤ 16) :
    IsWord (String.ofList (Nat.toDigits b n)) := by
  have hdigit : ∀ d : ℕ, d < 16 → 0x21 ≤ d.digitChar.toNat ∧ d.digitChar.toNat ≤ 0x7e := by decide
  rw [IsWord, String.toList_ofList]
  exact forall_mem_toDigits hb fun d hd => hdigit d (by omega)

theorem isWord_toString (n : ℕ) : IsWord (toString n) := by
  rw [Nat.toString_eq_ofList_toDigits]
  exact isWord_toDigits (by decide) (by decide)

theorem isWord_hexText (n : ℕ) : IsWord (hexText n) :=
  IsWord.append (by simp [IsWord]) (isWord_toDigits (by decide) (by decide))

/-- A word has as many bytes as characters. -/
theorem IsWord.length_ofText (hw : IsWord w) :
    (Bytes.ofText w).length = w.toList.length := by
  rw [Bytes.ofText]
  unfold IsWord at hw
  generalize w.toList = cs at hw ⊢
  induction cs with
  | nil => rfl
  | cons c cs ih =>
    rw [List.forall_mem_cons] at hw
    have hone : c.utf8Size = 1 := by
      rw [Char.utf8Size_eq_one_iff, UInt32.le_iff_toNat_le]
      exact hw.1.2.trans (by decide)
    rw [length_ofChars_cons, ih hw.2, hone, List.length_cons, Nat.add_comm]

/-- The length of some words, each with a blank behind it. -/
def wordsLength : List String → ℕ
  | [] => 0
  | w :: ws => w.toList.length + 1 + wordsLength ws

theorem wordsLength_append (ws ws' : List String) :
    wordsLength (ws ++ ws') = wordsLength ws + wordsLength ws' := by
  induction ws with
  | nil => simp [wordsLength]
  | cons w ws ih => simp [wordsLength, ih, Nat.add_assoc]

theorem length_ofText_intercalate_le (hws : ∀ w ∈ ws, IsWord w) :
    (Bytes.ofText (" ".intercalate ws)).length ≤ wordsLength ws := by
  induction ws with
  | nil => exact Nat.le_refl 0
  | cons w ws ih =>
    rw [List.forall_mem_cons] at hws
    have hw := hws.1.length_ofText
    cases ws with
    | nil =>
      rw [String.intercalate_singleton, hw]
      exact Nat.le_succ _
    | cons w' ws =>
      have hrest := ih hws.2
      have hblank : (Bytes.ofText " ").length = 1 := rfl
      rw [String.intercalate_cons_cons, Bytes.ofText_append, Bytes.ofText_append,
        List.length_append, List.length_append, hw, hblank, wordsLength]
      omega

/-- A text with single blanks between its words can be taken apart again. -/
theorem eq_of_intercalate_eq (hws : ∀ w ∈ ws, IsWord w) (hws' : ∀ w ∈ ws', IsWord w)
    (hne : ws ≠ []) (hne' : ws' ≠ []) (h : " ".intercalate ws = " ".intercalate ws') :
    ws = ws' := by
  have hsplit {us : List String} (hus : ∀ w ∈ us, IsWord w) (hus' : us ≠ []) :
      (" ".intercalate us).toList.splitOn ' ' = us.map String.toList := by
    rw [String.toList_intercalate]
    refine List.splitOn_intercalate ' ' ?_ (by simpa using hus')
    rintro cs hcs hblank
    obtain ⟨w, hw, rfl⟩ := List.mem_map.mp hcs
    exact absurd (hus w hw ' ' hblank).1 (by decide)
  have hmap : ws.map String.toList = ws'.map String.toList := by
    rw [← hsplit hws hne, h, hsplit hws' hne']
  exact List.map_injective_iff.mpr (fun _ _ => String.toList_inj.mp) hmap

end Words

/-! ### The words of a message -/

namespace Fault

/-- A fault with numbers that a machine has. -/
def Representable : Fault → Prop
  | argument (.invalidBase base) => base < 2 ^ 32
  | argument (.invalidLength length unit) =>
    length < Address.addressSpace ∧ unit < Address.addressSpace
  | argument (.outOfBounds requested available) =>
    requested < Address.addressSpace ∧ available < Address.addressSpace
  | alloc (.addressOverflow mark size) =>
    mark < Address.addressSpace ∧ size < Address.addressSpace
  | alloc (.outOfMemory size pages) =>
    size < Address.addressSpace ∧ pages < Address.addressSpace

/-- The words of a message, each number in one of them. -/
def words : Fault → List String
  | argument (.invalidBase base) => ["invalid", "base", toString base, "(expected", "2..=36)"]
  | argument (.invalidLength length unit) =>
    ["invalid", "length", toString length, "(must", "be", "a", "multiple", "of",
      toString unit ++ ")"]
  | argument (.outOfBounds requested available) =>
    ["out", "of", "bounds:", toString requested, "bytes", "requested,", toString available,
      "available"]
  | alloc (.addressOverflow mark size) =>
    ["allocation", "of", toString size, "bytes", "at", hexText mark, "overflows", "the", "address",
      "space"]
  | alloc (.outOfMemory size pages) =>
    ["out", "of", "memory:", "allocation", "of", toString size, "bytes", "needed", toString pages,
      "more", "page(s)"]

variable {fault fault' : Fault} {phase phase' : Phase}

theorem message_eq_intercalate (fault : Fault) : fault.message = " ".intercalate fault.words := by
  match fault with
  | argument (.invalidBase base) =>
    change "invalid base " ++ toString base ++ " (expected 2..=36)" = _
    simp [words, ← String.toList_inj]
  | argument (.invalidLength length unit) =>
    change "invalid length " ++ toString length ++ " (must be a multiple of " ++ toString unit ++
      ")" = _
    simp [words, ← String.toList_inj]
  | argument (.outOfBounds requested available) =>
    change "out of bounds: " ++ toString requested ++ " bytes requested, " ++
      toString available ++ " available" = _
    simp [words, ← String.toList_inj]
  | alloc (.addressOverflow mark size) =>
    change "allocation of " ++ toString size ++ " bytes at " ++ hexText mark ++
      " overflows the address space" = _
    simp [words, ← String.toList_inj]
  | alloc (.outOfMemory size pages) =>
    change "out of memory: allocation of " ++ toString size ++ " bytes needed " ++
      toString pages ++ " more page(s)" = _
    simp [words, ← String.toList_inj]

theorem isWord_of_mem_words (fault : Fault) : ∀ w ∈ fault.words, IsWord w := by
  have hnumber := isWord_toString
  have haddress := isWord_hexText
  have hbracket (n : ℕ) : IsWord (toString n ++ ")") :=
    (isWord_toString n).append (by simp [IsWord])
  rcases fault with (_ | _ | _) | (_ | _) <;>
    simp only [words, List.forall_mem_cons, hnumber, haddress, hbracket, true_and] <;>
    simp [IsWord]

/-- The words around the numbers tell the causes apart. -/
theorem words_inj : fault.words = fault'.words ↔ fault = fault' := by
  constructor
  · intro h
    rcases fault with (_ | _ | _) | (_ | _) <;> rcases fault' with (_ | _ | _) | (_ | _) <;>
      simp_all [words, repr_injective.eq_iff, hexText_injective.eq_iff]
  · rintro rfl
    rfl

/-! ### The words of a last line -/

/-- The text of a last line. -/
def fatalText (fault : Fault) (phase : Phase) : String :=
  s!"reef: fatal while {phase.name}: {fault.message} (trap {fault.trapCode})"

theorem fatalLine_eq (fault : Fault) (phase : Phase) :
    fault.fatalLine phase = .ofText (fault.fatalText phase) := rfl

def fatalWords (fault : Fault) (phase : Phase) : List String :=
  ["reef:", "fatal", "while", phase.name ++ ":"] ++ fault.words ++
    ["(trap", toString fault.trapCode ++ ")"]

theorem words_ne_nil (fault : Fault) : fault.words ≠ [] := by
  rcases fault with (_ | _ | _) | (_ | _) <;> exact List.cons_ne_nil _ _

theorem fatalText_eq_intercalate (fault : Fault) (phase : Phase) :
    fault.fatalText phase = " ".intercalate (fault.fatalWords phase) := by
  change "reef: fatal while " ++ phase.name ++ ": " ++ fault.message ++ " (trap " ++
    toString fault.trapCode ++ ")" = _
  rw [message_eq_intercalate, fatalWords, String.intercalate_append_of_ne_nil (by simp) (by simp),
    String.intercalate_append_of_ne_nil (by simp) fault.words_ne_nil]
  simp [← String.toList_inj]

theorem isWord_of_mem_fatalWords (fault : Fault) (phase : Phase) :
    ∀ w ∈ fault.fatalWords phase, IsWord w := by
  have hphase : IsWord (phase.name ++ ":") := by
    cases phase <;> simp [Phase.name, IsWord]
  have hcode : IsWord (toString fault.trapCode ++ ")") :=
    (isWord_toString _).append (by simp [IsWord])
  simp only [fatalWords, List.forall_mem_append, List.forall_mem_cons, hphase, hcode, true_and]
  exact ⟨⟨by simp [IsWord], fault.isWord_of_mem_words⟩, by simp [IsWord]⟩

theorem fatalWords_inj :
    fault.fatalWords phase = fault'.fatalWords phase' ↔ fault = fault' ∧ phase = phase' := by
  constructor
  · intro h
    obtain ⟨hfront, -⟩ := List.append_inj' h rfl
    obtain ⟨hphase, hwords⟩ := List.append_inj hfront rfl
    refine ⟨words_inj.mp hwords, ?_⟩
    cases phase <;> cases phase' <;> first | rfl | simp [Phase.name] at hphase
  · rintro ⟨rfl, rfl⟩
    rfl

/-- **The text names the phase and the fault.** -/
theorem fatalText_inj :
    fault.fatalText phase = fault'.fatalText phase' ↔ fault = fault' ∧ phase = phase' := by
  constructor
  · intro h
    rw [fatalText_eq_intercalate, fatalText_eq_intercalate] at h
    exact fatalWords_inj.mp (eq_of_intercalate_eq (fault.isWord_of_mem_fatalWords phase)
      (fault'.isWord_of_mem_fatalWords phase') (by simp [fatalWords]) (by simp [fatalWords]) h)
  · rintro ⟨rfl, rfl⟩
    rfl

/-! ### The room on a last line -/

theorem length_toDigits_ten_le {n : ℕ} (h : n < Address.addressSpace) :
    (Nat.toDigits 10 n).length ≤ 20 :=
  (Nat.length_toDigits_le_iff (by decide) (by decide)).mpr (h.trans (by decide))

theorem length_toDigits_sixteen_le {n : ℕ} (h : n < Address.addressSpace) :
    (Nat.toDigits 16 n).length ≤ 16 :=
  (Nat.length_toDigits_le_iff (by decide) (by decide)).mpr h

theorem wordsLength_words_le (h : fault.Representable) : wordsLength fault.words ≤ 100 := by
  match fault with
  | argument (.invalidBase base) =>
    have hbase := length_toDigits_ten_le (lt_trans (show base < 2 ^ 32 from h) (by decide))
    simp [words, wordsLength]
    omega
  | argument (.invalidLength length unit) =>
    have hlength := length_toDigits_ten_le h.1
    have hunit := length_toDigits_ten_le h.2
    simp [words, wordsLength]
    omega
  | argument (.outOfBounds requested available) =>
    have hrequested := length_toDigits_ten_le h.1
    have havailable := length_toDigits_ten_le h.2
    simp [words, wordsLength]
    omega
  | alloc (.addressOverflow mark size) =>
    have hmark := length_toDigits_sixteen_le h.1
    have hsize := length_toDigits_ten_le h.2
    simp [words, wordsLength]
    omega
  | alloc (.outOfMemory size pages) =>
    have hsize := length_toDigits_ten_le h.1
    have hpages := length_toDigits_ten_le h.2
    simp [words, wordsLength]
    omega

theorem trapCode_cases (fault : Fault) :
    fault.trapCode = 9300 ∨ fault.trapCode = 9301 ∨ fault.trapCode = 9302 := by
  rcases fault with (_ | _ | _) | (_ | _)
  all_goals simp [trapCode, AllocError.trapCode, Contract.trapInvalidArgument,
    Contract.trapAddressOverflow, Contract.trapOutOfMemory]

/-- A last line has room for all of its text. -/
theorem length_ofText_fatalText_le (h : fault.Representable) (phase : Phase) :
    (Bytes.ofText (fault.fatalText phase)).length ≤ Line.capacity := by
  have hwords := wordsLength_words_le h
  have hphase : phase.name.toList.length ≤ 10 := by cases phase <;> decide
  have hcode : (Nat.toDigits 10 fault.trapCode).length ≤ 20 := by
    have hcases := fault.trapCode_cases
    exact length_toDigits_ten_le (lt_trans (show _ < 10000 by omega) (by decide))
  rw [fatalText_eq_intercalate]
  refine (length_ofText_intercalate_le (fault.isWord_of_mem_fatalWords phase)).trans ?_
  rw [fatalWords, wordsLength_append, wordsLength_append]
  simp [wordsLength, Line.capacity] at hphase ⊢
  omega

/-- The whole text is on the last line. -/
theorem fatalLine_eq_of_representable (h : fault.Representable) (phase : Phase) :
    fault.fatalLine phase = ⟨Bytes.ofText (fault.fatalText phase), false⟩ := by
  have hfits : (Bytes.ofText (fault.fatalText phase)).length ≤ Line.blank.room :=
    length_ofText_fatalText_le h phase
  rw [fatalLine_eq, Line.ofText, Line.write_of_le hfits]
  exact congrArg (Line.mk · false) (List.nil_append _)

end Fault

/-! ### Stopping a job -/

/-- Stops a job for a fault in some phase: why it does not return, and the host after its last
line. -/
def Host.stop (host : Host) (phase : Phase) (fault : Fault) : Abort × Host :=
  (.trap fault, host.log (fault.fatalLine phase).bytes)

/-- A body that stops itself does so while it is running. -/
theorem Job.run_fail {ν α : Type} (fault : Fault) (session : Session) :
    (Job.fail fault : Job ν α).run session =
      ⟨.error (session.host.stop .running fault).1, [],
        { session with host := (session.host.stop .running fault).2 }⟩ := rfl

namespace Fault

/-- **The last line is complete, and tells what stopped the job.**  It is one call, however the text
is split on its way to the line; nothing of it is cut off, it ends with the trap code, and the job
ends with the same code in its panic.  No other phase and no other fault would leave it. -/
theorem stop_decodable (host : Host) (phase : Phase) {fault : Fault} (h : fault.Representable) :
    (host.stop phase fault).2.calls =
      host.calls ++ [.log (Bytes.ofText (fault.fatalText phase))] ∧
    (fault.fatalLine phase).truncated = false ∧
    (∀ parts, String.join parts = fault.fatalText phase →
      Line.ofParts parts = fault.fatalLine phase) ∧
    (host.stop phase fault).2.logs = host.logs ++ [fault.fatalText phase] ∧
    (∃ front, fault.fatalText phase = front ++ s!"(trap {fault.trapCode})") ∧
    (host.stop phase fault).1.message? = some s!"reef trap {fault.trapCode}" ∧
    ∀ phase' (fault' : Fault), fault'.Representable →
      (fault'.fatalLine phase').bytes = (fault.fatalLine phase).bytes →
      fault' = fault ∧ phase' = phase := by
  have hline := fatalLine_eq_of_representable h phase
  refine ⟨?_, ?_, ?_, ?_, ⟨s!"reef: fatal while {phase.name}: {fault.message} ", ?_⟩, rfl, ?_⟩
  · rw [Host.stop, hline, Host.calls_log]
  · rw [hline]
  · intro parts hparts
    have hfits : (Bytes.ofText (String.join parts)).length ≤ Line.blank.room := by
      rw [hparts]
      exact length_ofText_fatalText_le h phase
    rw [Line.ofParts, Line.foldl_write_of_le hfits, hparts, fatalLine_eq, Line.ofText]
  · rw [Host.stop, hline]
    simp [Host.log, Host.logs, Host.record, HostCall.logged?]
  · change "reef: fatal while " ++ phase.name ++ ": " ++ fault.message ++ " (trap " ++
        toString fault.trapCode ++ ")" =
      "reef: fatal while " ++ phase.name ++ ": " ++ fault.message ++ " " ++
        ("(trap " ++ toString fault.trapCode ++ ")")
    simp [← String.toList_inj]
  · intro phase' fault' h' hbytes
    rw [hline, fatalLine_eq_of_representable h' phase'] at hbytes
    have htext := congrArg Utf8.lossy hbytes
    rw [Utf8.lossy_ofText, Utf8.lossy_ofText] at htext
    exact fatalText_inj.mp htext

/-- Every field at its largest, in the phase with the longest name. -/
theorem stop_decodable_largest :
    (argument (.outOfBounds (2 ^ 64 - 1) (2 ^ 64 - 1))).Representable ∧
    (fatalLine (argument (.outOfBounds (2 ^ 64 - 1) (2 ^ 64 - 1))) .finalizing).truncated =
      false := by
  have h : (argument (.outOfBounds (2 ^ 64 - 1) (2 ^ 64 - 1))).Representable := by
    constructor <;> decide
  exact ⟨h, (stop_decodable ⟨[], 0, [], none, 0⟩ .finalizing h).2.1⟩

end Fault
end JobSandbox
