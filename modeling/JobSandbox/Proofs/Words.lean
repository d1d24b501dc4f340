import JobSandbox.Proofs.Job.Course
import JobSandbox.Proofs.Dataset
import JobSandbox.Proofs.Result
import Mathlib.Algebra.BigOperators.Group.Finset.Basic

/-!
# Words in place and as a stream

The words of a buffer can be turned round where they stand, or they can be read one by one as if
they were.  The two know nothing of each other: one goes through the buffer and puts bytes in front
of what it has done, the other takes four bytes off a buffer that it never changes.  They agree all
the same.  What the stream yields as its `i`-th word is the `i`-th word of the turned buffer, least
significant byte first; and turning a buffer twice leaves it as it was.

A stream knows how many words are left, and at its end it stays there.  A buffer that is not a whole
number of words is refused by both, for the same reason, and left alone.

## Main definitions

* `Bytes.wordAt` — a word of a buffer.
* `SwappedWords.advance`, `SwappedWords.after` — one step of a stream, and a number of them.

## Main results

* `wordAt_swapWords`, `swapWords_swapWords` — what turning round does, and that it undoes itself.
* `SwappedWords.advance_after` — what a stream yields, and what it has left.
* `SwappedWords.fold_add` — the sum of a stream, modulo `2 ^ 32`.
* `swapInPlace_agrees_with_stream` — **a buffer turned round holds the words of its stream.**
-/

namespace JobSandbox

open Finset

/-! ### Words of a buffer -/

namespace Bytes

/-- The `i`-th word of a buffer.  It has four bytes, unless the buffer ends before. -/
def wordAt (buffer : Bytes) (i : ℕ) : Bytes := (buffer.drop (wordSize * i)).take wordSize

theorem wordAt_cons_succ (a b c d : UInt8) (rest : Bytes) (i : ℕ) :
    wordAt (a :: b :: c :: d :: rest) (i + 1) = wordAt rest i := rfl

theorem bigEndian_lt (bytes : Bytes) : bigEndian bytes < 256 ^ bytes.length := by
  have hlt := littleEndian_lt bytes.reverse
  rwa [← bigEndian_reverse, List.reverse_reverse, List.length_reverse] at hlt

theorem bigEndian_wordAt_lt (buffer : Bytes) (i : ℕ) : bigEndian (wordAt buffer i) < 2 ^ 32 := by
  have hlength : (wordAt buffer i).length ≤ 4 := List.length_take_le _ _
  have hpow : 256 ^ (wordAt buffer i).length ≤ 256 ^ 4 := Nat.pow_le_pow_right (by decide) hlength
  exact (bigEndian_lt _).trans_le (hpow.trans (by decide))

end Bytes

/-- The first word of a buffer, and the bytes behind it. -/
theorem exists_word {buffer : Bytes} (h : wordSize ≤ buffer.length) :
    ∃ a b c d rest, buffer = a :: b :: c :: d :: rest := by
  match buffer with
  | a :: b :: c :: d :: rest => exact ⟨a, b, c, d, rest, rfl⟩
  | [] | [_] | [_, _] | [_, _, _] => exact absurd h (by simp [wordSize])

/-- Words are gone through one by one, up to a rest that is too short for another. -/
theorem words_induction {P : Bytes → Prop}
    (short : ∀ rest : Bytes, rest.length < wordSize → P rest)
    (word : ∀ a b c d rest, P rest → P (a :: b :: c :: d :: rest)) (buffer : Bytes) : P buffer := by
  induction hn : buffer.length using Nat.strong_induction_on generalizing buffer with
  | _ n ih =>
    rcases Nat.lt_or_ge buffer.length wordSize with hlt | hge
    · exact short buffer hlt
    · obtain ⟨a, b, c, d, rest, rfl⟩ := exists_word hge
      simp only [List.length_cons] at hn
      exact word a b c d rest (ih rest.length (by omega) rest rfl)

/-! ### Turning words round -/

/-- Bytes that are no word stay as they are. -/
theorem swapWords_of_lt {rest : Bytes} (h : rest.length < wordSize) : swapWords rest = rest := by
  match rest with
  | a :: b :: c :: d :: rest => exact absurd h (by simp [wordSize])
  | [] | [_] | [_, _] | [_, _, _] => rfl

@[simp] theorem length_swapWords (buffer : Bytes) :
    (swapWords buffer).length = buffer.length := by
  induction buffer using words_induction with
  | short rest h => rw [swapWords_of_lt h]
  | word a b c d rest ih => simp [ih]

/-- **Turning round twice leaves a buffer as it was.** -/
theorem swapWords_swapWords (buffer : Bytes) : swapWords (swapWords buffer) = buffer := by
  induction buffer using words_induction with
  | short rest h => rw [swapWords_of_lt h, swapWords_of_lt h]
  | word a b c d rest ih => rw [swapWords_cons, swapWords_cons, ih]

/-- **Every whole word is turned round**, where it stands. -/
theorem wordAt_swapWords {buffer : Bytes} {i : ℕ} (h : i < buffer.length / wordSize) :
    (swapWords buffer).wordAt i = (buffer.wordAt i).reverse := by
  induction buffer using words_induction generalizing i with
  | short rest hlt => rw [Nat.div_eq_of_lt hlt] at h; omega
  | word a b c d rest ih =>
    rw [swapWords_cons]
    cases i with
    | zero => rfl
    | succ i =>
      rw [Bytes.wordAt_cons_succ, Bytes.wordAt_cons_succ]
      refine ih ?_
      simp only [List.length_cons, wordSize] at h ⊢
      omega

/-- A word that was turned round is worth in one order what it was in the other. -/
theorem littleEndian_wordAt_swapWords {buffer : Bytes} {i : ℕ}
    (h : i < buffer.length / wordSize) :
    Bytes.littleEndian ((swapWords buffer).wordAt i) = Bytes.bigEndian (buffer.wordAt i) := by
  rw [wordAt_swapWords h, ← Bytes.bigEndian_reverse, List.reverse_reverse]

theorem swapInPlace_of_whole {buffer : Bytes} (h : buffer.length % wordSize = 0) :
    swapInPlace buffer = .ok (buffer.length / wordSize, swapWords buffer) := by
  rw [swapInPlace, checkWords, if_pos h]
  rfl

theorem swapInPlace_of_partial {buffer : Bytes} (h : buffer.length % wordSize ≠ 0) :
    swapInPlace buffer = .error (.invalidLength buffer.length wordSize) := by
  rw [swapInPlace, checkWords, if_neg h]
  rfl

/-! ### The stream -/

namespace SwappedWords

theorem ofBytes?_of_whole {buffer : Bytes} (h : buffer.length % wordSize = 0) :
    ofBytes? buffer = .ok ⟨buffer⟩ := by
  rw [ofBytes?, checkWords, if_pos h]
  rfl

theorem ofBytes?_of_partial {buffer : Bytes} (h : buffer.length % wordSize ≠ 0) :
    ofBytes? buffer = .error (.invalidLength buffer.length wordSize) := by
  rw [ofBytes?, checkWords, if_neg h]
  rfl

/-- One step: the next word if there is one, and the stream as it is then.  At its end a stream
stays where it is. -/
def advance (words : SwappedWords) : Option UInt32 × SwappedWords :=
  match words.next? with
  | none => (none, words)
  | some (w, words') => (some w, words')

/-- A stream after some steps. -/
def after (words : SwappedWords) : ℕ → SwappedWords
  | 0 => words
  | k + 1 => (words.after k).advance.2

variable {words : SwappedWords}

theorem next?_of_le (h : wordSize ≤ words.rest.length) :
    words.next? = some (UInt32.ofNat (Bytes.bigEndian (words.rest.take wordSize)),
      ⟨words.rest.drop wordSize⟩) := by
  obtain ⟨rest⟩ := words
  obtain ⟨a, b, c, d, rest, rfl⟩ := exists_word h
  rfl

theorem next?_of_lt (h : words.rest.length < wordSize) : words.next? = none := by
  obtain ⟨rest⟩ := words
  match rest with
  | a :: b :: c :: d :: rest => exact absurd h (by simp [wordSize])
  | [] | [_] | [_, _] | [_, _, _] => rfl

/-- Every step takes a word off, until there is none. -/
theorem rest_after (h : words.rest.length % wordSize = 0) (k : ℕ) :
    (words.after k).rest = words.rest.drop (wordSize * k) := by
  induction k with
  | zero => rfl
  | succ k ih =>
    have hwhole : (words.after k).rest.length % wordSize = 0 := by
      rw [ih, List.length_drop]
      unfold wordSize at h ⊢
      omega
    rw [after, advance, Nat.mul_succ, ← List.drop_drop, ← ih]
    rcases Nat.lt_or_ge (words.after k).rest.length wordSize with hlt | hge
    · rw [next?_of_lt hlt, List.drop_eq_nil_of_le hlt.le]
      exact List.eq_nil_of_length_eq_zero (by rwa [Nat.mod_eq_of_lt hlt] at hwhole)
    · rw [next?_of_le hge]

/-- **What a stream yields and has left**, after any number of steps. -/
theorem advance_after (h : words.rest.length % wordSize = 0) (k : ℕ) :
    (words.after k).remaining = words.remaining - k ∧
      (words.after k).advance.1.map UInt32.toNat =
        if k < words.remaining then some (Bytes.bigEndian (words.rest.wordAt k)) else none := by
  have hlength : (words.after k).rest.length = words.rest.length - wordSize * k := by
    rw [rest_after h, List.length_drop]
  unfold remaining wordSize at *
  refine ⟨by omega, ?_⟩
  by_cases hk : k < words.rest.length / 4
  · have hvalue : (UInt32.ofNat (Bytes.bigEndian (words.rest.wordAt k))).toNat =
        Bytes.bigEndian (words.rest.wordAt k) :=
      UInt32.toNat_ofNat_of_lt' (Bytes.bigEndian_wordAt_lt words.rest k)
    have hmore : wordSize ≤ (words.after k).rest.length := by
      unfold wordSize
      omega
    rw [if_pos hk, advance, next?_of_le hmore, rest_after h, ← Bytes.wordAt]
    exact congrArg some hvalue
  · have hend : (words.after k).rest.length < wordSize := by
      unfold wordSize
      omega
    rw [if_neg hk, advance, next?_of_lt hend]
    rfl

/-- The sum of the words of a stream, modulo `2 ^ 32`. -/
theorem fold_add (buffer : Bytes) (start : UInt32) :
    (⟨buffer⟩ : SwappedWords).fold (· + ·) start =
      start + UInt32.ofNat (∑ i ∈ range (buffer.length / wordSize),
        Bytes.bigEndian (buffer.wordAt i)) := by
  induction buffer using words_induction generalizing start with
  | short rest h =>
    rw [fold, Nat.div_eq_of_lt h, range_zero, sum_empty]
    split
    · simp
    · next hnext => rw [next?_of_lt h] at hnext; cases hnext
  | word a b c d rest ih =>
    have hcount : (a :: b :: c :: d :: rest).length / wordSize = rest.length / wordSize + 1 := by
      simp only [List.length_cons, wordSize]
      omega
    rw [fold, hcount, sum_range_succ', Nat.add_comm, UInt32.ofNat_add, ← UInt32.add_assoc]
    exact ih (start + UInt32.ofNat (Bytes.bigEndian [a, b, c, d]))

end SwappedWords

/-! ### Words of a scratch region -/

/-- What can be read can be written over, and is then read. -/
theorem Session.exists_perform_write {session : Session} {number : ℕ} {content bytes : Bytes}
    (hread : session.perform (.read number) = some (content, session))
    (hlength : bytes.length = content.length) :
    ∃ written after, session.perform (.write number bytes) = some (written, after) ∧
      after.perform (.read number) = some (bytes, after) := by
  obtain ⟨region, hregion, hrest⟩ := Option.bind_eq_some_iff.mp hread
  obtain ⟨content', hcontent, heq⟩ := Option.bind_eq_some_iff.mp hrest
  cases heq
  have hin := Arena.read?_isSome_iff.mp (Option.isSome_of_eq_some hcontent)
  obtain ⟨arena, hwrite⟩ : ∃ arena, session.arena.write? region bytes = some arena :=
    Option.isSome_iff_exists.mp (Arena.write?_isSome_iff.mpr hin)
  have hafter := Arena.read?_of_write? hwrite hcontent
  rw [Bytes.overwrite_of_length_eq hlength] at hafter
  refine ⟨min bytes.length region.length, { session with arena }, ?_, ?_⟩
  · simp only [perform, hregion, hwrite, bind, Option.bind_some, pure]
  · simp only [perform, hregion, hafter, bind, Option.bind_some, pure]

section Region

variable {ν : Type} {session : Session} {number : ℕ} {buffer : Bytes}
  (hread : session.perform (.read number) = some (buffer, session))

include hread

/-- A region of whole words is turned round, and its words are counted. -/
theorem Job.run_swap_of_whole (h : buffer.length % wordSize = 0) :
    ∃ after : Session, (Job.swap number : Job ν ℕ).run session =
        ⟨.ok (buffer.length / wordSize), [], after⟩ ∧
      after.perform (.read number) = some (swapWords buffer, after) := by
  obtain ⟨written, after, hwrite, hafter⟩ :=
    Session.exists_perform_write hread (length_swapWords buffer)
  refine ⟨after, ?_, hafter⟩
  have hrun : (Job.swap number : Job ν ℕ).run session =
      ((Job.orFail (swapInPlace buffer)).bind fun result =>
        (Job.write number result.2).bind fun _ => .done result.1).run session :=
    Job.run_act_of_some _ hread
  rw [hrun, swapInPlace_of_whole h]
  exact Job.run_act_of_some _ hwrite

/-- Any other region stops the job, and stays as it is. -/
theorem Job.run_swap_of_partial (h : buffer.length % wordSize ≠ 0) :
    ((Job.swap number : Job ν ℕ).run session).ending =
        .error (.trap (.argument (.invalidLength buffer.length wordSize))) ∧
      ((Job.swap number : Job ν ℕ).run session).session.arena = session.arena := by
  have hrun : (Job.swap number : Job ν ℕ).run session =
      ((Job.orFail (swapInPlace buffer)).bind fun result =>
        (Job.write number result.2).bind fun _ => .done result.1).run session :=
    Job.run_act_of_some _ hread
  rw [hrun, swapInPlace_of_partial h]
  exact ⟨rfl, rfl⟩

end Region

/-! ### Both ways -/

/-- **A buffer turned round holds the words of its stream.**  If it is a number of whole words, that
number is the answer, and turning round again brings the buffer back.  Its stream has as many words
left as it has not yet yielded; the `k`-th one is the `k`-th word of the turned buffer, least
significant byte first; and from the last one on it yields nothing more.  A buffer of any other
length is refused in both ways with the same error.  In a scratch region the turned buffer takes the
place of the other, and a refusal leaves the memory as it was. -/
theorem swapInPlace_agrees_with_stream {ν : Type} (buffer : Bytes) :
    (buffer.length % 4 = 0 →
      ∃ swapped words,
        swapInPlace buffer = .ok (buffer.length / 4, swapped) ∧
        swapInPlace swapped = .ok (buffer.length / 4, buffer) ∧
        SwappedWords.ofBytes? buffer = .ok words ∧
        (∀ k, (words.after k).remaining = buffer.length / 4 - k ∧
          (words.after k).advance.1.map UInt32.toNat =
            if k < buffer.length / 4 then some (Bytes.littleEndian (swapped.wordAt k))
            else none) ∧
        ∀ (session : Session) (number : ℕ),
          session.perform (.read number) = some (buffer, session) →
          ∃ after : Session, (Job.swap number : Job ν ℕ).run session =
              ⟨.ok (buffer.length / 4), [], after⟩ ∧
            after.perform (.read number) = some (swapped, after)) ∧
    (buffer.length % 4 ≠ 0 →
      swapInPlace buffer = .error (.invalidLength buffer.length 4) ∧
      SwappedWords.ofBytes? buffer = .error (.invalidLength buffer.length 4) ∧
      ∀ (session : Session) (number : ℕ),
        session.perform (.read number) = some (buffer, session) →
        ((Job.swap number : Job ν ℕ).run session).ending =
            .error (.trap (.argument (.invalidLength buffer.length 4))) ∧
          ((Job.swap number : Job ν ℕ).run session).session.arena = session.arena) := by
  constructor
  · intro h
    have hback := swapInPlace_of_whole (show (swapWords buffer).length % wordSize = 0 by
      rwa [length_swapWords])
    rw [swapWords_swapWords, length_swapWords] at hback
    refine ⟨swapWords buffer, ⟨buffer⟩, swapInPlace_of_whole h, hback,
      SwappedWords.ofBytes?_of_whole h, ?_, ?_⟩
    · intro k
      obtain ⟨hleft, hyields⟩ := @SwappedWords.advance_after ⟨buffer⟩ h k
      refine ⟨hleft, hyields.trans ?_⟩
      refine ite_congr rfl (fun hk => ?_) fun _ => rfl
      rw [littleEndian_wordAt_swapWords hk]
    · intro session number hread
      exact Job.run_swap_of_whole hread h
  · intro h
    refine ⟨swapInPlace_of_partial h, SwappedWords.ofBytes?_of_partial h, ?_⟩
    intro session number hread
    exact Job.run_swap_of_partial hread h

/-- Bytes that have been written to a scratch region. -/
theorem Session.exists_reading (bytes : Bytes) (h : bytes.length ≤ Contract.pageSize) :
    ∃ session : Session, session.perform (.read 0) = some (bytes, session) := by
  let blank : Session :=
    { host := { dataset := [] }, arena := .ofMemory (.ofPages 1 1 0), dataset := ⟨⟨0, 0⟩, 0⟩
      policy := .standard, regions := [⟨0, bytes.length⟩] }
  have hin : (⟨0, bytes.length⟩ : Region).stop ≤ blank.arena.memory.size := by
    have hsize : blank.arena.memory.size = 1 * Contract.pageSize := PagedMemory.size_ofPages 1 1 0
    have hstop : (⟨0, bytes.length⟩ : Region).stop = 0 + bytes.length := rfl
    omega
  obtain ⟨content, hcontent⟩ := Option.isSome_iff_exists.mp (Arena.read?_isSome_iff.mpr hin)
  have hread : blank.perform (.read 0) = some (content, blank) := by
    have hregion : blank.regions[0]? = some ⟨0, bytes.length⟩ := rfl
    simp only [perform, hregion, hcontent, bind, Option.bind_some, pure]
  have hlength : content.length = bytes.length := PagedMemory.length_of_read? hcontent
  obtain ⟨-, after, -, hafter⟩ := exists_perform_write hread hlength.symm
  exact ⟨after, hafter⟩

/-- Two words are turned round; five bytes are refused, and stay where they are. -/
theorem swapInPlace_agrees_with_stream_of_two_words :
    (∃ words, swapInPlace [1, 2, 3, 4, 5, 6, 7, 8] = .ok (2, [4, 3, 2, 1, 8, 7, 6, 5]) ∧
      SwappedWords.ofBytes? [1, 2, 3, 4, 5, 6, 7, 8] = .ok words ∧
      (words.after 1).remaining = 1 ∧
      (words.after 1).advance.1.map UInt32.toNat = some 0x05060708 ∧
      (words.after 2).advance.1.map UInt32.toNat = none) ∧
    ∃ session : Session, session.perform (.read 0) = some ([1, 2, 3, 4, 5], session) ∧
      ((Job.swap 0 : Job Empty ℕ).run session).ending =
        .error (.trap (.argument (.invalidLength 5 4))) ∧
      ((Job.swap 0 : Job Empty ℕ).run session).session.arena = session.arena := by
  obtain ⟨swapped, words, hswap, -, hwords, hstream, -⟩ :=
    (swapInPlace_agrees_with_stream (ν := Empty) [1, 2, 3, 4, 5, 6, 7, 8]).1 (by decide)
  have hswapped : swapInPlace [1, 2, 3, 4, 5, 6, 7, 8] = .ok (2, [4, 3, 2, 1, 8, 7, 6, 5]) := rfl
  cases hswapped.symm.trans hswap
  obtain ⟨session, hread⟩ := Session.exists_reading [1, 2, 3, 4, 5] (by decide)
  obtain ⟨-, -, hrefused⟩ :=
    (swapInPlace_agrees_with_stream (ν := Empty) [1, 2, 3, 4, 5]).2 (by decide)
  exact ⟨⟨words, hswapped, hwords, (hstream 1).1, (hstream 1).2, (hstream 2).2⟩,
    session, hread, hrefused session 0 hread⟩

end JobSandbox
