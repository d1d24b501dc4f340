import JobSandbox.Bytes
import JobSandbox.Fault

/-!
# Swapping the bytes of words

A word is four bytes.  The bytes of every word of a buffer can be turned round in place; or the
words can be read one after another in their swapped order, which is most significant byte first.
Both want a whole number of words and refuse any other length in the same way.

## Main definitions

* `swapInPlace` — the buffer with every word turned round, and the number of words.
* `SwappedWords` — a stream of the swapped words, which knows how many are left.
-/

namespace JobSandbox

def wordSize : Nat := 4

/-- Refuses a length that is not a whole number of words. -/
def checkWords (length : Nat) : Except ArgumentError Unit :=
  if length % wordSize = 0 then .ok () else .error (.invalidLength length wordSize)

/-! ### In place -/

/-- Turns round the words of a buffer; `done` holds the bytes in front of it, the latest first. -/
def swapWordsOnto : (done : Bytes) → Bytes → Bytes
  | done, a :: b :: c :: d :: rest => swapWordsOnto (a :: b :: c :: d :: done) rest
  | done, rest => done.reverseAux rest

/-- The buffer with every whole word turned round. -/
def swapWords (buffer : Bytes) : Bytes := swapWordsOnto [] buffer

/-- The number of words of a buffer, and the buffer with each of them turned round. -/
def swapInPlace (buffer : Bytes) : Except ArgumentError (Nat × Bytes) := do
  checkWords buffer.length
  pure (buffer.length / wordSize, swapWords buffer)

theorem swapWordsOnto_eq (done buffer : Bytes) :
    swapWordsOnto done buffer = done.reverse ++ swapWords buffer := by
  -- Both sides turn round the same words in front of the same bytes.
  have general : ∀ done front buffer : Bytes,
      swapWordsOnto (front ++ done) buffer = done.reverse ++ swapWordsOnto front buffer := by
    intro done front buffer
    fun_induction swapWordsOnto front buffer with
    | case1 front a b c d rest ih =>
      rw [← ih]
      simp [swapWordsOnto]
    | case2 front rest h =>
      rw [swapWordsOnto]
      · simp [List.reverseAux_eq]
      · exact h
  simpa [swapWords] using general done [] buffer

@[simp] theorem swapWords_cons (a b c d : UInt8) (rest : Bytes) :
    swapWords (a :: b :: c :: d :: rest) = d :: c :: b :: a :: swapWords rest := by
  rw [swapWords, swapWordsOnto, swapWordsOnto_eq]
  rfl

/-! ### As a stream -/

/-- The words of a buffer that have not been read yet. -/
structure SwappedWords where
  rest : Bytes
  deriving DecidableEq, Repr

namespace SwappedWords

/-- The stream of a buffer that is a whole number of words. -/
def ofBytes? (bytes : Bytes) : Except ArgumentError SwappedWords := do
  checkWords bytes.length
  pure ⟨bytes⟩

/-- How many words are left. -/
def remaining (words : SwappedWords) : Nat := words.rest.length / wordSize

/-- The next word, most significant byte first, and the stream behind it. -/
def next? (words : SwappedWords) : Option (UInt32 × SwappedWords) :=
  match words.rest with
  | a :: b :: c :: d :: rest => some (UInt32.ofNat (Bytes.bigEndian [a, b, c, d]), ⟨rest⟩)
  | _ => none

theorem length_rest_of_next? {words words' : SwappedWords} {w : UInt32}
    (h : words.next? = some (w, words')) : words'.rest.length + wordSize = words.rest.length := by
  unfold next? at h
  split at h
  · next heq =>
    cases h
    simp [heq, wordSize]
  · cases h

/-- What a fold over all words of the stream comes to. -/
def fold {α : Type} (f : α → UInt32 → α) (start : α) (words : SwappedWords) : α :=
  match _h : words.next? with
  | none => start
  | some (w, words') => fold f (f start w) words'
termination_by words.rest.length
decreasing_by
  have := length_rest_of_next? _h
  simp only [wordSize] at this
  omega

end SwappedWords
end JobSandbox
