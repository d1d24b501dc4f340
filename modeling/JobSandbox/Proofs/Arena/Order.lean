import JobSandbox.Memory.Scripted
import JobSandbox.Proofs.Arena.Ownership
import JobSandbox.Proofs.Arena.Tries

/-!
# The order of regions

An arena hands out its regions in the order of their addresses, and no two of them overlap.  It owes
this to its mark alone, not to the memory: a memory may answer with any number of pages it likes,
take back what it said before, or let the limit fall behind the mark, and all it can do is to make
the arena skip addresses or fail.

What is said of a sequence of requests is read off a record of it, one entry for each request that
has come to an end.

## Main definitions

* `Turn` — a request that has ended, with the mark on either side of it.
* `Arena.Turns` — the record of a sequence of requests, over any memory.
* `Turn.InOrder` — what one entry of the record is like.

## Main results

* `Turns.regions_ascending` — **regions ascend and keep apart, whatever the memory answers.**
-/

namespace JobSandbox

open Address

/-- A request that has ended. -/
structure Turn where
  size : ℕ
  align : ℕ
  result : Except AllocError Region
  /-- The high-water mark when the request came in. -/
  markBefore : ℕ
  /-- The high-water mark when it had ended. -/
  markAfter : ℕ

namespace Turn

/-- The region that was handed out, if it has any bytes. -/
def region? (turn : Turn) : Option Region :=
  if turn.size = 0 then none else turn.result.toOption

theorem region?_eq_some_iff {turn : Turn} {region : Region} :
    turn.region? = some region ↔ turn.size ≠ 0 ∧ turn.result = .ok region := by
  unfold region?
  split
  · next hsize => simp [hsize]
  · next hsize => cases hresult : turn.result <;> simp [Except.toOption, hsize]

/-- The mark has not fallen, and the region lies at a multiple of the alignment, between the mark
before and the mark after. -/
structure InOrder (turn : Turn) : Prop where
  mark_le : turn.markBefore ≤ turn.markAfter
  placed : ∀ region, turn.region? = some region →
    turn.align ∣ region.offset ∧ turn.markBefore ≤ region.offset ∧
      region.stop = region.offset + turn.size ∧ region.stop < addressSpace ∧
      region.stop = turn.markAfter

/-- A region that was handed out before a turn lies below the one that the turn hands out. -/
theorem InOrder.below {earlier later : Turn} (hearlier : earlier.InOrder) (hlater : later.InOrder)
    (hmark : earlier.markAfter ≤ later.markBefore) {lower upper : Region}
    (hlower : earlier.region? = some lower) (hupper : later.region? = some upper) :
    lower.offset < upper.offset ∧ Disjoint lower.addresses upper.addresses := by
  have hsize : earlier.size ≠ 0 := (region?_eq_some_iff.mp hlower).1
  obtain ⟨-, -, hstop, -, hend⟩ := hearlier.placed lower hlower
  obtain ⟨-, hstart, -⟩ := hlater.placed upper hupper
  have hapart : lower.stop ≤ upper.offset := by omega
  refine ⟨by omega, Set.disjoint_left.mpr fun a hl hu => ?_⟩
  have hbelow : a < lower.stop := hl.2
  have habove : upper.offset ≤ a := hu.1
  omega

end Turn

namespace Arena

/-! ### Records of requests -/

/-- `Turns arena turns after`: the requests of `turns` were made of `arena` one after the other, all
of them ended, and they left `after`. -/
inductive Turns {M : Type} [LinearMemory M] : Arena M → List Turn → Arena M → Prop where
  | nil (arena : Arena M) : Turns arena [] arena
  | cons {arena middle after : Arena M} {size align : ℕ} {others : List (M → M)}
      {result : Except AllocError Region} {turns : List Turn}
      (hfirst : arena.allocateAmid size align others = some (result, middle))
      (hrest : Turns middle turns after) :
      Turns arena (⟨size, align, result, arena.mark, middle.mark⟩ :: turns) after

section Turns

variable {M : Type} [LinearMemory M] {arena middle after : Arena M} {size align : ℕ}
  {others : List (M → M)} {result : Except AllocError Region} {turns : List Turn}

/-- One request over any memory. -/
theorem inOrder_of_allocateAmid (hpow : align.isPowerOfTwo) (halign : align < addressSpace)
    (h : arena.allocateAmid size align others = some (result, middle)) :
    (⟨size, align, result, arena.mark, middle.mark⟩ : Turn).InOrder := by
  refine ⟨mark_le_of_allocateAmid h, fun region hregion => ?_⟩
  obtain ⟨hsize, hok⟩ := Turn.region?_eq_some_iff.mp hregion
  dsimp only at hsize hok
  subst hok
  obtain ⟨hlength, horder, hstop, hroom⟩ := of_allocateAmid_ok h
  have hdvd : align ∣ region.offset := dvd_offset_of_allocateAmid_ok hpow halign hsize h
  exact ⟨hdvd, horder, hlength ▸ rfl, (hroom hsize).2, hstop⟩

/-- The mark only rises from entry to entry. -/
theorem Turns.marks_ascending (h : Turns arena turns after) :
    arena.mark ≤ after.mark ∧ (∀ turn ∈ turns, arena.mark ≤ turn.markBefore) ∧
      turns.Pairwise fun earlier later => earlier.markAfter ≤ later.markBefore := by
  induction h with
  | nil arena => exact ⟨le_rfl, fun _ hmem => absurd hmem List.not_mem_nil, .nil⟩
  | cons hfirst hrest ih =>
    obtain ⟨hafter, hbefore, hpairwise⟩ := ih
    have hmark := mark_le_of_allocateAmid hfirst
    refine ⟨hmark.trans hafter, fun turn hmem => ?_, .cons hbefore hpairwise⟩
    rcases List.mem_cons.mp hmem with rfl | hmem
    · exact le_rfl
    · exact hmark.trans (hbefore turn hmem)

/-- Every entry is in order. -/
theorem Turns.inOrder (h : Turns arena turns after)
    (haligns : ∀ turn ∈ turns, turn.align.isPowerOfTwo ∧ turn.align < addressSpace) :
    ∀ turn ∈ turns, turn.InOrder := by
  induction h with
  | nil arena => exact fun _ hmem => absurd hmem List.not_mem_nil
  | cons hfirst hrest ih =>
    rw [List.forall_mem_cons] at haligns ⊢
    obtain ⟨⟨hpow, halign⟩, hothers⟩ := haligns
    exact ⟨inOrder_of_allocateAmid hpow halign hfirst, ih hothers⟩

/-- **Regions ascend and keep apart, whatever the memory answers.** -/
theorem Turns.regions_ascending (h : Turns arena turns after)
    (haligns : ∀ turn ∈ turns, turn.align.isPowerOfTwo ∧ turn.align < addressSpace) :
    arena.mark ≤ after.mark ∧ (∀ turn ∈ turns, turn.InOrder) ∧
      (turns.Pairwise fun earlier later => earlier.markAfter ≤ later.markBefore) ∧
      (turns.filterMap Turn.region?).Pairwise fun lower upper =>
        lower.offset < upper.offset ∧ Disjoint lower.addresses upper.addresses := by
  obtain ⟨hmark, -, hmarks⟩ := h.marks_ascending
  have horder : ∀ turn ∈ turns, turn.InOrder := h.inOrder haligns
  refine ⟨hmark, horder, hmarks, List.pairwise_filterMap.mpr ?_⟩
  refine hmarks.imp_of_mem fun hearlier hlater hle => ?_
  intro lower hlower upper hupper
  exact (horder _ hearlier).below (horder _ hlater) hle hlower hupper

end Turns

/-- A memory of one page that claims to have had five pages, then none, then one, and then refuses:
the second request skips to the sixth page and is served there in the end. -/
theorem Turns.regions_ascending_of_contradictions :
    let arena := ofMemory (⟨8, 65536, [some 5, some 0, some 1], []⟩ : ScriptedMemory)
    let turns : List Turn :=
      [⟨100, 8, .ok ⟨8, 100⟩, 8, 108⟩, ⟨70000, 16, .ok ⟨327680, 70000⟩, 108, 397680⟩,
        ⟨100000, 8, .error (.outOfMemory 100000 1), 397680, 397680⟩,
        ⟨10, 8, .ok ⟨397680, 10⟩, 397680, 397690⟩]
    ∃ after, Turns arena turns after ∧
      (∀ turn ∈ turns, turn.align.isPowerOfTwo ∧ turn.align < addressSpace) ∧
      arena.mark ≤ after.mark ∧ (∀ turn ∈ turns, turn.InOrder) ∧
      (turns.Pairwise fun earlier later => earlier.markAfter ≤ later.markBefore) ∧
      (turns.filterMap Turn.region?).Pairwise fun lower upper =>
        lower.offset < upper.offset ∧ Disjoint lower.addresses upper.addresses := by
  intro arena turns
  have hfirst : (⟨⟨8, 65536, [some 5, some 0, some 1], []⟩, 8, 65536⟩ :
      Arena ScriptedMemory).allocateAmid 100 8 [id] =
      some (.ok ⟨8, 100⟩, ⟨⟨8, 65536, [some 5, some 0, some 1], []⟩, 108, 65536⟩) := rfl
  have hsecond : (⟨⟨8, 65536, [some 5, some 0, some 1], []⟩, 108, 65536⟩ :
      Arena ScriptedMemory).allocateAmid 70000 16 [id, id, id, id] =
      some (.ok ⟨327680, 70000⟩, ⟨⟨8, 65536, [], [1, 1, 6]⟩, 397680, 458752⟩) := rfl
  have hthird : (⟨⟨8, 65536, [], [1, 1, 6]⟩, 397680, 458752⟩ :
      Arena ScriptedMemory).allocateAmid 100000 8 [id] =
      some (.error (.outOfMemory 100000 1), ⟨⟨8, 65536, [], [1, 1, 6, 1]⟩, 397680, 458752⟩) := rfl
  have hfourth : (⟨⟨8, 65536, [], [1, 1, 6, 1]⟩, 397680, 458752⟩ :
      Arena ScriptedMemory).allocateAmid 10 8 [id] =
      some (.ok ⟨397680, 10⟩, ⟨⟨8, 65536, [], [1, 1, 6, 1]⟩, 397690, 458752⟩) := rfl
  have hturns : Turns arena turns ⟨⟨8, 65536, [], [1, 1, 6, 1]⟩, 397690, 458752⟩ :=
    .cons hfirst (.cons hsecond (.cons hthird (.cons hfourth (.nil _))))
  have height : (8).isPowerOfTwo ∧ 8 < addressSpace := ⟨⟨3, rfl⟩, by decide⟩
  have hsixteen : (16).isPowerOfTwo ∧ 16 < addressSpace := ⟨⟨4, rfl⟩, by decide⟩
  have haligns : ∀ turn ∈ turns, turn.align.isPowerOfTwo ∧ turn.align < addressSpace := by
    simp only [turns, List.forall_mem_cons]
    exact ⟨height, hsixteen, height, height, fun _ hmem => absurd hmem List.not_mem_nil⟩
  exact ⟨_, hturns, haligns, hturns.regions_ascending haligns⟩

end Arena
end JobSandbox
