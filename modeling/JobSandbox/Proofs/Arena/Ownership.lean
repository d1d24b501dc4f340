import JobSandbox.Proofs.Arena.Access
import JobSandbox.Proofs.Arena.History
import Mathlib.Data.Set.Lattice
import Mathlib.Order.CompletePartialOrder
import Mathlib.Order.Interval.Set.Basic

/-!
# What an arena owns

An arena owns the memory between the heap base and the end of the memory it was set up over, and the
pages that the memory has granted to it since.  Pages that others asked for are theirs, wherever
they lie: they may cover a heap base that the memory did not reach before, or come between two
grants of the arena.  Whatever the order of events, every region that the arena hands out lies
inside what it owns.

The grants are written down in a ledger beside the memory.  The ledger takes no part in what
happens: without it, the same events lead to the same arena.

## Main definitions

* `Grant`, `Ledger` — pages that were granted, and a memory that keeps count of them.
* `Ledger.grantedTo` — the addresses that were granted to the arena, or to others.
* `Arena.Owns` — the invariant: all that the arena may still hand out is its own.

## Main results

* `erase_run` — the ledger takes no part in what happens.
* `owns_allocate`, `owns_run` — the invariant through the tries of a request, and through events.
* `region_owned_forever` — **a region is the arena's own, for good.**
-/

namespace JobSandbox

open Address Contract

/-! ### The ledger -/

/-- Who asks for pages. -/
inductive Party where
  | arena
  | other
  deriving DecidableEq, Repr

/-- Pages that were granted. -/
structure Grant where
  party : Party
  /-- The number of pages in front of the grant. -/
  first : ℕ
  pages : ℕ
  deriving DecidableEq, Repr

/-- The addresses of the pages. -/
def Grant.addresses (grant : Grant) : Set ℕ :=
  Set.Ico (grant.first * pageSize) (grant.first * pageSize + grant.pages * pageSize)

/-- The addresses of a region. -/
def Region.addresses (region : Region) : Set ℕ := Set.Ico region.offset region.stop

/-- A paged memory with all its grants. -/
structure Ledger where
  memory : PagedMemory
  grants : List Grant

namespace Ledger

/-- The ledger of a memory that has not granted anything yet. -/
def ofMemory (memory : PagedMemory) : Ledger := ⟨memory, []⟩

/-- Asks for pages on behalf of somebody. -/
def growFor (ledger : Ledger) (party : Party) (pages : ℕ) : Option ℕ × Ledger :=
  ((ledger.memory.grow pages).1,
    { memory := (ledger.memory.grow pages).2
      grants := ledger.grants ++
        ((ledger.memory.grow pages).1.map fun first => ⟨party, first, pages⟩).toList })

instance : SharedMemory Ledger where
  heapBase ledger := ledger.memory.heapBase
  size ledger := ledger.memory.size
  grow ledger := ledger.growFor .arena
  budget ledger := FiniteMemory.budget ledger.memory
  budget_lt ledger := FiniteMemory.budget_lt ledger.memory
  growForOthers ledger pages := (ledger.growFor .other pages).2

/-- The memory without its ledger. -/
def erase : MemoryHom Ledger PagedMemory where
  toFun := memory
  heapBase_toFun _ := rfl
  size_toFun _ := rfl
  grow_toFun _ _ := rfl

/-- The addresses that were granted to a party. -/
def grantedTo (ledger : Ledger) (party : Party) : Set ℕ :=
  {a | ∃ grant ∈ ledger.grants, grant.party = party ∧ a ∈ grant.addresses}

theorem grantedTo_mono {ledger later : Ledger} (h : ledger.grants <+: later.grants)
    (party : Party) : ledger.grantedTo party ⊆ later.grantedTo party := by
  rintro a ⟨grant, hmem, hparty, ha⟩
  exact ⟨grant, h.subset hmem, hparty, ha⟩

theorem grants_prefix_growFor (ledger : Ledger) (party : Party) (pages : ℕ) :
    ledger.grants <+: (ledger.growFor party pages).2.grants :=
  List.prefix_append _ _

/-- A new grant begins where the memory ended. -/
theorem mem_grantedTo_growFor {ledger : Ledger} (h : ledger.memory.WellFormed)
    {asking party : Party} {pages a : ℕ} :
    a ∈ (ledger.growFor asking pages).2.grantedTo party ↔
      a ∈ ledger.grantedTo party ∨
        asking = party ∧ ledger.memory.size ≤ a ∧
          a < (ledger.growFor asking pages).2.memory.size := by
  unfold growFor grantedTo
  dsimp only
  cases hgrow : (ledger.memory.grow pages).1 with
  | none =>
    rw [PagedMemory.size_grow_of_refused hgrow]
    simp only [Option.map_none, Option.toList_none, List.append_nil]
    constructor
    · exact Or.inl
    · rintro (ha | ⟨-, hle, hlt⟩)
      · exact ha
      · omega
  | some first =>
    obtain ⟨rfl, -, -⟩ := PagedMemory.grow_eq_some hgrow
    rw [PagedMemory.size_grow_of_granted hgrow]
    simp only [Option.map_some, Option.toList_some, List.mem_append, List.mem_singleton,
      Set.mem_ofPred_eq]
    constructor
    · rintro ⟨grant, hmem | rfl, hparty, ha⟩
      · exact Or.inl ⟨grant, hmem, hparty, ha⟩
      · rw [Grant.addresses, h.pages_mul] at ha
        exact Or.inr ⟨hparty, ha.1, ha.2⟩
    · rintro (⟨grant, hmem, hparty, ha⟩ | ⟨hparty, hle, hlt⟩)
      · exact ⟨grant, Or.inl hmem, hparty, ha⟩
      · refine ⟨_, Or.inr rfl, hparty, ?_⟩
        rw [Grant.addresses, h.pages_mul]
        exact ⟨hle, hlt⟩

end Ledger

/-! ### The invariant -/

/-- What an arena owns that was set up over the addresses from `base` to `first`. -/
def Ledger.owned (ledger : Ledger) (base first : ℕ) : Set ℕ :=
  Set.Ico base first ∪ ledger.grantedTo .arena

namespace Arena

variable {base first : ℕ} {arena after : Arena Ledger}

/-- **The invariant**: what lies between mark and limit is the arena's own, and nothing that it
owns belongs to others or lies outside the memory. -/
structure Owns (base first : ℕ) (arena : Arena Ledger) : Prop where
  sound : (arena.map Ledger.erase).Sound
  base_le_mark : base ≤ arena.mark
  free_subset : Set.Ico arena.mark arena.limit ⊆ arena.memory.owned base first
  owned_disjoint : Disjoint (arena.memory.owned base first) (arena.memory.grantedTo .other)
  owned_subset : arena.memory.owned base first ⊆ Set.Iio arena.memory.memory.size
  others_subset : arena.memory.grantedTo .other ⊆ Set.Iio arena.memory.memory.size

theorem owns_ofMemory {memory : PagedMemory} (h : memory.WellFormed) :
    (ofMemory (Ledger.ofMemory memory)).Owns memory.heapBase memory.size where
  sound := ⟨h, le_rfl⟩
  base_le_mark := le_rfl
  free_subset := fun _ ha => Or.inl ha
  owned_disjoint := by
    rw [Set.disjoint_left]
    rintro a - ⟨grant, hmem, -⟩
    exact absurd hmem List.not_mem_nil
  owned_subset := by
    rintro a (ha | ⟨grant, hmem, -⟩)
    · exact ha.2
    · exact absurd hmem List.not_mem_nil
  others_subset := by
    rintro a ⟨grant, hmem, -⟩
    exact absurd hmem List.not_mem_nil

/-- Whoever asks for pages gets none that somebody has already. -/
theorem Owns.growFor (h : arena.Owns base first) (asking : Party) (pages : ℕ) :
    Owns base first { arena with memory := (arena.memory.growFor asking pages).2 } := by
  have hwell : arena.memory.memory.WellFormed := h.sound.wellFormed
  have hsize : arena.memory.memory.size ≤ (arena.memory.growFor asking pages).2.memory.size :=
    PagedMemory.size_le_grow _ _
  have howned : ∀ a, a ∈ (arena.memory.growFor asking pages).2.owned base first →
      a ∈ arena.memory.owned base first ∨ asking = .arena ∧ arena.memory.memory.size ≤ a ∧
        a < (arena.memory.growFor asking pages).2.memory.size := by
    rintro a (ha | ha)
    · exact Or.inl (Or.inl ha)
    · exact ((Ledger.mem_grantedTo_growFor hwell).mp ha).imp Or.inr id
  refine
    { sound := ⟨hwell.grow pages, h.sound.limit_le.trans hsize⟩
      base_le_mark := h.base_le_mark
      free_subset := fun a ha => ?_
      owned_disjoint := ?_
      owned_subset := fun a ha => ?_
      others_subset := fun a ha => ?_ }
  · refine (h.free_subset ha).imp id ?_
    exact fun hgranted => (Ledger.mem_grantedTo_growFor hwell).mpr (Or.inl hgranted)
  · rw [Set.disjoint_left]
    intro a ha hother
    -- an address of before lies below the old end, one of the new grant does not
    rcases howned a ha with hold | ⟨harena, hle, -⟩ <;>
      rcases (Ledger.mem_grantedTo_growFor hwell).mp hother with hold' | ⟨hparty, hle', -⟩
    · exact Set.disjoint_left.mp h.owned_disjoint hold hold'
    · have hlt : a < arena.memory.memory.size := h.owned_subset hold
      omega
    · have hlt : a < arena.memory.memory.size := h.others_subset hold'
      omega
    · rw [harena] at hparty
      cases hparty
  · rcases howned a ha with hold | ⟨-, -, hlt⟩
    · exact lt_of_lt_of_le (h.owned_subset hold) hsize
    · exact hlt
  · rcases (Ledger.mem_grantedTo_growFor hwell).mp ha with hold | ⟨-, -, hlt⟩
    · exact lt_of_lt_of_le (h.others_subset hold) hsize
    · exact hlt

/-- A grant to the arena extends what it may hand out: by joining it on, or by moving up to it when
others own the pages in between. -/
theorem Owns.granted (h : arena.Owns base first) {pages prev : ℕ}
    (hgrow : (arena.memory.memory.grow pages).1 = some prev) :
    ((arena.afterGrow pages).granted (prev * pageSize)
      (prev * pageSize + pages * pageSize)).Owns base first := by
  have hwell : arena.memory.memory.WellFormed := h.sound.wellFormed
  have hlimit : arena.limit ≤ arena.memory.memory.size := h.sound.limit_le
  have hafter := h.growFor .arena pages
  have hnew : (arena.memory.growFor .arena pages).2.memory.size =
      arena.memory.memory.size + pages * pageSize := PagedMemory.size_grow_of_granted hgrow
  obtain ⟨rfl, -, -⟩ := PagedMemory.grow_eq_some hgrow
  rw [hwell.pages_mul]
  refine
    { hafter with
      sound := ⟨hwell.grow pages, hnew.ge⟩
      base_le_mark := ?_
      free_subset := fun a ha => ?_ }
  · have hbase := h.base_le_mark
    unfold Arena.granted afterGrow
    dsimp only
    split <;> omega
  · -- what is free now is the grant, and what was free before if it is joined on
    have hmem : arena.memory.memory.size ≤ a → a < arena.memory.memory.size + pages * pageSize →
        a ∈ (arena.memory.growFor .arena pages).2.owned base first := fun hle hlt =>
      Or.inr ((Ledger.mem_grantedTo_growFor hwell).mpr (Or.inr ⟨rfl, hle, hnew ▸ hlt⟩))
    have hstop : a < arena.memory.memory.size + pages * pageSize := ha.2
    have hmark : (if arena.limit < arena.memory.memory.size then
        max arena.mark arena.memory.memory.size else arena.mark) ≤ a := ha.1
    split at hmark
    · exact hmem (by omega) hstop
    · rcases Nat.lt_or_ge a arena.limit with hlt | hge
      · exact hafter.free_subset ⟨hmark, hlt⟩
      · exact hmem (by omega) hstop

/-! ### Requests -/

/-- What a request leaves behind: an arena that owns as much as before or more, and a region that is
its own. -/
structure OwnedOutcome (base first : ℕ) (ledger : Ledger)
    (out : Except AllocError Region × Arena Ledger) : Prop where
  owns : out.2.Owns base first
  grants_prefix : ledger.grants <+: out.2.memory.grants
  region_owned : ∀ region, out.1 = .ok region → region.length ≠ 0 →
    base ≤ region.offset ∧ region.addresses ⊆ out.2.memory.owned base first

theorem Owns.of_again {size align : ℕ} {overflow : AllocError} (h : arena.Owns base first)
    (hattempt : arena.attempt size align overflow = .again after) :
    after.Owns base first ∧ arena.memory.grants <+: after.memory.grants := by
  have hout := attempt_outcome arena size align overflow
  rw [hattempt] at hout
  cases hout with
  | granted htarget hshort hpages hgrow hrange =>
    exact ⟨h.granted hgrow, Ledger.grants_prefix_growFor _ _ _⟩

theorem Owns.of_done {size align : ℕ} {overflow : AllocError}
    {result : Except AllocError Region} (h : arena.Owns base first)
    (hattempt : arena.attempt size align overflow = .done result after) :
    OwnedOutcome base first arena.memory (result, after) := by
  have hout := attempt_outcome arena size align overflow
  rw [hattempt] at hout
  cases hout with
  | tooFar hnone => exact ⟨h, List.prefix_rfl, fun _ hok => by cases hok⟩
  | @room region htarget hroom =>
    have horder : arena.mark ≤ region.offset := (target?_eq_some htarget).2.1
    have hstop : region.stop = region.offset + region.length := rfl
    have hfree : Set.Ico region.offset arena.limit ⊆ arena.memory.owned base first :=
      (Set.Ico_subset_Ico_left horder).trans h.free_subset
    have hbase : base ≤ region.offset := h.base_le_mark.trans horder
    have howns : Owns base first { arena with mark := region.stop } :=
      { h with
        sound := ⟨h.sound.wellFormed, h.sound.limit_le⟩
        base_le_mark := by dsimp only; omega
        free_subset := (Set.Ico_subset_Ico_left (by dsimp only; omega)).trans hfree }
    refine ⟨howns, List.prefix_rfl, ?_⟩
    rintro _ ⟨⟩ -
    exact ⟨hbase, (Set.Ico_subset_Ico_right hroom).trans hfree⟩
  | refused htarget hshort hpages hgrow =>
    exact ⟨h.growFor .arena _, Ledger.grants_prefix_growFor _ _ _, fun _ hok => by cases hok⟩
  | beyond htarget hshort hpages hgrow hrange =>
    exact ⟨h.growFor .arena _, Ledger.grants_prefix_growFor _ _ _, fun _ hok => by cases hok⟩

/-- **A request keeps the invariant, and what it returns is owned.** -/
theorem owns_allocate (h : arena.Owns base first) (size align : ℕ) :
    OwnedOutcome base first arena.memory (arena.allocate size align) := by
  by_cases hsize : size = 0
  · subst hsize
    refine ⟨h, List.prefix_rfl, ?_⟩
    rintro _ ⟨⟩ hlength
    exact absurd rfl hlength
  · rw [allocate_of_ne_zero hsize]
    -- each attempt compares its ledger with the one that the whole request began with
    refine serve_induction
      (P := fun a => a.Owns base first ∧ arena.memory.grants <+: a.memory.grants)
      (Q := OwnedOutcome base first arena.memory) ?_ ?_ ⟨h, List.prefix_rfl⟩
    · rintro a b ⟨ha, hearlier⟩ hattempt
      obtain ⟨hb, hgrants⟩ := ha.of_again hattempt
      exact ⟨hb, hearlier.trans hgrants⟩
    · rintro a b result ⟨ha, hearlier⟩ hattempt
      have hdone := ha.of_done hattempt
      exact { hdone with grants_prefix := hearlier.trans hdone.grants_prefix }

end Arena

/-! ### Histories -/

theorem Ledger.owned_mono {ledger later : Ledger} (h : ledger.grants <+: later.grants)
    (base first : ℕ) : ledger.owned base first ⊆ later.owned base first :=
  Set.union_subset_union_right _ (Ledger.grantedTo_mono h _)

namespace History

variable {base first : ℕ} {history : History Ledger}

/-- The history without its ledger. -/
def erase (history : History Ledger) : History PagedMemory where
  arena := history.arena.map Ledger.erase
  regions := history.regions

theorem erase_next (history : History Ledger) (event : Event) :
    (history.next event).erase = history.erase.next event := by
  cases event with
  | request size align =>
    have hmap := Arena.allocate_map Ledger.erase history.arena size align
    rw [next, next, show history.erase.arena = history.arena.map Ledger.erase from rfl, hmap]
    rcases history.arena.allocate size align with ⟨error | region, arena⟩ <;> rfl
  | growth pages => rfl

/-- **The ledger takes no part in what happens.** -/
theorem erase_run (history : History Ledger) (events : List Event) :
    (history.run events).erase = history.erase.run events := by
  induction events generalizing history with
  | nil => rfl
  | cons event events ih => rw [run_cons, run_cons, ih, erase_next]

/-- The invariant of an arena, and that all it has handed out is its own. -/
structure Owns (base first : ℕ) (history : History Ledger) : Prop where
  arena : history.arena.Owns base first
  region_owned : ∀ region ∈ history.regions, region.length ≠ 0 →
    base ≤ region.offset ∧ region.addresses ⊆ history.arena.memory.owned base first

theorem Owns.next (h : history.Owns base first) (event : Event) :
    (history.next event).Owns base first := by
  cases event with
  | request size align =>
    have hout := Arena.owns_allocate h.arena size align
    -- no grant is taken back, so that what was owned before is owned still
    have hmono := Ledger.owned_mono hout.grants_prefix base first
    refine ⟨by rw [arena_next_request]; exact hout.owns, ?_⟩
    rw [arena_next_request]
    intro region hmem hlength
    cases hresult : (history.arena.allocate size align).1 with
    | error error =>
      rw [regions_next_request_of_error hresult] at hmem
      exact (h.region_owned region hmem hlength).imp id fun hsub => hsub.trans hmono
    | ok region' =>
      rw [regions_next_request_of_ok hresult, List.mem_append, List.mem_singleton] at hmem
      rcases hmem with hold | rfl
      · exact (h.region_owned region hold hlength).imp id fun hsub => hsub.trans hmono
      · exact hout.region_owned region hresult hlength
  | growth pages =>
    have hmono := Ledger.owned_mono
      (Ledger.grants_prefix_growFor history.arena.memory .other pages) base first
    exact ⟨h.arena.growFor .other pages, fun region hmem hlength =>
      (h.region_owned region hmem hlength).imp id fun hsub => hsub.trans hmono⟩

theorem owns_run (h : history.Owns base first) (events : List Event) :
    (history.run events).Owns base first :=
  run_induction (P := Owns base first) (fun _ event hhistory => hhistory.next event) h events

/-- A region that is not empty and lies in what the arena owns lies inside the memory. -/
theorem Owns.stop_le (h : history.Owns base first) {region : Region}
    (hmem : region ∈ history.regions) (hlength : region.length ≠ 0) :
    region.stop ≤ history.arena.memory.memory.size := by
  have hstop : region.stop = region.offset + region.length := rfl
  have hlast : region.stop - 1 ∈ region.addresses := ⟨by omega, by omega⟩
  have hlt : region.stop - 1 < history.arena.memory.memory.size :=
    h.arena.owned_subset ((h.region_owned region hmem hlength).2 hlast)
  omega

/-- **A region is the arena's own, for good.**  Take an arena over a fresh memory, let anything
happen to it, and let more happen `later`.  A region that was handed out by `now` lies between the
heap base and the first end of the memory, or in pages that the arena was granted by then; nobody
else is ever granted a page that it touches; and it can be read and written ever after. -/
theorem region_owned_forever (initialPages maxPages heapBase : ℕ) (earlier later : List Event) :
    let memory := PagedMemory.ofPages initialPages maxPages heapBase
    let now := (start (Ledger.ofMemory memory)).run earlier
    let after := now.run later
    after.erase = (start memory).run (earlier ++ later) ∧
      ∀ region ∈ now.regions, region.length ≠ 0 →
        region.addresses ⊆
          Set.Ico heapBase memory.size ∪ now.arena.memory.grantedTo .arena ∧
        Disjoint region.addresses (after.arena.memory.grantedTo .other) ∧
        heapBase ≤ region.offset ∧
        region.stop ≤ now.erase.arena.memory.size ∧
        region.stop ≤ after.erase.arena.memory.size ∧
        (after.erase.arena.read? region).isSome ∧
        ∀ bytes, (after.erase.arena.write? region bytes).isSome := by
  intro memory now after
  have hstart : (start (Ledger.ofMemory memory)).Owns heapBase memory.size :=
    ⟨Arena.owns_ofMemory (PagedMemory.wellFormed_ofPages _ _ _),
      fun _ hmem => absurd hmem List.not_mem_nil⟩
  have hnow : now.Owns heapBase memory.size := owns_run hstart earlier
  have hafter : after.Owns heapBase memory.size := owns_run hnow later
  refine ⟨?_, fun region hmem hlength => ?_⟩
  · rw [run_append]
    exact (erase_run now later).trans (congrArg (run · later) (erase_run _ earlier))
  · -- the region is still on the list at the end, where the invariant holds as well
    have hmem' : region ∈ after.regions := (regions_prefix_run now later).subset hmem
    obtain ⟨hbase, howned⟩ := hnow.region_owned region hmem hlength
    have hstop : region.stop ≤ after.erase.arena.memory.size := hafter.stop_le hmem' hlength
    refine ⟨howned, ?_, hbase, hnow.stop_le hmem hlength, hstop, ?_, fun bytes => ?_⟩
    · exact hafter.arena.owned_disjoint.mono_left (hafter.region_owned region hmem' hlength).2
    · exact Arena.read?_isSome_iff.mpr hstop
    · exact Arena.write?_isSome_iff.mpr hstop

/-- A request that ends below the limit, behind a growth of others. -/
theorem mem_regions_of_room {memory : PagedMemory} (hbase : memory.heapBase = 0)
    (hsize : memory.size = 1 * pageSize) :
    ⟨0, 64⟩ ∈ ((start (Ledger.ofMemory memory)).run ([.growth 1] ++ [.request 64 8])).regions := by
  have hmark : ((start (Ledger.ofMemory memory)).run [.growth 1]).arena.mark = 0 := hbase
  have hlimit : ((start (Ledger.ofMemory memory)).run [.growth 1]).arena.limit = 1 * pageSize :=
    hsize
  rw [run_append]
  generalize (start (Ledger.ofMemory memory)).run [.growth 1] = history at *
  have hleast : leastMultiple 8 history.arena.mark = 0 := by
    rw [hmark]
    exact leastMultiple_of_dvd (by decide) (Nat.dvd_zero 8)
  have hstop : history.arena.targetStop 64 8 = 64 := by rw [Arena.targetStop, hleast]
  have hallocate : history.arena.allocate 64 8 =
      (.ok ⟨0, 64⟩, { history.arena with mark := 64 }) := by
    rw [Arena.allocate_of_room ⟨3, rfl⟩ (by decide) (by decide) (by rw [hstop, hlimit]; decide)
      (by rw [hstop]; decide), hleast, hstop]
  rw [run_cons, run_nil, regions_next_request_of_ok (congrArg Prod.fst hallocate)]
  exact List.mem_append_right _ (List.mem_singleton_self _)

/-- A region that others grow the memory around. -/
theorem region_owned_of_room :
    let memory := PagedMemory.ofPages 1 8 0
    let now := (start (Ledger.ofMemory memory)).run ([.growth 1] ++ [.request 64 8])
    let after := now.run [.request 65536 8, .growth 2]
    ⟨0, 64⟩ ∈ now.regions ∧
      Region.addresses ⟨0, 64⟩ ⊆
        Set.Ico 0 memory.size ∪ now.arena.memory.grantedTo .arena ∧
      Disjoint (Region.addresses ⟨0, 64⟩) (after.arena.memory.grantedTo .other) ∧
      (after.erase.arena.read? ⟨0, 64⟩).isSome := by
  have hmem := mem_regions_of_room (show (PagedMemory.ofPages 1 8 0).heapBase = 0 from rfl)
    (PagedMemory.size_ofPages 1 8 0)
  have howned := (region_owned_forever 1 8 0 ([.growth 1] ++ [.request 64 8])
    [.request 65536 8, .growth 2]).2 ⟨0, 64⟩
  obtain ⟨howned, hdisjoint, -, -, -, hread, -⟩ := howned hmem (by decide)
  exact ⟨hmem, howned, hdisjoint, hread⟩

end History
end JobSandbox
