import JobSandbox.Arena
import JobSandbox.Host
import JobSandbox.Policy

/-!
# Taking in the dataset

Before a job starts, its dataset is brought into its memory: the host is asked for the length, the
arena for that length rounded up to the granularity, and the host to write the dataset into the
front of the region.

## Main definitions

* `Dataset` — a dataset in the memory of a job.
* `Dataset.ingest` — how it gets there.
* `Ingestion` — how that can end.
-/

namespace JobSandbox

/-- A dataset in memory: its region, which may be longer than it is, and its length. -/
structure Dataset where
  region : Region
  length : Nat
  deriving DecidableEq, Repr

/-- How taking in a dataset ends. -/
inductive Ingestion where
  | ready (dataset : Dataset)
  /-- There is no memory for it. -/
  | refused (error : AllocError)
  /-- The region is not inside the memory, and the host cannot write there. -/
  | outOfRange
  deriving DecidableEq, Repr

namespace Dataset

def isEmpty (dataset : Dataset) : Bool := dataset.length == 0

/-- The length of the region. -/
def allocatedLength (dataset : Dataset) : Nat := dataset.region.length

/-- The range that holds the dataset itself. -/
def view (dataset : Dataset) : Region := dataset.region.front dataset.length

/-- The bytes of the dataset. -/
def read? (dataset : Dataset) (arena : Arena PagedMemory) : Option Bytes :=
  arena.read? dataset.view

/-- Lets the host write the dataset into its region. -/
def fetch (dataset : Dataset) (host : Host) (arena : Arena PagedMemory) :
    Ingestion × Host × Arena PagedMemory :=
  match dataset.read? arena with
  | none => (.outOfRange, host, arena)
  | some destination =>
    let (bytes, host) := host.datasetWrite destination
    match arena.write? dataset.view bytes with
    | none => (.outOfRange, host, arena)
    | some arena => (.ready dataset, host, arena)

/-- Takes the host's dataset into the memory of an arena. -/
def ingest (host : Host) (arena : Arena PagedMemory) (granularity : Granularity) :
    Ingestion × Host × Arena PagedMemory :=
  let (length, host) := host.datasetLen
  match granularity.roundUp? length with
  | none => (.refused (.addressOverflow arena.mark length), host, arena)
  | some rounded =>
    match arena.allocate rounded granularity.unit with
    | (.error error, arena) => (.refused error, host, arena)
    | (.ok region, arena) => fetch ⟨region, length⟩ host arena

end Dataset
end JobSandbox
