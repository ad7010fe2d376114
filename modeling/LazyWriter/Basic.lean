import Mathlib.Logic.Function.Basic
import Mathlib.Algebra.Group.Nat.Basic

/-!
# Lazy writer data

The data that the lazy writer of the cache manager (`lazyrite.c`) reads and writes. `ULONG`
counters are `BitVec 32`, so that the budget arithmetic of `CcLazyWriteScan` wraps as the C code
does. A `SHARED_CACHE_MAP` keeps only the fields the scan looks at; a work-queue entry carries the
identity of its allocation, so that the worker pool's lifecycle can be followed entry by entry.

The dirty list is intrusive: every node is a `SHARED_CACHE_MAP` whose `SharedCacheMapLinks` hold a
`Flink` and a `Blink`, and the list head `CcDirtySharedCacheMapList` and the scan's resume point
`CcLazyWriterCursor` are nodes of the same list, marked `IS_CURSOR`. `Links` gives both pointer
fields of every node by address. The list primitives `RemoveEntryList`, `InsertTailList` and
`InsertHeadList` come from the kernel headers, not from the source; they are written here with
their standard pointer updates.
-/

namespace LazyWriter

/-- `ULONG`: an unsigned 32-bit counter whose arithmetic wraps. -/
abbrev ULONG := BitVec 32

/-- The `SHARED_CACHE_MAP.Flags` bits this module tests or sets, together with
`FO_TEMPORARY_FILE` of the stream's file object (`SharedCacheMap->FileObject->Flags`). -/
structure Flags where
  writeQueued : Bool
  modifiedWriteDisabled : Bool
  waitingForTeardown : Bool
  isCursor : Bool
  temporaryFile : Bool
deriving DecidableEq, Repr

/-- The fields of a `SHARED_CACHE_MAP` that `CcLazyWriteScan` reads or writes. `OpenCount` and
`FileSize.QuadPart` are only compared with zero. -/
structure SharedCacheMap where
  flags : Flags
  dirtyPages : ULONG
  pagesToWrite : ULONG
  openCount : Nat
  fileSize : Nat
  lazyWritePassCount : ULONG
deriving DecidableEq, Repr

/-- `WORK_QUEUE_ENTRY.Function` with its `Parameters`. The event of an `EventSet` entry lives on
the stack of the caller of `CcWaitForCurrentLazyWriterActivity`; it is identified with the entry. -/
inductive Work
  | readAhead
  | writeBehind (sharedCacheMap : Nat)
  | eventSet
  | lazyWriteScan
deriving DecidableEq, Repr

/-- A `WORK_QUEUE_ENTRY`; `addr` identifies one allocation by `CcAllocateWorkQueueEntry`. -/
structure Entry where
  addr : Nat
  work : Work
deriving DecidableEq, Repr

/-- The two work queues a worker drains: `CcExpressWorkQueue` and `CcRegularWorkQueue`. -/
inductive Queue
  | express
  | regular
deriving DecidableEq, Repr

/-- Whether an entry is an `EventSet` entry. -/
def Entry.isEventSet (e : Entry) : Bool := e.work == .eventSet

/-- The address of the list head `CcDirtySharedCacheMapList`. -/
def ccDirtySharedCacheMapList : Nat := 0

/-- The address of the scan's resume point `CcLazyWriterCursor`. -/
def ccLazyWriterCursor : Nat := 1

/-- The `Flink` and `Blink` of the `SharedCacheMapLinks` of every node, by node address. -/
structure Links where
  flink : Nat → Nat
  blink : Nat → Nat

namespace Links

/-- Modelled from the spec: `RemoveEntryList (Entry)` is a kernel list primitive, not in the
source. `Entry->Blink->Flink = Entry->Flink; Entry->Flink->Blink = Entry->Blink`. -/
def removeEntryList (L : Links) (e : Nat) : Links where
  flink := Function.update L.flink (L.blink e) (L.flink e)
  blink := Function.update L.blink (L.flink e) (L.blink e)

/-- Modelled from the spec: `InsertTailList (ListHead, Entry)` is a kernel list primitive, not in
the source. It links `Entry` just before `ListHead`. -/
def insertTailList (L : Links) (h e : Nat) : Links where
  flink := Function.update (Function.update L.flink e h) (L.blink h) e
  blink := Function.update (Function.update L.blink e (L.blink h)) h e

/-- Modelled from the spec: `InsertHeadList (ListHead, Entry)` is a kernel list primitive, not in
the source. It links `Entry` just after `ListHead`. -/
def insertHeadList (L : Links) (h e : Nat) : Links where
  flink := Function.update (Function.update L.flink e (L.flink h)) h e
  blink := Function.update (Function.update L.blink e h) (L.flink h) e

end Links

end LazyWriter
