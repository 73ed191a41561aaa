import TraceProfile.Log
import TraceProfile.Mapping.Schedule
import TraceProfile.Mapping.Table

/-!
# Replay

A replay carries the operations of a schedule out on a mapping table, up to a time that may be
moved on step by step. A removal without a mapping changes nothing and is counted.
-/

namespace TraceProfile

/-- The mappings that are active, and the removals that found none. -/
structure AddressSpace where
  /-- The active mappings. -/
  table : MappingTable
  /-- The number of removals that found no mapping. -/
  unmatched : Nat

namespace AddressSpace

/-- The address space before any operation. -/
def empty : AddressSpace := ⟨.empty, 0⟩

/-- The address space after an operation. -/
def apply (space : AddressSpace) (op : MappingOp) : AddressSpace :=
  match op.change with
  | .add m => { space with table := space.table.add m }
  | .remove start =>
    if (space.table.get? start).isSome then { space with table := space.table.erase start }
    else { space with unmatched := space.unmatched + 1 }

/-- What an operation reports when it is carried out. -/
def report (space : AddressSpace) (op : MappingOp) : List LogRecord :=
  match op.change with
  | .add m => (space.table.evictedBy m).map fun evicted => .evicted evicted m
  | .remove start =>
    if (space.table.get? start).isSome then [] else [.unmatchedRemoval start op.time]

/-- The address space after a sequence of operations. -/
def applyAll (space : AddressSpace) (ops : List MappingOp) : AddressSpace := ops.foldl apply space

/-- What a sequence of operations reports when it is carried out. -/
def reportAll (space : AddressSpace) : List MappingOp → List LogRecord
  | [] => []
  | op :: rest => space.report op ++ (space.apply op).reportAll rest

/-- A sequence of operations may be carried out in two parts. -/
theorem applyAll_append (space : AddressSpace) (ops more : List MappingOp) :
    space.applyAll (ops ++ more) = (space.applyAll ops).applyAll more :=
  List.foldl_append

end AddressSpace

/-- A schedule, and the address space after the operations that it has handed out. -/
structure Replay where
  /-- What is still to come. -/
  schedule : Schedule
  /-- What has come about. -/
  space : AddressSpace

namespace Replay

/-- The replay of a list of queues before any operation. -/
def ofQueues (queues : List OpQueue) : Replay := ⟨.ofQueues queues, .empty⟩

/-- The replay with one more queue. -/
def register (r : Replay) (q : OpQueue) : Replay := { r with schedule := r.schedule.register q }

/-- The replay with one more operation in a queue. -/
def push (r : Replay) (place : Nat) (op : MappingOp) : Except Fault Replay :=
  (r.schedule.push place op).map fun schedule => { r with schedule }

/-- The replay after all operations due at a time. -/
def advance (r : Replay) (time : Int) : Replay :=
  let (ops, schedule) := r.schedule.due time
  ⟨schedule, r.space.applyAll ops⟩

/-- What the operations due at a time report. -/
def report (r : Replay) (time : Int) : List LogRecord :=
  r.space.reportAll (r.schedule.due time).1

/-- The mapping that holds an address. -/
def lookup (r : Replay) (address : Int) : Option Mapping := r.space.table.lookup address

/-- The place of an address in the library that holds it. -/
def resolve (r : Replay) (address : Int) : Option (Int × Library) := r.space.table.resolve address

end Replay

end TraceProfile
