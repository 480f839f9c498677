import Mathlib

/-!
# Units of work of a queue manager

A connection to a queue manager reads from one queue and writes to others. What is read and written under
syncpoint belongs to the current unit of work: `commit` makes it final, and `backout` gives the messages
that were read back to their queue, in their old order, and forgets those that were written.
-/

namespace OrgLittle.Lib

/-- A source queue, what was read from it and written in the current unit of work, and what was delivered to
the other queues. -/
structure UnitOfWork (Q M : Type*) where
  source : List M
  gets : List M
  puts : List (Q × M)
  delivered : List (Q × M)
deriving DecidableEq

namespace UnitOfWork

variable {Q M : Type*}

/-- Nothing was read or written so far. -/
def start (source : List M) : UnitOfWork Q M := ⟨source, [], [], []⟩

/-- The first message is read under syncpoint. -/
def get (u : UnitOfWork Q M) : Option (M × UnitOfWork Q M) :=
  match u.source with
  | [] => none
  | m :: rest => some (m, { u with source := rest, gets := u.gets ++ [m] })

/-- The first message is read outside of the unit of work, and so taken away for good. -/
def take (u : UnitOfWork Q M) : Option (M × UnitOfWork Q M) :=
  match u.source with
  | [] => none
  | m :: rest => some (m, { u with source := rest })

/-- A message is written. -/
def put (q : Q) (m : M) (u : UnitOfWork Q M) : UnitOfWork Q M := { u with puts := u.puts ++ [(q, m)] }

/-- What was read is gone, and what was written is delivered. -/
def commit (u : UnitOfWork Q M) : UnitOfWork Q M :=
  { u with gets := [], puts := [], delivered := u.delivered ++ u.puts }

/-- What was read is back, and what was written is forgotten. -/
def backout (u : UnitOfWork Q M) : UnitOfWork Q M :=
  { u with source := u.gets ++ u.source, gets := [], puts := [] }

/-- The answer to a request to commit: it is done, or it fails and the unit of work stays open or is backed out by
the queue manager. -/
inductive CommitAnswer
  | done | failed | backedOut
deriving DecidableEq

/-- A message arrives at the source. -/
def arrive (m : M) (u : UnitOfWork Q M) : UnitOfWork Q M := { u with source := u.source ++ [m] }

/-- The unit of work is empty. -/
structure Settled (u : UnitOfWork Q M) : Prop where
  gets : u.gets = []
  puts : u.puts = []

theorem settled_start (source : List M) : (start source : UnitOfWork Q M).Settled := ⟨rfl, rfl⟩

theorem settled_commit (u : UnitOfWork Q M) : u.commit.Settled := ⟨rfl, rfl⟩

theorem settled_backout (u : UnitOfWork Q M) : u.backout.Settled := ⟨rfl, rfl⟩

theorem Settled.arrive {u : UnitOfWork Q M} (h : u.Settled) (m : M) : (u.arrive m).Settled :=
  ⟨h.gets, h.puts⟩

/-- Writes go to the unit of work only. -/
theorem backout_put (q : Q) (m : M) (u : UnitOfWork Q M) : (u.put q m).backout = u.backout := rfl

/-- Reading a message and backing out leaves the unit of work as if it had been backed out before. -/
theorem backout_get {u u' : UnitOfWork Q M} {m : M} (h : u.get = some (m, u')) :
    u'.backout = u.backout := by
  rw [get] at h
  split at h
  · cases h
  · next rest hsource =>
    cases h
    simp [backout, hsource]

end UnitOfWork

end OrgLittle.Lib
