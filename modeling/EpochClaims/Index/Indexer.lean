import EpochClaims.Cache
import EpochClaims.Hex.Text
import EpochClaims.Index.View
import EpochClaims.Journal

/-!
# The indexer

An indexer keeps a view and, if it has a cache, puts the claim of every closed
epoch there. Ingesting an event only queues the write; `settle` performs the
first write of the queue. A refused write leaves a line and is remembered
until `flush` reports it, the first one since the last report, unless nothing
was raised. The view waits for no write. Writes are performed one after another,
and `spans` tells how long each of them takes.

A refused write keeps none behind it if what was raised can be spelled for the
line. Otherwise the chain of writes is left rejected with what the spelling
raised: the next write is not performed but refused with that value, and the one
after it has its chance again.
-/

namespace EpochClaims

/-- A write that has not been performed. -/
structure PendingWrite where
  epoch : Argument
  claim : Argument
  deriving DecidableEq, Repr

/-- What a write puts into the cache; a claim that is missing is null there. -/
def PendingWrite.document (w : PendingWrite) : Document :=
  w.claim.toOption.getD .null

/-- A view with the writes to its cache, the first refusal that waits to be
reported, and what the chain of writes is rejected with, if it is. -/
structure Indexer where
  view : View
  cached : Bool
  queue : List PendingWrite
  writeError : Option Raised
  rejection : Option Raised
  deriving DecidableEq, Repr

namespace Indexer

/-- The name under which the claim of an epoch is cached. -/
def finalizedClaimName : String := "finalizedClaim"

/-- An indexer before the first event. -/
def start (epoch : Argument) (cached : Bool) : Indexer :=
  ⟨View.start epoch, cached, [], none, none⟩

/-- The write that an event asks for. -/
def writeOf (x : Indexer) : Event → List PendingWrite
  | .newEpoch claim => if x.cached then [⟨x.view.epoch, claim⟩] else []
  | _ => []

/-- The indexer after an event. -/
def ingest (x : Indexer) (e : Event) : Indexer :=
  { x with view := x.view.ingest e, queue := x.queue ++ x.writeOf e }

/-- The view of an indexer is the fold of its events, with or without a cache. -/
theorem view_foldl_ingest (x : Indexer) (events : List Event) :
    (events.foldl ingest x).view = x.view.ingestAll events := by
  induction events generalizing x with
  | nil => rfl
  | cons e events ih => exact ih (x.ingest e)

/-- The line that an event leaves. -/
def ingestLine (x : Indexer) (e : Event) : Line :=
  ⟨.indexer, "epoch " ++ (x.ingest e).view.epoch.asNumber.logText ++ " after " ++ e.name ++ ": " ++
    (x.ingest e).view.phase.text⟩

/-- The line that a refused write leaves. -/
def failureLine (w : PendingWrite) (message : String) : Line :=
  ⟨.indexer, "failed to persist claim for epoch " ++ w.epoch.asNumber.logText ++ ": " ++ message⟩

/-- The ticks from the start of an accepted write to the start of the next. -/
def acceptedSpan : Nat := 5

/-- The ticks from the start of a refused write to the start of the next, which is
sooner if the chain is left rejected. -/
def refusedSpan (r : Raised) : Nat :=
  if r.Legible then 4 else 2

/-- The ticks that writes take, if the chain may be rejected before the first. -/
def spansFrom (c : Cache) : Option Raised → List PendingWrite → List Nat
  | _, [] => []
  | some r, _ :: rest => refusedSpan r :: spansFrom c r.escaped? rest
  | none, w :: rest =>
    match c.refusal? .set w.epoch with
    | none => acceptedSpan :: spansFrom c none rest
    | some r => refusedSpan r :: spansFrom c r.escaped? rest

/-- The ticks that each write of the queue takes. -/
def spans (x : Indexer) (c : Cache) : List Nat :=
  spansFrom c x.rejection x.queue

/-- Remembers a raised value unless an earlier one is waiting to be reported.
Raising nothing leaves nothing to report. -/
def remember (x : Indexer) (r : Raised) : Indexer :=
  match x.writeError, r with
  | none, .nothing => x
  | none, r => { x with writeError := some r }
  | some _, _ => x

/-- Handles the refusal of a write. What is raised by spelling it is left to the
next write, and nothing is remembered. -/
def refuse (x : Indexer) (w : PendingWrite) (r : Raised) : Indexer × List Line :=
  match r.message with
  | .ok message => ({ x.remember r with rejection := none }, [failureLine w message])
  | .error raised => ({ x with rejection := some raised }, [])

/-- Performs the first write of the queue, unless the chain is rejected. -/
def settle (x : Indexer) (c : Cache) : Indexer × Cache × List Line :=
  match x.queue with
  | [] => (x, c, [])
  | w :: rest =>
    let x := { x with queue := rest }
    match x.rejection with
    | some r =>
      let (x, lines) := x.refuse w r
      (x, c, lines)
    | none =>
      match c.set w.epoch (.text finalizedClaimName) w.document with
      | .ok c => (x, c, [])
      | .error r =>
        let (x, lines) := x.refuse w r
        (x, c, lines)

/-- Reports what the chain of writes is rejected with or else the first refused
write since the last report. -/
def flush (x : Indexer) : Indexer × Option Raised :=
  match x.rejection with
  | some r => (x, some r)
  | none => ({ x with writeError := none }, x.writeError)

/-- A cached document if it is hexadecimal text, and null otherwise. -/
def claimOfDocument : Option Document → Argument
  | some (.text s) => if (Hex.read? s.toList).isSome then .text s else .null
  | _ => .null

/-- The claim of a closed epoch, from the view or else from the cache; null if
neither knows it. -/
def finalizedClaim (x : Indexer) (c : Option Cache) (epoch : Argument) :
    Except Raised Argument :=
  match x.view.finalizedClaim? epoch with
  | some claim => .ok claim
  | none =>
    match c with
    | none => .ok .null
    | some c => (c.get epoch (.text finalizedClaimName)).map claimOfDocument

end Indexer

end EpochClaims
