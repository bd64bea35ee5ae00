import EpochClaims.Cache
import EpochClaims.EventLog.Encoding
import EpochClaims.Index.Indexer
import EpochClaims.Network.History
import EpochClaims.Network.Registry

/-!
# Networks

A network is made of managers, each with the subscribers of its events, of
indexers, which may have a cache, of listeners with their plans, and of records
of logs. Subscribers are kept in the order in which they subscribed. One that
subscribes again keeps its place; one that left and comes back goes to the end.

A listener is made when it first listens, and listens under the plan it was
made with ever after. Leaving ends the latest subscription only. For an indexer
that is the latest one under its name, even if the name has been given to
another indexer since. A record that is made anew starts empty, and the one that
had its name goes on unseen.
-/

namespace EpochClaims

/-- A manager with the subscribers of its events. -/
structure Publisher where
  manager : Manager
  audience : List Subscriber

/-- An indexer with the handle of its cache. -/
structure Observer where
  indexer : Indexer
  cache : Option Nat

/-- The plan of a listener and the manager of its latest subscription. -/
structure Listener where
  plan : Plan
  latest : Nat

/-- A subscriber with the manager whose events it receives. -/
structure Subscription where
  manager : Nat
  subscriber : Subscriber

/-- Managers, indexers, caches, listeners and records, with the subscriptions
of indexers by name, the latest in front, the number of tickets and of
emissions so far, the indexers whose writes have not been performed, once for
each write, and the history. -/
structure Network where
  publishers : Registry Publisher
  observers : Registry Observer
  caches : Registry Cache
  listeners : Registry Listener
  records : Registry (List EventLog)
  attachments : List (String × Subscription)
  tickets : Nat
  emissions : Nat
  unsettled : List Nat
  history : List Happening

namespace Network

/-- The network in which there is nothing yet. -/
def empty : Network :=
  ⟨.empty, .empty, .empty, .empty, .empty, [], 0, 0, [], []⟩

/-- Writes down what happens. -/
def note (net : Network) (h : Happening) : Network :=
  { net with history := net.history ++ [h] }

/-- Writes lines into the journal. -/
def write (net : Network) (lines : List Line) : Network :=
  { net with history := net.history ++ lines.map .wrote }

/-- Adds a manager that nobody listens to. -/
def addManager (net : Network) (name : String) (m : Manager) : Network :=
  { net with publishers := net.publishers.add name ⟨m, []⟩ }

/-- Adds a cache. -/
def addCache (net : Network) (name : String) (faults : List CacheFault) : Network :=
  { net with caches := net.caches.add name (Cache.empty faults) }

/-- The epoch to start at, zero if none is given. -/
def startingEpoch : Argument → Argument
  | .missing => .number (Binary64.ofInt 0)
  | .null => .number (Binary64.ofInt 0)
  | epoch => epoch

/-- Adds an indexer at an epoch with a cache, if one is named. -/
def addIndexer (net : Network) (name : String) (epoch : Argument) (cache : Option String) :
    Network :=
  let handle := cache.bind net.caches.handle?
  { net with
    observers := net.observers.add name
      ⟨Indexer.start (startingEpoch epoch) handle.isSome, handle⟩ }

/-- Adds a subscriber to a manager, at the end unless it is there already. -/
def subscribe (net : Network) (manager : Nat) (s : Subscriber) : Network :=
  { net with
    publishers := net.publishers.modify manager fun p =>
      if s ∈ p.audience then p else { p with audience := p.audience ++ [s] } }

/-- Removes a subscriber from a manager. -/
def unsubscribe (net : Network) (manager : Nat) (s : Subscriber) : Network :=
  { net with
    publishers := net.publishers.modify manager fun p =>
      { p with audience := p.audience.filter (· ≠ s) } }

/-- Lets a listener listen to a manager, under the given plan if the listener
is new. -/
def watch (net : Network) (manager listener : String) (plan : Plan) : Network :=
  match net.publishers.handle? manager with
  | none => net
  | some handle =>
    let listeners := net.listeners.ensure listener ⟨plan, handle⟩
    { net with listeners := listeners.update listener fun l => { l with latest := handle } }
      |>.subscribe handle (.listener listener)

/-- Ends the latest subscription of a listener. -/
def unwatch (net : Network) (listener : String) : Network :=
  match net.listeners.find? listener with
  | none => net
  | some l => net.unsubscribe l.latest (.listener listener)

/-- Takes a ticket. -/
def takeTicket (net : Network) : Network :=
  { net with tickets := net.tickets + 1 }

/-- Subscribes an indexer to a manager. -/
def attach (net : Network) (indexer manager : String) : Network :=
  match net.observers.handle? indexer, net.publishers.handle? manager with
  | some i, some m =>
    let s := Subscriber.indexer i net.tickets
    { net.takeTicket with attachments := (indexer, ⟨m, s⟩) :: net.attachments }.subscribe m s
  | _, _ => net

/-- Ends the latest subscription of an indexer of a name. -/
def detach (net : Network) (indexer : String) : Network :=
  match net.attachments.lookup indexer with
  | none => net
  | some s => net.unsubscribe s.manager s.subscriber

/-- Makes a record, which receives the events of a manager as logs. -/
def record (net : Network) (record manager : String) : Network :=
  match net.publishers.handle? manager with
  | none => net
  | some m =>
    { net with records := net.records.add record [] }.subscribe m (.recorder net.records.size)

/-- The logs of a record. -/
def recorded (net : Network) (record : String) : List EventLog :=
  (net.records.find? record).getD []

/-- Lets an indexer ingest an event. A write that this leads to is performed
later. -/
def ingest (net : Network) (indexer : Nat) (e : Event) : Network :=
  match net.observers.get? indexer with
  | none => net
  | some o =>
    { net with
      observers := net.observers.modify indexer fun o => { o with indexer := o.indexer.ingest e }
      unsettled := net.unsettled ++ (o.indexer.writeOf e).map fun _ => indexer }
      |>.write [o.indexer.ingestLine e]

/-- The reactions that all listeners have left. -/
def reactions (net : Network) : Nat :=
  net.listeners.total fun l => l.plan.reactions

end Network

end EpochClaims
