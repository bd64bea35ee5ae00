import EpochClaims.EventLog.Decoding
import EpochClaims.Network.Delivery
import EpochClaims.Network.Settlement

/-!
# Commands

A network is driven by commands, one after another. Between two commands all
writes are settled, so what a command leads to, the lines of its writes
included, is over before the next one. A response tells what was found and what
happened. A command that names an object that does not exist does nothing.
-/

namespace EpochClaims

/-- What can be asked of a network. -/
inductive Command where
  | configure (manager : String) (document : Option Document)
  | establish (manager : String) (setup : Setup)
  | act (act : Act)
  | record (record manager : String)
  | recorded (record : String)
  | replay (record indexer : String)
  | openCache (cache : String) (faults : List CacheFault)
  | openIndexer (indexer : String) (epoch : Argument) (cache : Option String)
  | attach (indexer manager : String)
  | detach (indexer : String)
  | ingest (indexer : String) (event : Event)
  | inspect (indexer : String)
  | finalized (indexer : String) (epoch : Argument)
  | flush (indexer : String)
  | getEntry (cache : String) (epoch name : Argument)
  | setEntry (cache : String) (epoch name : Argument) (document : Document)
  | deleteEntry (cache : String) (epoch name : Argument)
  | clearEntries (cache : String) (epoch : Argument)

/-- What a command finds. -/
inductive Finding where
  | nothing
  | manager (manager : Manager)
  | reply (reply : Reply)
  | view (view : View)
  | logs (logs : List EventLog)
  | claim (claim : Argument)
  | entry (document : Option Document)

/-- What a command finds or why it fails and, if it was a call, the manager
after it. -/
structure Answer where
  result : Except Report Finding
  manager : Option Manager

/-- An answer with everything that happened meanwhile. -/
structure Response where
  answer : Answer
  happened : List Happening

namespace Answer

/-- The answer that something was found. -/
def found (f : Finding) : Answer := ⟨.ok f, none⟩

/-- The answer that something failed. -/
def failed (r : Report) : Answer := ⟨.error r, none⟩

end Answer

/-- The answer that an act leads to. -/
def ActAnswer.toAnswer : ActAnswer → Answer
  | called (.ok (reply, none)) m => ⟨.ok (.reply reply), some m⟩
  | called (.ok (_, some escaped)) m => ⟨.error escaped.report, some m⟩
  | called (.error refusal) m => ⟨.error refusal.report, some m⟩
  | done => .found .nothing

namespace Network

/-- Adds a manager if there is one to add. -/
def introduce (net : Network) (name : String) :
    Except Manager.SetupFault Manager → Network × Answer
  | .ok m => (net.addManager name m, .found (.manager m))
  | .error f => (net, .failed f.report)

/-- The view of an indexer. -/
def viewOf (net : Network) (indexer : Nat) : Answer :=
  match net.observers.get? indexer with
  | some o => .found (.view o.indexer.view)
  | none => .found .nothing

/-- Lets an indexer ingest a list of events. -/
def ingestAll (net : Network) (indexer : Nat) (events : List Event) : Network :=
  events.foldl (fun net e => net.ingest indexer e) net

/-- Reads the logs of a record and lets an indexer ingest their events. -/
def replay (net : Network) (record : String) (indexer : Nat) : Network × Answer :=
  match EventLog.decodeAll (net.recorded record) with
  | .error fault => (net, .failed fault.report)
  | .ok events => (net.ingestAll indexer events, (net.ingestAll indexer events).viewOf indexer)

/-- The claim of a closed epoch, as an indexer knows it. -/
def finalizedClaim (net : Network) (o : Observer) (epoch : Argument) : Answer :=
  match o.indexer.finalizedClaim (o.cache.bind net.caches.get?) epoch with
  | .ok claim => .found (.claim claim)
  | .error raised => .failed raised.report

/-- Reports the first refused write of an indexer. -/
def flush (net : Network) (indexer : Nat) (o : Observer) : Network × Answer :=
  let (x, raised) := o.indexer.flush
  ({ net with observers := net.observers.modify indexer fun o => { o with indexer := x } },
    match raised with
    | some raised => .failed raised.report
    | none => .found .nothing)

/-- Writes an entry of a cache. -/
def setEntry (net : Network) (cache : Nat) (c : Cache) (epoch name : Argument) (d : Document) :
    Network × Answer :=
  match c.set epoch name d with
  | .ok c => ({ net with caches := net.caches.modify cache fun _ => c }, .found .nothing)
  | .error raised => (net, .failed raised.report)

/-- Reads an entry of a cache. -/
def getEntry (c : Cache) (epoch name : Argument) : Answer :=
  match c.get epoch name with
  | .ok d => .found (.entry d)
  | .error raised => .failed raised.report

/-- Carries a command on with the handle and the object of a name, if there is
such an object. -/
def withObject {α : Type} (net : Network) (objects : Registry α) (name : String)
    (use : Nat → α → Network × Answer) : Network × Answer :=
  match objects.handle? name with
  | none => (net, .found .nothing)
  | some handle =>
    match objects.get? handle with
    | none => (net, .found .nothing)
    | some a => use handle a

/-- Executes a command, leaving writes to be settled. -/
def execute (net : Network) : Command → Network × Answer
  | .configure manager document => net.introduce manager (Manager.ofDocument document)
  | .establish manager setup => net.introduce manager (Manager.ofSetup setup)
  | .act a =>
    let r := net.act a
    (r.1, r.2.toAnswer)
  | .record record manager => (net.record record manager, .found .nothing)
  | .recorded record => (net, .found (.logs (net.recorded record)))
  | .replay record indexer => net.withObject net.observers indexer fun i _ => net.replay record i
  | .openCache cache faults => (net.addCache cache faults, .found .nothing)
  | .openIndexer indexer epoch cache =>
    let net := net.addIndexer indexer epoch cache
    net.withObject net.observers indexer fun i _ => (net, net.viewOf i)
  | .attach indexer manager => (net.attach indexer manager, .found .nothing)
  | .detach indexer => (net.detach indexer, .found .nothing)
  | .ingest indexer e =>
    net.withObject net.observers indexer fun i _ => (net.ingest i e, (net.ingest i e).viewOf i)
  | .inspect indexer => net.withObject net.observers indexer fun i _ => (net, net.viewOf i)
  | .finalized indexer epoch =>
    net.withObject net.observers indexer fun _ o => (net, net.finalizedClaim o epoch)
  | .flush indexer => net.withObject net.observers indexer net.flush
  | .getEntry cache epoch name =>
    net.withObject net.caches cache fun _ c => (net, getEntry c epoch name)
  | .setEntry cache epoch name d =>
    net.withObject net.caches cache fun i c => net.setEntry i c epoch name d
  | .deleteEntry cache epoch name =>
    ({ net with caches := net.caches.update cache fun c => c.delete epoch name }, .found .nothing)
  | .clearEntries cache epoch =>
    ({ net with caches := net.caches.update cache fun c => c.clear epoch }, .found .nothing)

/-- Executes a command and settles what it leads to. -/
def step (net : Network) (c : Command) : Network × Response :=
  let r := net.execute c
  let after := r.1.settle
  (after, ⟨r.2, after.history.drop net.history.length⟩)

/-- The responses to a list of commands. -/
def run (net : Network) : List Command → List Response
  | [] => []
  | c :: commands =>
    let r := net.step c
    r.2 :: run r.1 commands

end Network

end EpochClaims
