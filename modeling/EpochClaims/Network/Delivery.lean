import EpochClaims.Manager.Lines
import EpochClaims.Network.Basic

/-!
# Delivery

A call of a manager that is not refused changes its state first, and only then
is the event announced and delivered to those who subscribe at that moment, in
order. A listener performs its acts right there, and calls among them run to
their end, deliveries included, before the next subscriber hears the event. So
subscribers may hear a later event first, but no call ever meets a state that
is half changed. A refused call delivers nothing.

What a listener raises becomes a line of the journal. If it cannot be spelled,
what the spelling raises escapes instead: the delivery breaks off, the
subscribers behind the listener are left out, and the caller is told of it in
place of the reply, although the call is committed.

`performWith` takes the meaning of the acts of listeners as an argument, and
`perform` ties the knot for a number of levels. `act` allows as many levels as
there are reactions, which is enough, since every level uses one up
(`EpochClaims.Network.Levels`).
-/

namespace EpochClaims

/-- The line that a failing subscriber leaves. -/
def failureLine (e : Event) (message : String) : Line :=
  ⟨.events, "listener failed on " ++ e.name ++ ": " ++ message⟩

namespace Network

/-- Adds the log of an event to a record. -/
def keepLog (net : Network) (record : Nat) (e : Event) : Network :=
  match EventLog.encode e with
  | .ok log => { net with records := net.records.modify record fun l => l ++ log.toList }
  | .error fault => net.write [failureLine e fault.report.message]

/-- Performs the acts of a listener, one after another. -/
def performAll (inner : Network → Act → Network × ActAnswer) (net : Network)
    (listener : String) (acts : List Act) : Network :=
  acts.foldl (fun net act =>
    let r := inner net act
    r.1.note (.acted listener act r.2)) net

/-- Writes down what a listener raises, unless it cannot be spelled; then what
the spelling raises escapes. -/
def fail (net : Network) (e : Event) (raised : Raised) : Network × Option Raised :=
  match raised.message with
  | .ok message => (net.write [failureLine e message], none)
  | .error escaped => (net, some escaped)

/-- Lets a listener hear an event. -/
def react (inner : Network → Act → Network × ActAnswer) (net : Network) (listener : String)
    (e : Event) : Network × Option Raised :=
  match net.listeners.find? listener with
  | none => (net, none)
  | some l =>
    let (reaction, plan) := l.plan.next
    let listeners := net.listeners.update listener fun l => { l with plan := plan }
    let net := { net with listeners := listeners }.performAll inner listener reaction.acts
    match reaction.failure with
    | none => (net, none)
    | some raised => net.fail e raised

/-- Lets a subscriber receive an event. -/
def receive (inner : Network → Act → Network × ActAnswer) (emission manager : Nat) (e : Event)
    (net : Network) (s : Subscriber) : Network × Option Raised :=
  let net := net.note (.delivered emission manager e s)
  match s with
  | .listener name => net.react inner name e
  | .indexer handle _ => (net.ingest handle e, none)
  | .recorder handle => (net.keepLog handle e, none)

/-- Delivers an event to one subscriber after another until something escapes. -/
def deliver (inner : Network → Act → Network × ActAnswer) (emission manager : Nat) (e : Event)
    (net : Network) : List Subscriber → Network × Option Raised
  | [] => (net, none)
  | s :: audience =>
    match receive inner emission manager e net s with
    | (net, none) => deliver inner emission manager e net audience
    | (net, some escaped) => (net.note (.brokenOff emission manager s escaped), some escaped)

/-- Announces an event and delivers it to a copy of the audience. -/
def announce (inner : Network → Act → Network × ActAnswer) (net : Network) (manager : Nat)
    (e : Event) : Network × Option Raised :=
  let audience := ((net.publishers.get? manager).map Publisher.audience).getD []
  let emission := net.emissions
  let net := { net with emissions := emission + 1 }.note (.announced emission manager e audience)
  deliver inner emission manager e net audience

/-- Puts a manager into the state it has after a call. -/
def commit (net : Network) (manager : Nat) (m : Manager) : Network :=
  { net with publishers := net.publishers.modify manager fun p => { p with manager := m } }

/-- Performs a call of a manager. -/
def call (inner : Network → Act → Network × ActAnswer) (net : Network) (manager : Nat)
    (m : Manager) (c : Call) : Network × CallAnswer :=
  match m.perform c with
  | .error refusal =>
    ((net.note (.called manager c (.error refusal))).write (m.lines c), .error refusal)
  | .ok (next, reply) =>
    let net := (net.commit manager next).note (.called manager c (.ok reply))
    let r := (net.write (m.lines c)).announce inner manager reply.event
    (r.1, .ok (reply, r.2))

/-- The answer to a call of a manager. -/
def answer (net : Network) (manager : Nat) (result : CallAnswer) : ActAnswer :=
  match net.publishers.get? manager with
  | some p => .called result p.manager
  | none => .done

/-- Performs an act, given the meaning of the acts of listeners. -/
def performWith (inner : Network → Act → Network × ActAnswer) (net : Network) :
    Act → Network × ActAnswer
  | .watch manager listener plan => (net.watch manager listener plan, .done)
  | .unwatch listener => (net.unwatch listener, .done)
  | .call manager c =>
    match net.publishers.handle? manager with
    | none => (net, .done)
    | some handle =>
      match net.publishers.get? handle with
      | none => (net, .done)
      | some p =>
        let r := net.call inner handle p.manager c
        (r.1, r.1.answer handle r.2)

/-- Performs an act in which the acts of listeners nest up to a number of
levels; those below are left out. -/
def perform : Nat → Network → Act → Network × ActAnswer
  | 0 => performWith fun net _ => (net, .done)
  | levels + 1 => performWith (perform levels)

/-- Performs an act. -/
def act (net : Network) (a : Act) : Network × ActAnswer :=
  perform (net.reactions + a.reactions) net a

end Network

end EpochClaims
