import EpochClaims.Proofs.Index.Mirror
import EpochClaims.Proofs.Network.Audience
import EpochClaims.Proofs.Network.Flattening
import EpochClaims.Proofs.Network.Order

/-!
# Subscribing to a manager

While moves are done, a subscriber in every audience of a manager receives the
event of each committed call exactly once, provided that no delivery breaks off
in front of it. None does in front of an indexer that comes first
(`unbrokenAhead_of_head?`), nor anywhere if all that listeners raise can be
spelled (`unbrokenAhead_of_legible`).

It receives the events in the order of the calls if those in front of it have no
calls committed (`subscribers_receive_events`). Otherwise it may hear a later
event first: a clerk who closes the epoch when the first claim is heard does so
before an indexer behind it has heard of the claim, `late_scribe`. An indexer
then takes the claim for one of the next epoch, but counts the epochs right.
-/

namespace EpochClaims

open Happening

namespace Network

variable {net : Network} {moves : List Move} {g i t : Nat} {s : Subscriber} {m : Manager}

/-- No delivery of a manager breaks off in front of a subscriber. -/
def UnbrokenAhead (g : Nat) (s : Subscriber) (history : List Happening) : Prop :=
  ∀ audience ∈ audiences g history, ∀ x ∈ audience.takeWhile (· ≠ s), x ∉ breakers g history

theorem unbrokenAhead_of_head? (hs : s.isFixed = true) (hhead : (net.audience g).head? = some s)
    (moves : List Move) : UnbrokenAhead g s (net.happened moves) := by
  intro audience haudience x hx
  obtain ⟨n, e, hannounced⟩ := mem_audiences_iff.1 haudience
  obtain ⟨behind, rfl⟩ := List.head?_eq_some_iff.1
    ((net.path_happened moves).head?_audience hs hhead hannounced)
  rw [List.takeWhile_cons_of_neg (by simp)] at hx
  contradiction

theorem unbrokenAhead_of_legible (hnet : net.Legible) (hmoves : ∀ move ∈ moves, move.Legible)
    (g : Nat) (s : Subscriber) : UnbrokenAhead g s (net.happened moves) := by
  intro audience _ x _ hbroken
  obtain ⟨n, escaped, hmem⟩ := mem_breakers_iff.1 hbroken
  exact whole_happened hnet hmoves n g x escaped hmem

theorem received_perm (hcount : ∀ audience ∈ audiences g (net.happened moves),
    audience.count s = 1) (hahead : UnbrokenAhead g s (net.happened moves)) :
    (received g s (net.happened moves)).Perm (events g (net.happened moves)) :=
  (net.tells_happened moves).received_perm
    (fun audience ha => ⟨hcount audience ha, hahead audience ha⟩) trivial

/-- Whatever a subscriber receives is the event of a committed call, also if
deliveries break off. -/
theorem received_subset (moves : List Move) (g : Nat) (s : Subscriber) :
    received g s (net.happened moves) ⊆ events g (net.happened moves) := by
  intro e he
  obtain ⟨x, hx, hdelivered⟩ := List.mem_filterMap.1 he
  cases x with
  | delivered n g' e' s' =>
      obtain ⟨⟨rfl, rfl⟩, hsame⟩ := Option.ite_none_right_eq_some.1 hdelivered
      obtain rfl := Option.some.inj hsame
      obtain ⟨audience, hannounced, -⟩ :=
        ((net.tells_happened moves).announcedTo hx).resolve_right id
      have hcommitted : (g', e') ∈ (net.happened moves).filterMap announcement? :=
        List.mem_filterMap.2 ⟨_, hannounced, rfl⟩
      rw [(net.tells_happened moves).announced_eq] at hcommitted
      obtain ⟨y, hy, hcommitment⟩ := List.mem_filterMap.1 hcommitted
      refine List.mem_filterMap.2 ⟨y, hy, ?_⟩
      cases y with
      | called g c result =>
          cases result with
          | ok r =>
              obtain ⟨rfl, rfl⟩ := Prod.mk.inj (Option.some.inj hcommitment)
              exact if_pos rfl
          | error _ => contradiction
      | _ => contradiction
  | _ => contradiction

/-- The listeners in front of a subscriber have none of their calls committed. -/
def QuietAhead (g : Nat) (s : Subscriber) (history : List Happening) : Prop :=
  ∀ audience ∈ audiences g history, ∀ name, .listener name ∈ audience.takeWhile (· ≠ s) →
    ∀ manager, (name, manager) ∉ callbacks history

theorem received_eq_of_quietAhead (hcount : ∀ audience ∈ audiences g (net.happened moves),
      audience.count s = 1) (hahead : UnbrokenAhead g s (net.happened moves))
    (hquiet : QuietAhead g s (net.happened moves)) :
    received g s (net.happened moves) = events g (net.happened moves) := by
  refine (net.tells_happened moves).received_eq (fun audience ha => ⟨hcount audience ha, ?_⟩)
    trivial
  refine fun x hx => ⟨hahead audience ha x hx, fun own hpart hown => ?_⟩
  refine hown.events_of_hearing rfl ?_
  rintro name manager rfl hcallback
  exact hquiet audience ha name hx manager (mem_callbacks_of_part hpart hcallback)

/-- No call from within a delivery is committed by a manager. -/
def NotCalledBack (net : Network) (g : Nat) (history : List Happening) : Prop :=
  ∀ name manager, (name, manager) ∈ callbacks history → net.publishers.handle? manager ≠ some g

theorem received_eq_of_notCalledBack (hcount : ∀ audience ∈ audiences g (net.happened moves),
      audience.count s = 1) (hahead : UnbrokenAhead g s (net.happened moves))
    (hnone : net.NotCalledBack g (net.happened moves)) :
    received g s (net.happened moves) = events g (net.happened moves) := by
  refine (net.tells_happened moves).received_eq (fun audience ha => ⟨hcount audience ha, ?_⟩)
    trivial
  refine fun x hx => ⟨hahead audience ha x hx, fun own hpart hown => ?_⟩
  exact hown.events_eq_made fun name manager hcallback =>
    hnone name manager (mem_callbacks_of_part hpart hcallback)

/-- The view of an indexer that follows a manager has ingested the events that
it received from this manager. -/
theorem view?_happened (hfollows : net.Follows i g t) (moves : List Move) :
    (net.moveAll moves).1.view? i =
      (net.view? i).map fun v => v.ingestAll (received g (.indexer i t) (net.happened moves)) := by
  rw [(net.path_happened moves).view, (net.tells_happened moves).ingested_eq]
  rintro n g' e t' ⟨audience, hannounced, hmem⟩
  exact (net.path_happened moves).eq_of_follows hfollows hannounced hmem

/-- While moves are done, whoever is once in every audience of a manager and behind
nobody at whom a delivery breaks off receives the event of each committed call
exactly once, and in the order of the calls if the listeners in front have none of
their calls committed. An indexer that follows a manager from the start counts one
epoch more for every closing, and its view waits for a first claim exactly if
there is none, under the same conditions. If all that listeners may raise can be
spelled, nobody is behind one at whom a delivery breaks off. -/
theorem subscribers_receive_events (net : Network) (moves : List Move) {g : Nat} {m : Manager}
    {setup : Setup} (hsetup : Manager.ofSetup setup = .ok m) (hm : net.manager? g = some m) :
    (∀ s, (∀ audience ∈ audiences g (net.happened moves), audience.count s = 1) →
      UnbrokenAhead g s (net.happened moves) →
        (received g s (net.happened moves)).Perm (events g (net.happened moves)) ∧
          (QuietAhead g s (net.happened moves) →
            received g s (net.happened moves) = events g (net.happened moves))) ∧
    (∀ i t epoch, net.Follows i g t → net.view? i = some (.start epoch) →
      UnbrokenAhead g (.indexer i t) (net.happened moves) →
        ∃ m' v closings, (net.moveAll moves).1.manager? g = some m' ∧
          (net.moveAll moves).1.view? i = some v ∧
          closings = ((replies g (net.happened moves)).filterMap Reply.closed?).length ∧
          v.epoch = Argument.next^[closings] epoch ∧
          (∀ z : Int, epoch = .number (Binary64.ofInt z) →
            z.natAbs + closings ≤ Binary64.exactBound →
              v.epoch = .number (Binary64.ofInt (z + closings))) ∧
          (QuietAhead g (.indexer i t) (net.happened moves) →
            (v.phase = .awaitingFirstClaim ↔ m'.state.claim = none))) ∧
    (net.Legible → (∀ move ∈ moves, move.Legible) →
      ∀ s, UnbrokenAhead g s (net.happened moves)) := by
  refine ⟨fun s hcount hahead =>
    ⟨received_perm hcount hahead, received_eq_of_quietAhead hcount hahead⟩, ?_,
    fun hnet hmoves s => unbrokenAhead_of_legible hnet hmoves g s⟩
  intro i t epoch hfollows hview hahead
  have hcount := (net.path_happened moves).count_of_follows hfollows
  obtain ⟨m', hm', hreplays⟩ := (net.path_happened moves).replays hm
  have hview' := net.view?_happened hfollows moves
  rw [hview, Option.map_some] at hview'
  have hepoch : ((View.start epoch).ingestAll
      (received g (.indexer i t) (net.happened moves))).epoch =
        Argument.next^[((replies g (net.happened moves)).filterMap Reply.closed?).length]
          epoch := by
    rw [View.epoch_ingestAll, (received_perm hcount hahead).countP_eq, events_eq,
      View.countP_closes]
    rfl
  refine ⟨m', _, _, hm', hview', rfl, hepoch, ?_, ?_⟩
  · rintro z rfl hz
    rw [hepoch, View.next_iterate_ofInt z _ hz]
  · intro hquiet
    obtain ⟨addresses, hadmissible, rfl⟩ := Manager.exists_admissible_of_ofSetup hsetup
    rw [received_eq_of_quietAhead hcount hahead hquiet, events_eq, replies, hreplays.replied_eq,
      hreplays.manager_eq]
    exact Manager.awaiting_run (Manager.sound_start setup hadmissible).claim_ne_none
      (iff_of_true rfl rfl) _

/-! A scribe indexes the events of the two validators' manager, in front of the
clerk or behind it. -/

/-- A network in which a scribe starts to follow the court. -/
def withScribe (net : Network) : Network :=
  (net.addIndexer "scribe" .missing none).attach "scribe" "court"

theorem follows_withScribe_duo : duo.withScribe.Follows 0 0 0 := by
  refine follows_attach (m := .duo) rfl rfl rfl ?_
  intro g t
  cases g with
  | zero => exact List.not_mem_nil
  | succ g => exact List.not_mem_nil

theorem view?_withScribe_duo :
    duo.withScribe.view? 0 = some (.start (.number (Binary64.ofInt 0))) := rfl

/-- In front of the clerk the scribe hears of the claim before the closing. -/
theorem subscribers_receive_events_early :
    received 0 (.indexer 0 0) (duo.withScribe.happened Move.interruption) =
        events 0 (duo.withScribe.happened Move.interruption) ∧
      (events 0 (duo.withScribe.happened Move.interruption)).map Event.name =
        ["ClaimReceived", "NewEpoch"] ∧
      ∃ v, (duo.withScribe.moveAll Move.interruption).1.view? 0 = some v ∧
        v.epoch = .number (Binary64.ofInt 1) := by
  have hcount : ∀ audience ∈ audiences 0 (duo.withScribe.happened Move.interruption),
      audience.count (.indexer 0 0) = 1 := by
    decide +kernel
  have hahead : ∀ audience ∈ audiences 0 (duo.withScribe.happened Move.interruption),
      audience.takeWhile (· ≠ .indexer 0 0) = [] := by
    decide +kernel
  have hquiet : QuietAhead 0 (.indexer 0 0) (duo.withScribe.happened Move.interruption) := by
    intro audience ha name hname
    rw [hahead audience ha] at hname
    exact absurd hname List.not_mem_nil
  have hunbroken : UnbrokenAhead 0 (.indexer 0 0) (duo.withScribe.happened Move.interruption) :=
    unbrokenAhead_of_head? rfl rfl Move.interruption
  obtain ⟨hsubscribers, hindexers, -⟩ := subscribers_receive_events duo.withScribe
    Move.interruption Manager.ofSetup_duo (g := 0) rfl
  obtain ⟨m, v, closings, -, hv, hclosings, -, hepoch, -⟩ :=
    hindexers 0 0 _ follows_withScribe_duo view?_withScribe_duo hunbroken
  have hone : closings = 1 := by
    rw [hclosings]
    decide +kernel
  rw [hone] at hepoch
  have hlast := hepoch 0 rfl (by decide +kernel)
  rw [Int.zero_add, Int.natCast_one] at hlast
  exact ⟨(hsubscribers _ hcount hunbroken).2 hquiet, by decide +kernel, v, hv, hlast⟩

/-- The two validators' manager with the scribe behind the clerk. -/
def late : Network :=
  (duo.moveAll [Move.clerk]).1.withScribe

theorem follows_late : late.Follows 0 0 0 := by
  rw [late, withScribe]
  refine follows_attach (m := .duo) rfl rfl rfl ?_
  intro g t
  cases g with
  | zero => exact List.mem_singleton.not.2 nofun
  | succ g => exact List.not_mem_nil

/-- Behind the clerk the scribe hears of the claim after the closing, and
believes that somebody has claimed something in the new epoch. -/
theorem late_scribe :
    (Manager.ofSetup .duo = .ok .duo ∧ late.manager? 0 = some .duo ∧ late.Follows 0 0 0 ∧
      late.view? 0 = some (.start (.number (Binary64.ofInt 0))) ∧
      ∀ audience ∈ audiences 0 (late.happened [.act (.call "court" .opening)]),
        audience.count (.indexer 0 0) = 1) ∧
    (events 0 (late.happened [.act (.call "court" .opening)])).map Event.name =
      ["ClaimReceived", "NewEpoch"] ∧
    (received 0 (.indexer 0 0) (late.happened [.act (.call "court" .opening)])).map Event.name =
      ["NewEpoch", "ClaimReceived"] ∧
    ((late.moveAll [.act (.call "court" .opening)]).1.view? 0).map View.phase =
      some .awaitingConsensusNoConflict ∧
    ((late.moveAll [.act (.call "court" .opening)]).1.manager? 0).map
      (fun m => m.state.claim) = some none := by
  refine ⟨⟨Manager.ofSetup_duo, rfl, follows_late, rfl, ?_⟩, ?_, ?_, ?_, ?_⟩
  all_goals decide +kernel

end Network

end EpochClaims
