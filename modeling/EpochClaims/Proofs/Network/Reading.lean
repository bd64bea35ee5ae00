import EpochClaims.Network.History
import EpochClaims.Proofs.Manager.Replies

/-!
# What can be read off a history

A history tells, for each manager, which calls were performed and with what
results, in the order in which they changed the manager; to whom the manager
announced its events; and, for each subscriber, which events it received. It
also tells which managers committed calls of listeners, and at which subscribers
deliveries broke off. All of these are read off happening by happening, so each
of them splits along an appended history.
-/

namespace EpochClaims

namespace Happening

/-- The call of a manager that a happening is, with its result. -/
def call? (manager : Nat) : Happening → Option CallResult
  | called g c result => if g = manager then some (c, result) else none
  | _ => none

/-- The event of a call that a manager commits. -/
def event? (manager : Nat) : Happening → Option Event
  | called g _ (.ok r) => if g = manager then some r.event else none
  | _ => none

/-- The event of a manager that a subscriber receives. -/
def delivery? (manager : Nat) (s : Subscriber) : Happening → Option Event
  | delivered _ g e x => if g = manager ∧ x = s then some e else none
  | _ => none

/-- The event that an indexer receives, from whichever manager. -/
def ingestion? (indexer : Nat) : Happening → Option Event
  | delivered _ _ e (.indexer i _) => if i = indexer then some e else none
  | _ => none

/-- The subscribers to whom a manager announces an event. -/
def audience? (manager : Nat) : Happening → Option (List Subscriber)
  | announced _ g _ audience => if g = manager then some audience else none
  | _ => none

/-- A listener and the name of the manager that commits its call. -/
def callback? : Happening → Option (String × String)
  | acted listener (.call manager _) (.called (.ok _) _) => some (listener, manager)
  | _ => none

/-- The subscriber at whom a delivery of a manager breaks off. -/
def breaker? (manager : Nat) : Happening → Option Subscriber
  | brokenOff _ g s _ => if g = manager then some s else none
  | _ => none

/-- The calls of a manager with their results, in the order in which they were
committed or refused. -/
def calls (manager : Nat) (history : List Happening) : List CallResult :=
  history.filterMap (call? manager)

/-- The events of a manager that a subscriber receives. -/
def received (manager : Nat) (s : Subscriber) (history : List Happening) : List Event :=
  history.filterMap (delivery? manager s)

/-- The events that an indexer receives. -/
def ingested (indexer : Nat) (history : List Happening) : List Event :=
  history.filterMap (ingestion? indexer)

/-- The audiences to which a manager announces its events. -/
def audiences (manager : Nat) (history : List Happening) : List (List Subscriber) :=
  history.filterMap (audience? manager)

/-- Whose calls from inside a delivery are committed, and by which managers. -/
def callbacks (history : List Happening) : List (String × String) :=
  history.filterMap callback?

/-- The subscribers at whom deliveries of a manager break off. -/
def breakers (manager : Nat) (history : List Happening) : List Subscriber :=
  history.filterMap (breaker? manager)

/-- The replies to the committed calls of a manager, in the order of the calls. -/
def replies (manager : Nat) (history : List Happening) : List Reply :=
  repliesOf ((calls manager history).map Prod.snd)

/-- The events of the committed calls of a manager, in the order of the calls. -/
def events (manager : Nat) (history : List Happening) : List Event :=
  history.filterMap (event? manager)

variable {history more : List Happening}

theorem calls_append (manager : Nat) (history more : List Happening) :
    calls manager (history ++ more) = calls manager history ++ calls manager more :=
  List.filterMap_append

theorem received_append (manager : Nat) (s : Subscriber) (history more : List Happening) :
    received manager s (history ++ more) = received manager s history ++ received manager s more :=
  List.filterMap_append

theorem ingested_append (indexer : Nat) (history more : List Happening) :
    ingested indexer (history ++ more) = ingested indexer history ++ ingested indexer more :=
  List.filterMap_append

theorem audiences_append (manager : Nat) (history more : List Happening) :
    audiences manager (history ++ more) = audiences manager history ++ audiences manager more :=
  List.filterMap_append

theorem callbacks_append (history more : List Happening) :
    callbacks (history ++ more) = callbacks history ++ callbacks more :=
  List.filterMap_append

theorem breakers_append (manager : Nat) (history more : List Happening) :
    breakers manager (history ++ more) = breakers manager history ++ breakers manager more :=
  List.filterMap_append

theorem events_append (manager : Nat) (history more : List Happening) :
    events manager (history ++ more) = events manager history ++ events manager more :=
  List.filterMap_append

/-- The events of a manager are those of the replies that it gives. -/
theorem events_eq (manager : Nat) (history : List Happening) :
    events manager history = (replies manager history).map Reply.event := by
  rw [replies]
  induction history with
  | nil => rfl
  | cons h history ih =>
      cases h with
      | called g c result =>
          rw [events, List.filterMap_cons, calls, List.filterMap_cons]
          by_cases hg : g = manager
          · cases result with
            | ok r => simpa [event?, call?, hg, events, calls] using ih
            | error e => simpa [event?, call?, hg, events, calls] using ih
          · cases result <;> simpa [event?, call?, hg, events, calls] using ih
      | _ => exact ih

theorem mem_audiences_iff {g : Nat} {audience : List Subscriber} :
    audience ∈ audiences g history ↔ ∃ n e, .announced n g e audience ∈ history := by
  rw [audiences, List.mem_filterMap]
  constructor
  · rintro ⟨h, hmem, haudience⟩
    cases h with
    | announced n g' e audience' =>
        obtain ⟨rfl, hsame⟩ := Option.ite_none_right_eq_some.1 haudience
        obtain rfl := Option.some.inj hsame
        exact ⟨n, e, hmem⟩
    | _ => contradiction
  · rintro ⟨n, e, hmem⟩
    exact ⟨_, hmem, if_pos rfl⟩

/-- No delivery breaks off. -/
def Whole (history : List Happening) : Prop :=
  ∀ n g s escaped, .brokenOff n g s escaped ∉ history

theorem Whole.of_subset {part : List Happening} (h : Whole history) (hpart : part ⊆ history) :
    Whole part :=
  fun n g s escaped hmem => h n g s escaped (hpart hmem)

theorem mem_breakers_iff {g : Nat} {s : Subscriber} :
    s ∈ breakers g history ↔ ∃ n escaped, .brokenOff n g s escaped ∈ history := by
  rw [breakers, List.mem_filterMap]
  constructor
  · rintro ⟨h, hmem, hs⟩
    cases h with
    | brokenOff n g' s' escaped =>
        obtain ⟨rfl, hsame⟩ := Option.ite_none_right_eq_some.1 hs
        obtain rfl := Option.some.inj hsame
        exact ⟨n, escaped, hmem⟩
    | _ => contradiction
  · rintro ⟨n, escaped, hmem⟩
    exact ⟨_, hmem, if_pos rfl⟩

theorem mem_callbacks_of_part {part : List Happening} (h : part <:+: history)
    {x : String × String} (hx : x ∈ callbacks part) : x ∈ callbacks history := by
  obtain ⟨before, behind, rfl⟩ := h
  rw [callbacks_append, callbacks_append]
  exact List.mem_append_left _ (List.mem_append_right _ hx)

/-! Lines of the journal tell nothing about calls and deliveries. -/

variable {α : Type} {f : Happening → Option α}

theorem filterMap_wrote (hf : ∀ line, f (wrote line) = none) (lines : List Line) :
    (lines.map wrote).filterMap f = [] := by
  rw [List.filterMap_map, List.filterMap_eq_nil_iff]
  intro line _
  exact hf line

theorem filterMap_wrote_append (hf : ∀ line, f (wrote line) = none) (lines : List Line)
    (history : List Happening) :
    (lines.map wrote ++ history).filterMap f = history.filterMap f := by
  rw [List.filterMap_append, filterMap_wrote hf, List.nil_append]

@[simp] theorem calls_wrote (manager : Nat) (lines : List Line) :
    calls manager (lines.map wrote) = [] :=
  filterMap_wrote (fun _ => rfl) lines

@[simp] theorem received_wrote (manager : Nat) (s : Subscriber) (lines : List Line) :
    received manager s (lines.map wrote) = [] :=
  filterMap_wrote (fun _ => rfl) lines

@[simp] theorem ingested_wrote (indexer : Nat) (lines : List Line) :
    ingested indexer (lines.map wrote) = [] :=
  filterMap_wrote (fun _ => rfl) lines

@[simp] theorem events_wrote (manager : Nat) (lines : List Line) :
    events manager (lines.map wrote) = [] :=
  filterMap_wrote (fun _ => rfl) lines

/-- Of a call that stands in front, its manager has one call more. -/
theorem calls_called_cons (manager handle : Nat) (c : Call) (result : Except Refusal Reply)
    (history : List Happening) :
    calls manager (called handle c result :: history) =
      if handle = manager then (c, result) :: calls manager history
      else calls manager history := by
  rw [calls, List.filterMap_cons, call?]
  by_cases h : handle = manager <;> simp [h, calls]

/-- What is read off a committed call and all that it leads to. -/
theorem filterMap_committed (hf : ∀ line, f (wrote line) = none) (handle : Nat) (c : Call)
    (result : Except Refusal Reply) (lines : List Line) (emission : Nat) (e : Event)
    (audience : List Subscriber) (told : List Happening) :
    (called handle c result :: (lines.map wrote ++
        announced emission handle e audience :: told)).filterMap f =
      (f (called handle c result)).toList ++ (f (announced emission handle e audience)).toList ++
        told.filterMap f := by
  rw [List.filterMap_cons, filterMap_wrote_append hf, List.filterMap_cons]
  cases f (called handle c result) <;> cases f (announced emission handle e audience) <;> simp

end Happening

end EpochClaims
