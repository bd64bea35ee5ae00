import EpochClaims.Network.Command
import EpochClaims.Proofs.Network.Emission

/-!
# What commands do to a network

Most commands leave managers, listeners and their subscriptions as they are and
write at most a few lines (`Still`). Of the others, each adds a manager,
performs an act, or lets an indexer or a recorder subscribe or leave.
`effect_execute` says so of every command, so whatever all commands keep needs
to be shown for these few effects only. `IsReached` are the networks to which
commands of some kind lead.
-/

namespace EpochClaims

namespace Network

variable {net net' : Network}

/-- A network that differs from another one in nothing that acts and deliveries
depend on, nor in its history but for lines. -/
structure Still (net net' : Network) : Prop where
  publishers_eq : net'.publishers = net.publishers
  listeners_eq : net'.listeners = net.listeners
  emissions_eq : net'.emissions = net.emissions
  exists_lines : ∃ lines : List Line, net'.history = net.history ++ lines.map .wrote

theorem Still.of_history_eq (hpublishers : net'.publishers = net.publishers)
    (hlisteners : net'.listeners = net.listeners) (hemissions : net'.emissions = net.emissions)
    (hhistory : net'.history = net.history) : net.Still net' :=
  ⟨hpublishers, hlisteners, hemissions, [], hhistory.trans (List.append_nil _).symm⟩

theorem Still.refl (net : Network) : net.Still net := .of_history_eq rfl rfl rfl rfl

theorem Still.trans {last : Network} (h : net.Still net') (hmore : net'.Still last) :
    net.Still last := by
  obtain ⟨lines, hlines⟩ := h.exists_lines
  obtain ⟨more, hhistory⟩ := hmore.exists_lines
  refine ⟨hmore.publishers_eq.trans h.publishers_eq, hmore.listeners_eq.trans h.listeners_eq,
    hmore.emissions_eq.trans h.emissions_eq, lines ++ more, ?_⟩
  rw [hhistory, hlines, List.append_assoc, List.map_append]

/-! ### What is left as it is -/

@[simp] theorem listeners_ingest (net : Network) (i : Nat) (e : Event) :
    (net.ingest i e).listeners = net.listeners := by
  rw [ingest]
  split <;> rfl

@[simp] theorem listeners_keepLog (net : Network) (k : Nat) (e : Event) :
    (net.keepLog k e).listeners = net.listeners := by
  rw [keepLog]
  split <;> rfl

@[simp] theorem listeners_settleOne (net : Network) (i : Nat) :
    (net.settleOne i).listeners = net.listeners := by
  rw [settleOne]
  split
  · rfl
  · split <;> rfl

theorem still_ingest (net : Network) (i : Nat) (e : Event) : net.Still (net.ingest i e) :=
  ⟨publishers_ingest .., listeners_ingest .., emissions_ingest .., exists_lines_ingest ..⟩

theorem still_settle (net : Network) : net.Still net.settle where
  publishers_eq := publishers_settle net
  listeners_eq := settle_keeps listeners listeners_settleOne net
  emissions_eq := settle_keeps emissions emissions_settleOne net
  exists_lines := exists_lines_settle net

theorem still_ingestAll (i : Nat) (events : List Event) :
    ∀ net : Network, net.Still (net.ingestAll i events) := by
  induction events with
  | nil => exact .refl
  | cons e events ih => exact fun net => (still_ingest net i e).trans (ih (net.ingest i e))

theorem still_withObject {α : Type} (objects : Registry α) (name : String)
    {use : Nat → α → Network × Answer} (huse : ∀ i a, net.Still (use i a).1) :
    net.Still (net.withObject objects name use).1 := by
  rw [withObject]
  split
  · exact .refl net
  · split
    · exact .refl net
    · exact huse _ _

theorem still_replay (net : Network) (record : String) (i : Nat) :
    net.Still (net.replay record i).1 := by
  rw [replay]
  split
  · exact .refl net
  · next events _ => exact still_ingestAll i events net

/-! ### Effects -/

/-- What a command may do to a network. -/
inductive Effect (net : Network) (c : Command) : Network → Prop
  | still {net' : Network} (h : net.Still net') : Effect net c net'
  | introduced (name : String) (m : Manager) : Effect net c (net.addManager name m)
  | acted {a : Act} (hc : c = .act a) : Effect net c (net.act a).1
  | subscribed {net' : Network} (h : net.Still net') {manager : String} {g : Nat}
      (hg : net.publishers.handle? manager = some g) (s : Subscriber) :
      Effect net c (net'.subscribe g s)
  | unsubscribed (g : Nat) (s : Subscriber) : Effect net c (net.unsubscribe g s)

variable {c : Command}

theorem effect_introduce (net : Network) (name : String)
    (made : Except Manager.SetupFault Manager) : net.Effect c (net.introduce name made).1 := by
  cases made with
  | ok m => exact .introduced name m
  | error _ => exact .still (.refl net)

theorem effect_attach (net : Network) (indexer manager : String) :
    net.Effect c (net.attach indexer manager) := by
  rw [attach]
  split
  · next i g _ hg =>
    have hentered : net.Still { net.takeTicket with
        attachments := (indexer, ⟨g, .indexer i net.tickets⟩) :: net.attachments } :=
      .of_history_eq rfl rfl rfl rfl
    exact .subscribed hentered hg (.indexer i net.tickets)
  · exact .still (.refl net)

theorem effect_detach (net : Network) (indexer : String) : net.Effect c (net.detach indexer) := by
  rw [detach]
  split
  · exact .still (.refl net)
  · exact .unsubscribed _ _

theorem effect_record (net : Network) (record manager : String) :
    net.Effect c (net.record record manager) := by
  rw [Network.record]
  split
  · exact .still (.refl net)
  · next g hg =>
    have hentered : net.Still { net with records := net.records.add record [] } :=
      .of_history_eq rfl rfl rfl rfl
    exact .subscribed hentered hg (.recorder net.records.size)

theorem effect_execute (net : Network) (c : Command) : net.Effect c (net.execute c).1 := by
  have hsame : ∀ {net' : Network}, net'.publishers = net.publishers →
      net'.listeners = net.listeners → net'.emissions = net.emissions →
        net'.history = net.history → net.Effect c net' :=
    fun hpublishers hlisteners hemissions hhistory =>
      .still (.of_history_eq hpublishers hlisteners hemissions hhistory)
  cases c with
  | configure manager document => exact effect_introduce net manager _
  | establish manager setup => exact effect_introduce net manager _
  | act a => exact .acted rfl
  | record record manager => exact effect_record net record manager
  | attach indexer manager => exact effect_attach net indexer manager
  | detach indexer => exact effect_detach net indexer
  | recorded _ => exact hsame rfl rfl rfl rfl
  | openCache _ _ => exact hsame rfl rfl rfl rfl
  | deleteEntry _ _ _ => exact hsame rfl rfl rfl rfl
  | clearEntries _ _ => exact hsame rfl rfl rfl rfl
  | replay record indexer =>
      exact .still (still_withObject _ _ fun i _ => still_replay net record i)
  | openIndexer indexer epoch cache =>
      have hadded : net.Still (net.addIndexer indexer epoch cache) := .of_history_eq rfl rfl rfl rfl
      exact .still (hadded.trans (still_withObject _ _ fun _ _ => .refl _))
  | ingest indexer e => exact .still (still_withObject _ _ fun i _ => still_ingest net i e)
  | inspect _ => exact .still (still_withObject _ _ fun _ _ => .refl net)
  | finalized _ _ => exact .still (still_withObject _ _ fun _ _ => .refl net)
  | flush _ => exact .still (still_withObject _ _ fun _ _ => .of_history_eq rfl rfl rfl rfl)
  | getEntry _ _ _ => exact .still (still_withObject _ _ fun _ _ => .refl net)
  | setEntry _ epoch name d =>
      refine .still (still_withObject _ _ fun i c => ?_)
      rw [setEntry]
      cases c.set epoch name d <;> exact .of_history_eq rfl rfl rfl rfl

/-- The networks to which commands of some kind lead. -/
inductive IsReached (allowed : Command → Prop) : Network → Prop
  | empty : IsReached allowed empty
  | step {net : Network} (h : IsReached allowed net) {c : Command} (hc : allowed c) :
      IsReached allowed (net.step c).1

variable {allowed : Command → Prop}

/-- Between commands no write is left to be settled. -/
theorem IsReached.unsettled_eq (h : net.IsReached allowed) : net.unsettled = [] := by
  cases h with
  | empty => rfl
  | @step net _ c _ =>
      refine settle_keeps unsettled (fun net i => ?_) (net.execute c).1
      rw [settleOne]
      split
      · rfl
      · split <;> rfl

theorem settle_of_unsettled_eq_nil (h : net.unsettled = []) : net.settle = net := by
  have hschedule : net.schedule = [] := by
    rw [schedule, h]
    rfl
  rw [settle, hschedule, List.foldl_nil, ← h]

theorem IsReached.watch (h : net.IsReached allowed) {manager listener : String} {p : Plan}
    (hc : allowed (.act (.watch manager listener p))) :
    (net.watch manager listener p).IsReached allowed := by
  have hact : (net.act (.watch manager listener p)).1 = net.watch manager listener p := by
    rw [act]
    cases net.reactions + (Act.watch manager listener p).reactions <;> rfl
  have hunsettled : (net.watch manager listener p).unsettled = [] := by
    rw [← h.unsettled_eq, Network.watch]
    split <;> rfl
  have hstep : (net.step (.act (.watch manager listener p))).1 =
      net.watch manager listener p := by
    rw [Network.step, execute, hact, settle_of_unsettled_eq_nil hunsettled]
  exact hstep ▸ h.step hc

end Network

end EpochClaims
