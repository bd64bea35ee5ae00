import EpochClaims.Network.Command
import EpochClaims.Proofs.Index.Storage
import EpochClaims.Proofs.Network.Subscription

/-!
# Closed epochs survive in the cache

An indexer with a cache of its own follows a manager from the start. Whatever
is done to the network, the indexer and the cache keep to `Indexer.Saves`, for
nobody else writes there (`Path.stores`); and when all writes are settled, its
queue is empty (`Stores.settle`). Then the claims of the closed epochs can be
read from the indexer itself and from any other one that is started later with
the same cache.
-/

namespace EpochClaims

open Happening

namespace Network

/-- The handle of the cache of an indexer. -/
def shelfOf? (net : Network) (indexer : Nat) : Option Nat :=
  (net.observers.get? indexer).bind Observer.cache

theorem shelfOf?_modify (net : Network) (i j : Nat) (f : Indexer → Indexer) :
    ((net.observers.modify i fun o => { o with indexer := f o.indexer }).get? j).bind
      Observer.cache = net.shelfOf? j := by
  rw [Registry.get?_modify, shelfOf?]
  cases net.observers.get? j with
  | none => rfl
  | some o => by_cases h : i = j <;> simp [h]

theorem shelfOf?_ingest (net : Network) (i j : Nat) (e : Event) :
    (net.ingest i e).shelfOf? j = net.shelfOf? j := by
  rw [ingest]
  split
  · rfl
  · exact shelfOf?_modify net i j fun x => x.ingest e

theorem shelfOf?_settleOne (net : Network) (i j : Nat) :
    (net.settleOne i).shelfOf? j = net.shelfOf? j := by
  rw [settleOne]
  split
  · rfl
  · next o _ =>
    split
    · rfl
    · next handle c _ => exact shelfOf?_modify net i j fun _ => (o.indexer.settle c).1

theorem caches_keepLog (net : Network) (k : Nat) (e : Event) :
    (net.keepLog k e).caches = net.caches := by
  rw [keepLog]
  split <;> rfl

theorem unsettled_keepLog (net : Network) (k : Nat) (e : Event) :
    (net.keepLog k e).unsettled = net.unsettled := by
  rw [keepLog]
  split <;> rfl

theorem caches_watch (net : Network) (manager listener : String) (p : Plan) :
    (net.watch manager listener p).caches = net.caches := by
  rw [watch]
  split <;> rfl

theorem unsettled_watch (net : Network) (manager listener : String) (p : Plan) :
    (net.watch manager listener p).unsettled = net.unsettled := by
  rw [watch]
  split <;> rfl

theorem caches_unwatch (net : Network) (listener : String) :
    (net.unwatch listener).caches = net.caches := by
  rw [unwatch]
  split <;> rfl

theorem unsettled_unwatch (net : Network) (listener : String) :
    (net.unwatch listener).unsettled = net.unsettled := by
  rw [unwatch]
  split <;> rfl

/-- An indexer saves its closed epochs in a cache that no other indexer has. -/
structure Stores (net : Network) (i shelf : Nat) (x : Indexer) (c : Cache) : Prop where
  observer : net.observers.get? i = some ⟨x, some shelf⟩
  cache : net.caches.get? shelf = some c
  sole : ∀ j, net.shelfOf? j = some shelf → j = i
  saves : x.Saves c

variable {net net' : Network} {i shelf : Nat} {x : Indexer} {c : Cache}

theorem Stores.congr (h : net.Stores i shelf x c) (hobservers : net'.observers = net.observers)
    (hcaches : net'.caches = net.caches) : net'.Stores i shelf x c where
  observer := by rw [hobservers, h.observer]
  cache := by rw [hcaches, h.cache]
  sole := by
    intro j hj
    rw [shelfOf?, hobservers] at hj
    exact h.sole j hj
  saves := h.saves

theorem get?_observers_settleOne_of_ne (net : Network) {i j : Nat} (h : j ≠ i) :
    (net.settleOne j).observers.get? i = net.observers.get? i := by
  rw [Network.settleOne]
  split
  · rfl
  · split
    · rfl
    · exact Registry.get?_modify_of_ne _ h _

theorem get?_caches_settleOne_of_ne (net : Network) {shelf j : Nat}
    (h : net.shelfOf? j ≠ some shelf) :
    (net.settleOne j).caches.get? shelf = net.caches.get? shelf := by
  rw [Network.settleOne]
  split
  · rfl
  · next o ho =>
    split
    · rfl
    · next handle c hcache =>
      have hhandle : o.cache = some handle := by
        obtain ⟨handle', ho', hget⟩ := Option.bind_eq_some_iff.1 hcache
        obtain ⟨_, _, hpair⟩ := Option.map_eq_some_iff.1 hget
        rw [ho', (Prod.mk.inj hpair).1]
      rw [shelfOf?, ho, Option.bind_some, hhandle] at h
      exact Registry.get?_modify_of_ne _ (fun heq => h (congrArg some heq)) _

/-- A turn of the indexer performs its next write; the turns of others leave it
and its cache alone. -/
theorem Stores.settleOne (h : net.Stores i shelf x c) (j : Nat) :
    ∃ x' c', (net.settleOne j).Stores i shelf x' c' ∧
      x'.queue = if j = i then x.queue.tail else x.queue := by
  have hsole : ∀ k, (net.settleOne j).shelfOf? k = some shelf → k = i := by
    intro k hk
    rw [shelfOf?_settleOne] at hk
    exact h.sole k hk
  by_cases hj : j = i
  · subst hj
    have hcache : net.cacheOf? ⟨x, some shelf⟩ = some (shelf, c) := by
      rw [cacheOf?, Option.bind_some, h.cache, Option.map_some]
    obtain ⟨hsaves, hqueue⟩ := h.saves.settle
    refine ⟨(x.settle c).1, (x.settle c).2.1, ⟨?_, ?_, hsole, hsaves⟩, by rw [if_pos rfl, hqueue]⟩
    · simp only [Network.settleOne, h.observer, hcache]
      exact (Registry.get?_modify_self ..).trans (by rw [h.observer]; rfl)
    · simp only [Network.settleOne, h.observer, hcache]
      exact (Registry.get?_modify_self ..).trans (by rw [h.cache]; rfl)
  · refine ⟨x, c, ⟨?_, ?_, hsole, h.saves⟩, by rw [if_neg hj]⟩
    · rw [get?_observers_settleOne_of_ne net hj, h.observer]
    · rw [get?_caches_settleOne_of_ne net fun hshelf => hj (h.sole j hshelf), h.cache]

theorem Stores.turns (turns : List Turn) (h : net.Stores i shelf x c) :
    ∃ x' c', (turns.foldl (fun net t => net.settleOne t.indexer) net).Stores i shelf x' c' ∧
      x'.queue = x.queue.drop ((turns.map Turn.indexer).count i) := by
  induction turns generalizing net x c with
  | nil => exact ⟨x, c, h, rfl⟩
  | cons t turns ih =>
      obtain ⟨x₁, c₁, h₁, hqueue₁⟩ := h.settleOne t.indexer
      obtain ⟨x₂, c₂, h₂, hqueue₂⟩ := ih h₁
      refine ⟨x₂, c₂, h₂, ?_⟩
      rw [hqueue₂, hqueue₁, List.map_cons, List.count_cons]
      by_cases ht : t.indexer = i
      · simp [ht, Nat.add_comm]
      · simp [ht]

/-- An indexer with queued writes waits for them to be settled. -/
def Waits (net : Network) (i : Nat) (x : Indexer) : Prop :=
  x.queue ≠ [] → i ∈ net.unsettled

theorem length_spansFrom (c : Cache) (queue : List PendingWrite) :
    ∀ chain : Option Raised, (Indexer.spansFrom c chain queue).length = queue.length := by
  induction queue with
  | nil => intro chain; cases chain <;> rfl
  | cons w rest ih =>
      intro chain
      rw [List.length_cons]
      cases chain with
      | some r => exact congrArg Nat.succ (ih r.escaped?)
      | none =>
          rw [Indexer.spansFrom]
          cases c.refusal? .set w.epoch with
          | none => exact congrArg Nat.succ (ih none)
          | some r => exact congrArg Nat.succ (ih r.escaped?)

/-- Settling empties the queue, since there are as many turns as writes. -/
theorem Stores.settle (h : net.Stores i shelf x c) (hwaits : net.Waits i x) :
    ∃ x' c', net.settle.Stores i shelf x' c' ∧ x'.queue = [] := by
  have hstart : Stores { net with unsettled := [] } i shelf x c := h.congr rfl rfl
  obtain ⟨x', c', h', hqueue⟩ := hstart.turns net.schedule
  refine ⟨x', c', h', ?_⟩
  have hspans : (net.spansOf i).length = x.queue.length := by
    have hcache : net.cacheOf? ⟨x, some shelf⟩ = some (shelf, c) := by
      rw [cacheOf?, Option.bind_some, h.cache, Option.map_some]
    simp only [spansOf, h.observer, hcache]
    exact length_spansFrom ..
  rw [hqueue, count_schedule, hspans]
  by_cases hunsettled : i ∈ net.unsettled
  · rw [if_pos hunsettled, List.drop_length]
  · rw [if_neg hunsettled, not_imp_comm.1 hwaits hunsettled]
    rfl

/-- An indexer that ingests an event queues the write that the event asks for. -/
theorem Stores.ingest (h : net.Stores i shelf x c) (hwaits : net.Waits i x) (j : Nat) (e : Event) :
    ∃ x', (net.ingest j e).Stores i shelf x' c ∧ (net.ingest j e).Waits i x' := by
  have hsole : ∀ k, (net.ingest j e).shelfOf? k = some shelf → k = i := by
    intro k hk
    rw [shelfOf?_ingest] at hk
    exact h.sole k hk
  cases ho : net.observers.get? j with
  | none =>
      have hsame : net.ingest j e = net := by rw [Network.ingest, ho]
      rw [hsame]
      exact ⟨x, h, hwaits⟩
  | some o =>
      have hcaches : (net.ingest j e).caches = net.caches := by rw [Network.ingest, ho]; rfl
      have hobservers : (net.ingest j e).observers =
          net.observers.modify j fun o => { o with indexer := o.indexer.ingest e } := by
        rw [Network.ingest, ho]
        rfl
      have hunsettled : (net.ingest j e).unsettled =
          net.unsettled ++ (o.indexer.writeOf e).map fun _ => j := by
        rw [Network.ingest, ho]
        rfl
      by_cases hj : j = i
      · subst hj
        obtain rfl : ⟨x, some shelf⟩ = o := Option.some.inj (h.observer.symm.trans ho)
        refine ⟨x.ingest e, ⟨?_, by rw [hcaches, h.cache], hsole, h.saves.ingest e⟩, ?_⟩
        · rw [hobservers, Registry.get?_modify_self, ho, Option.map_some]
        · intro hqueue
          rw [hunsettled, List.mem_append]
          by_cases hwrite : x.writeOf e = []
          · rw [Indexer.ingest, hwrite, List.append_nil] at hqueue
            exact .inl (hwaits hqueue)
          · obtain ⟨w, hw⟩ := List.exists_mem_of_ne_nil _ hwrite
            exact .inr (List.mem_map.2 ⟨w, hw, rfl⟩)
      · refine ⟨x, ⟨?_, by rw [hcaches, h.cache], hsole, h.saves⟩, ?_⟩
        · rw [hobservers, Registry.get?_modify_of_ne _ hj, h.observer]
        · intro hqueue
          rw [hunsettled]
          exact List.mem_append_left _ (hwaits hqueue)

theorem Change.stores {added : List Happening} (hchange : Change net added net')
    (h : net.Stores i shelf x c) (hwaits : net.Waits i x) :
    ∃ x' c', net'.Stores i shelf x' c' ∧ net'.Waits i x' := by
  have hkept : ∀ {next : Network}, next.observers = net.observers → next.caches = net.caches →
      next.unsettled = net.unsettled → ∃ x' c', next.Stores i shelf x' c' ∧ next.Waits i x' := by
    intro next hobservers hcaches hunsettled
    refine ⟨x, c, h.congr hobservers hcaches, fun hqueue => ?_⟩
    rw [hunsettled]
    exact hwaits hqueue
  cases hchange with
  | committed _ _ => exact hkept rfl rfl rfl
  | refused _ _ => exact hkept rfl rfl rfl
  | wrote _ => exact hkept rfl rfl rfl
  | announced _ _ => exact hkept rfl rfl rfl
  | heard _ _ _ _ => exact hkept rfl rfl rfl
  | @ingested emission handle e j t lines _ =>
      have hnoted : Stores (net.note (.delivered emission handle e (.indexer j t))) i shelf x c :=
        h.congr rfl rfl
      obtain ⟨x', h', hwaits'⟩ := hnoted.ingest hwaits j e
      exact ⟨x', c, h', hwaits'⟩
  | kept _ => exact hkept (observers_keepLog ..) (caches_keepLog ..) (unsettled_keepLog ..)
  | planned _ _ => exact hkept rfl rfl rfl
  | brokenOff _ _ _ _ => exact hkept rfl rfl rfl
  | acted _ _ _ => exact hkept rfl rfl rfl
  | watched manager listener p =>
      exact hkept (observers_watch ..) (caches_watch ..) (unsettled_watch ..)
  | unwatched listener =>
      exact hkept (observers_unwatch ..) (caches_unwatch ..) (unsettled_unwatch ..)
  | settled _ =>
      obtain ⟨x', c', h', hqueue⟩ := h.settle hwaits
      exact ⟨x', c', h', fun hne => absurd hqueue hne⟩

/-- Whatever happens, the indexer stores its closed epochs. -/
theorem Path.stores {added : List Happening} (hpath : Path net added net')
    (h : net.Stores i shelf x c) (hwaits : net.Waits i x) :
    ∃ x' c', net'.Stores i shelf x' c' ∧ net'.Waits i x' := by
  induction hpath generalizing x c with
  | refl _ => exact ⟨x, c, h, hwaits⟩
  | next hchange _ ih =>
      obtain ⟨x₁, c₁, h₁, hwaits₁⟩ := hchange.stores h hwaits
      exact ih h₁ hwaits₁

theorem finalizedClaim_of_ok {o : Observer} {epoch claim : Argument}
    (hcache : o.cache = some shelf) (hshelf : net.caches.get? shelf = some c)
    (hclaim : o.indexer.finalizedClaim (some c) epoch = .ok claim) :
    net.finalizedClaim o epoch = .found (.claim claim) := by
  rw [finalizedClaim, hcache, Option.bind_some, hshelf, hclaim]

/-- An indexer follows a manager from the start, is the first to do so or behind
nobody at whom a delivery breaks off, and has a new cache to itself. When
everything is settled, it finds the claim that each closing returned under the
number of the closed epoch, and so does an indexer without events that is given
the same cache; under other numbers both find null. No write was refused. -/
theorem finalized_claims_persist (net : Network) (moves : List Move) {g i t shelf : Nat} {z : Int}
    (hfollows : net.Follows i g t)
    (hahead : (net.audience g).head? = some (.indexer i t) ∨
      UnbrokenAhead g (.indexer i t) (net.happened moves))
    (hobserver : net.observers.get? i =
      some ⟨Indexer.start (.number (Binary64.ofInt z)) true, some shelf⟩)
    (hcache : net.caches.get? shelf = some (Cache.empty []))
    (hsole : ∀ j, net.shelfOf? j = some shelf → j = i)
    (hnone : net.NotCalledBack g (net.happened moves)) {closings : List (Option Claim)}
    (hclosings : closings = (replies g (net.happened moves)).filterMap Reply.closed?)
    (hz : z.natAbs < Binary64.exactBound)
    (hn : (z + closings.length).natAbs < Binary64.exactBound) :
    ∃ o, (net.moveAll moves).1.settle.observers.get? i = some o ∧
      (∀ v epoch,
        (∀ (k : Nat) claim, closings[k]? = some claim →
          (Binary64.ofInt (z + k)).sameNumber v = true →
            (net.moveAll moves).1.settle.finalizedClaim o (.number v) =
                .found (.claim (.text (Claim.textOf claim))) ∧
              (net.moveAll moves).1.settle.finalizedClaim ⟨Indexer.start epoch true, some shelf⟩
                  (.number v) = .found (.claim (.text (Claim.textOf claim)))) ∧
        ((∀ k : Nat, k < closings.length → (Binary64.ofInt (z + k)).sameNumber v = false) →
            (net.moveAll moves).1.settle.finalizedClaim o (.number v) = .found (.claim .null) ∧
              (net.moveAll moves).1.settle.finalizedClaim ⟨Indexer.start epoch true, some shelf⟩
                  (.number v) = .found (.claim .null))) ∧
      ((net.moveAll moves).1.settle.flush i o).2 = .found .nothing := by
  have hstart : net.Stores i shelf (.start (.number (Binary64.ofInt z)) true) (Cache.empty []) :=
    ⟨hobserver, hcache, hsole, Indexer.saves_start _⟩
  obtain ⟨x, c, hstores, hwaits⟩ := (net.path_happened moves).stores hstart (absurd rfl)
  obtain ⟨x', c', hstores', hqueue⟩ := hstores.settle hwaits
  have hcount := (net.path_happened moves).count_of_follows hfollows
  have hunbroken := hahead.elim (fun hhead => unbrokenAhead_of_head? rfl hhead moves) id
  have hview := net.view?_happened hfollows moves
  rw [← view?_settle, view?, hstores'.observer, view?, hobserver,
    received_eq_of_notCalledBack hcount hunbroken hnone, events_eq] at hview
  have hfinalized : x'.view.finalized = closings.zipIdx.map fun closed =>
      ⟨Argument.next^[closed.2] (.number (.ofInt z)), .text (Claim.textOf closed.1)⟩ := by
    rw [hclosings, ← View.finalized_ingestAll]
    exact congrArg View.finalized (Option.some.inj hview)
  refine ⟨_, hstores'.observer, fun v epoch => ?_, ?_⟩
  · obtain ⟨hclosed, hother⟩ :=
      hstores'.saves.finalizedClaim_eq hqueue hfinalized hz hn v epoch
    constructor
    · intro k claim hk hv
      obtain ⟨hlive, hfresh⟩ := hclosed k claim hk hv
      exact ⟨finalizedClaim_of_ok rfl hstores'.cache hlive,
        finalizedClaim_of_ok rfl hstores'.cache hfresh⟩
    · intro hv
      obtain ⟨hlive, hfresh⟩ := hother hv
      exact ⟨finalizedClaim_of_ok rfl hstores'.cache hlive,
        finalizedClaim_of_ok rfl hstores'.cache hfresh⟩
  · rw [flush, Indexer.flush, hstores'.saves.rejection_eq, hstores'.saves.writeError_eq]

/-! The scribe of the two validators' manager keeps an archive. -/

def archived : Network :=
  ((duo.addCache "archive" []).addIndexer "scribe" .missing (some "archive")).attach "scribe"
    "court"

theorem follows_archived : archived.Follows 0 0 0 := by
  refine follows_attach (m := .duo) rfl rfl rfl ?_
  intro g t
  cases g with
  | zero => exact List.not_mem_nil
  | succ g => exact List.not_mem_nil

theorem observer_archived : archived.observers.get? 0 =
    some ⟨Indexer.start (.number (Binary64.ofInt 0)) true, some 0⟩ := rfl

theorem cache_archived : archived.caches.get? 0 = some (Cache.empty []) := rfl

theorem sole_archived : ∀ j, archived.shelfOf? j = some 0 → j = 0 := by
  intro j hj
  cases j with
  | zero => rfl
  | succ j => contradiction

/-- The quarrel, after which the orchestrator closes the epoch. -/
def closedQuarrel : List Move :=
  Move.quarrel ++ [.act (.call "court" .closing)]

/-- Once the epoch of the quarrel is closed, both the scribe and a successor who
has nothing but the archive know its claim, and the successor knows of no other. -/
theorem finalized_claims_persist_quarrel :
    ∃ o, (archived.moveAll closedQuarrel).1.settle.finalizedClaim o (.number (.ofInt 0)) =
        .found (.claim (.text Claim.twos.text)) ∧
      (archived.moveAll closedQuarrel).1.settle.finalizedClaim
        ⟨Indexer.start .missing true, some 0⟩ (.number (.ofInt 0)) =
          .found (.claim (.text Claim.twos.text)) ∧
      (archived.moveAll closedQuarrel).1.settle.finalizedClaim
        ⟨Indexer.start .missing true, some 0⟩ (.number (.ofInt 1)) = .found (.claim .null) := by
  have hnone : callbacks (archived.happened closedQuarrel) = [] := by decide +kernel
  have hclosings :
      [some .twos] = (replies 0 (archived.happened closedQuarrel)).filterMap Reply.closed? := by
    decide +kernel
  have hzero : (Binary64.ofInt (0 + (0 : Nat))).sameNumber (.ofInt 0) = true :=
    Binary64.sameNumber_ofInt (by decide) (by decide)
  have hone : (Binary64.ofInt (0 + (0 : Nat))).sameNumber (.ofInt 1) = false :=
    Binary64.sameNumber_ofInt (by decide) (by decide)
  obtain ⟨o, -, hread, -⟩ := finalized_claims_persist archived closedQuarrel follows_archived
    (.inl rfl) observer_archived cache_archived sole_archived
    (fun name manager h => absurd (hnone ▸ h) List.not_mem_nil) hclosings
    (by decide) (by decide)
  obtain ⟨hlive, hfresh⟩ := (hread (.ofInt 0) .missing).1 0 (some .twos) rfl hzero
  have hother : ∀ k : Nat, k < [some Claim.twos].length →
      (Binary64.ofInt (0 + k)).sameNumber (.ofInt 1) = false := by
    intro k hk
    obtain rfl : k = 0 := Nat.lt_one_iff.1 hk
    exact hone
  exact ⟨o, hlive, hfresh, ((hread (.ofInt 1) .missing).2 hother).2⟩

end Network

end EpochClaims
