import EpochClaims.Proofs.Network.Change

/-!
# Who listens all along

Acts subscribe and unsubscribe listeners only. So indexers and recorders keep
their places in every audience while acts are performed, and an indexer that
follows one manager (`Follows`) is in every audience to which this manager
announces an event, and in no other (`Path.count_of_follows`,
`Path.eq_of_follows`). If it is the first to follow, it comes first in all of them
(`Path.head?_audience`).
-/

namespace EpochClaims

/-- Whether a subscriber is no listener, so that no act moves it. -/
def Subscriber.isFixed : Subscriber → Bool
  | listener _ => false
  | indexer _ _ => true
  | recorder _ => true

namespace Network

def fixedAudience (net : Network) (g : Nat) : List Subscriber :=
  (net.audience g).filter Subscriber.isFixed

theorem fixedAudience_commit (net : Network) (handle : Nat) (m : Manager) (g : Nat) :
    (net.commit handle m).fixedAudience g = net.fixedAudience g := by
  rw [fixedAudience, audience_commit, fixedAudience]

/-- A listener that subscribes moves nobody else. -/
theorem fixedAudience_subscribe (net : Network) (handle : Nat) (listener : String) (g : Nat) :
    (net.subscribe handle (.listener listener)).fixedAudience g = net.fixedAudience g := by
  cases hp : net.publishers.get? handle with
  | none =>
      have hsame : (net.subscribe handle (.listener listener)).publishers = net.publishers := by
        rw [subscribe, Registry.modify, List.modify_eq_self (List.getElem?_eq_none_iff.1 hp)]
      rw [fixedAudience, audience_congr hsame, fixedAudience]
  | some p =>
      rw [fixedAudience, audience_subscribe hp, fixedAudience]
      split
      · next hnew => simp [hnew.1, Subscriber.isFixed]
      · rfl

theorem fixedAudience_unsubscribe (net : Network) (handle : Nat) (listener : String) (g : Nat) :
    (net.unsubscribe handle (.listener listener)).fixedAudience g = net.fixedAudience g := by
  rw [fixedAudience, audience_unsubscribe, fixedAudience]
  split
  · next hg =>
    rw [hg, List.filter_filter]
    refine List.filter_congr fun s _ => ?_
    cases s <;> simp [Subscriber.isFixed]
  · rfl

theorem fixedAudience_watch (net : Network) (manager listener : String) (p : Plan) (g : Nat) :
    (net.watch manager listener p).fixedAudience g = net.fixedAudience g := by
  rw [watch]
  split
  · rfl
  · next handle _ => exact fixedAudience_subscribe _ handle listener g

theorem fixedAudience_unwatch (net : Network) (listener : String) (g : Nat) :
    (net.unwatch listener).fixedAudience g = net.fixedAudience g := by
  rw [unwatch]
  split
  · rfl
  · exact fixedAudience_unsubscribe ..

theorem fixedAudience_congr {net net' : Network} (h : net'.publishers = net.publishers)
    (g : Nat) : net'.fixedAudience g = net.fixedAudience g := by
  rw [fixedAudience, audience_congr h, fixedAudience]

theorem head?_subscribe {net : Network} {g : Nat} {s : Subscriber}
    (hhead : (net.audience g).head? = some s) (handle : Nat) (x : Subscriber) :
    ((net.subscribe handle x).audience g).head? = some s := by
  cases hp : net.publishers.get? handle with
  | none =>
      have hsame : (net.subscribe handle x).publishers = net.publishers := by
        rw [subscribe, Registry.modify, List.modify_eq_self (List.getElem?_eq_none_iff.1 hp)]
      rw [audience_congr hsame, hhead]
  | some p =>
      rw [audience_subscribe hp]
      split
      · next hnew => rw [← hnew.1, List.head?_append, hhead, Option.some_or]
      · exact hhead

theorem head?_unsubscribe {net : Network} {g : Nat} {s : Subscriber}
    (hhead : (net.audience g).head? = some s) (handle : Nat) {x : Subscriber} (hx : s ≠ x) :
    ((net.unsubscribe handle x).audience g).head? = some s := by
  obtain ⟨behind, hcons⟩ := List.head?_eq_some_iff.1 hhead
  rw [audience_unsubscribe]
  split
  · next hg => rw [← hg, hcons, List.filter_cons_of_pos (by simpa using hx), List.head?_cons]
  · exact hhead

theorem Change.fixedAudience_eq {net net' : Network} {added : List Happening}
    (h : Change net added net') (g : Nat) : net'.fixedAudience g = net.fixedAudience g := by
  cases h with
  | committed _ _ => exact fixedAudience_commit ..
  | refused _ _ => rfl
  | wrote _ => rfl
  | announced _ _ => rfl
  | heard _ _ _ _ => rfl
  | ingested _ => exact fixedAudience_congr (by rw [publishers_ingest]; rfl) g
  | kept _ => exact fixedAudience_congr (by rw [publishers_keepLog]; rfl) g
  | planned _ _ => rfl
  | brokenOff _ _ _ _ => rfl
  | acted _ _ _ => rfl
  | watched manager listener p => exact fixedAudience_watch net manager listener p g
  | unwatched listener => exact fixedAudience_unwatch net listener g
  | settled _ => exact fixedAudience_congr (publishers_settle net) g

/-- An event is announced to the audience of a network on the way. -/
theorem Path.exists_audience {net net' : Network} {added : List Happening}
    (h : Path net added net') {n g : Nat} {e : Event} {audience : List Subscriber}
    (hannounced : .announced n g e audience ∈ added) :
    ∃ before mid, Path net before mid ∧ audience = mid.audience g := by
  induction h with
  | refl _ => contradiction
  | @next net _ _ _ _ hchange _ ih =>
      rcases List.mem_append.1 hannounced with hfirst | hrest
      · cases hchange with
        | announced handle e' =>
            obtain ⟨-, rfl, -, rfl⟩ := Happening.announced.inj (List.mem_singleton.1 hfirst)
            exact ⟨[], net, .refl net, rfl⟩
        | _ => simp at hfirst
      · obtain ⟨before, mid, hbefore, haudience⟩ := ih hrest
        exact ⟨_, mid, .next hchange hbefore, haudience⟩

/-- Every audience to which an event is announced has the indexers and the
recorders that the manager has at the start. -/
theorem Path.fixedAudience_eq {net net' : Network} {added : List Happening}
    (h : Path net added net') {n g : Nat} {e : Event} {audience : List Subscriber}
    (hannounced : .announced n g e audience ∈ added) :
    audience.filter Subscriber.isFixed = net.fixedAudience g := by
  obtain ⟨before, mid, hbefore, rfl⟩ := h.exists_audience hannounced
  clear h hannounced
  induction hbefore with
  | refl _ => rfl
  | next hchange _ ih => rw [ih, hchange.fixedAudience_eq]

/-- Nobody gets in front of whoever comes first and is no listener. -/
theorem Change.head?_audience {net net' : Network} {added : List Happening}
    (h : Change net added net') {g : Nat} {s : Subscriber} (hs : s.isFixed = true)
    (hhead : (net.audience g).head? = some s) : (net'.audience g).head? = some s := by
  have hsame : net'.publishers = net.publishers → (net'.audience g).head? = some s :=
    fun hpublishers => by rw [audience_congr hpublishers, hhead]
  cases h with
  | @committed handle _ m' c r _ _ => exact (congrArg List.head? (audience_commit ..)).trans hhead
  | refused _ _ => exact hhead
  | wrote _ => exact hhead
  | announced _ _ => exact hhead
  | heard _ _ _ _ => exact hhead
  | ingested _ => exact hsame (by rw [publishers_ingest]; rfl)
  | kept _ => exact hsame (by rw [publishers_keepLog]; rfl)
  | planned _ _ => exact hhead
  | brokenOff _ _ _ _ => exact hhead
  | acted _ _ _ => exact hhead
  | watched manager listener p =>
      rw [watch]
      split
      · exact hhead
      · next handle _ => exact head?_subscribe hhead handle (.listener listener)
  | unwatched listener =>
      rw [unwatch]
      split
      · exact hhead
      · exact head?_unsubscribe hhead _ (by rintro rfl; contradiction)
  | settled _ => exact hsame (publishers_settle net)

/-- Every audience to which an event is announced begins with whoever comes first
at the start and is no listener. -/
theorem Path.head?_audience {net net' : Network} {added : List Happening}
    (h : Path net added net') {g : Nat} {s : Subscriber} (hs : s.isFixed = true)
    (hhead : (net.audience g).head? = some s) {n : Nat} {e : Event} {audience : List Subscriber}
    (hannounced : .announced n g e audience ∈ added) : audience.head? = some s := by
  obtain ⟨before, mid, hbefore, rfl⟩ := h.exists_audience hannounced
  clear h hannounced
  induction hbefore with
  | refl _ => exact hhead
  | next hchange _ ih => exact ih (hchange.head?_audience hs hhead)

/-- An indexer receives the events of one manager, once each, and of no other. -/
structure Follows (net : Network) (i g t : Nat) : Prop where
  once : (net.audience g).count (.indexer i t) = 1
  only : ∀ g' t', .indexer i t' ∈ net.audience g' → g' = g ∧ t' = t

/-- An indexer that is attached for the first time follows its manager. -/
theorem follows_attach {net : Network} {indexer manager : String} {i g : Nat}
    (hi : net.observers.handle? indexer = some i) (hg : net.publishers.handle? manager = some g)
    {m : Manager} (hm : net.manager? g = some m)
    (hnew : ∀ g' t', .indexer i t' ∉ net.audience g') :
    (net.attach indexer manager).Follows i g net.tickets := by
  have haudience : ∀ g', (net.attach indexer manager).audience g' =
      if g = g' then net.audience g' ++ [.indexer i net.tickets] else net.audience g' := by
    intro g'
    obtain ⟨p, hp, -⟩ := Option.map_eq_some_iff.1 hm
    have hpnew : .indexer i net.tickets ∉ net.audience g := hnew g net.tickets
    simp only [attach, hi, hg]
    refine (audience_subscribe hp (.indexer i net.tickets) g').trans ?_
    by_cases h : g = g'
    · rw [if_pos ⟨h.symm, hpnew⟩, if_pos h, ← h]
    · rw [if_neg fun hfound => h hfound.1.symm, if_neg h]
  constructor
  · rw [haudience, if_pos rfl, List.count_append, List.count_eq_zero_of_not_mem (hnew g _)]
    simp
  · intro g' t' hmem
    rw [haudience] at hmem
    by_cases h : g = g'
    · rw [if_pos h, List.mem_append] at hmem
      rcases hmem with hold | hlast
      · exact absurd hold (hnew g' t')
      · obtain ⟨-, rfl⟩ := Subscriber.indexer.inj (List.mem_singleton.1 hlast)
        exact ⟨h.symm, rfl⟩
    · rw [if_neg h] at hmem
      exact absurd hmem (hnew g' t')

variable {net net' : Network} {added : List Happening} {i g t : Nat}

theorem Follows.count_of_fixed (h : net.Follows i g t) {audience : List Subscriber}
    (hfixed : audience.filter Subscriber.isFixed = net.fixedAudience g) :
    audience.count (.indexer i t) = 1 := by
  have hone : Subscriber.isFixed (.indexer i t) = true := rfl
  rw [← List.count_filter hone, hfixed, fixedAudience, List.count_filter hone, h.once]

theorem Path.count_of_follows (h : Path net added net') (hfollows : net.Follows i g t) :
    ∀ audience ∈ Happening.audiences g added, audience.count (.indexer i t) = 1 := by
  intro audience hmem
  obtain ⟨n, e, hannounced⟩ := Happening.mem_audiences_iff.1 hmem
  exact hfollows.count_of_fixed (h.fixedAudience_eq hannounced)

theorem Path.eq_of_follows (h : Path net added net') (hfollows : net.Follows i g t)
    {n g' t' : Nat} {e : Event} {audience : List Subscriber}
    (hannounced : .announced n g' e audience ∈ added) (hmem : .indexer i t' ∈ audience) :
    g' = g ∧ t' = t := by
  have hfixed : Subscriber.indexer i t' ∈ audience.filter Subscriber.isFixed :=
    List.mem_filter.2 ⟨hmem, rfl⟩
  rw [h.fixedAudience_eq hannounced] at hfixed
  exact hfollows.only g' t' (List.mem_filter.1 hfixed).1

end Network

end EpochClaims
