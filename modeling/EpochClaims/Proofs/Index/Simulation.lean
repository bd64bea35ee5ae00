import EpochClaims.Proofs.Network.Subscription

/-!
# An indexer simulates its manager

An indexer that follows a manager from the start sees outcomes only, never the
masks. Still its view is determined by the manager after every row of moves, as
long as no call from within a delivery is committed by the manager
(`view_mirrors_manager`). What listeners raise makes no difference to an indexer
that comes first; one that has listeners in front of it must not lose an event to
them.
-/

namespace EpochClaims

open Happening

namespace Network

/-- The view of an indexer that follows a manager from the start, and is the first
to do so or behind nobody at whom a delivery breaks off. The conflicts
are the outcomes that were returned since an epoch was closed, and the closed
epochs are those whose closing was returned. The phase tells whether there is a
claim, whether it is short of a consensus in spite of no conflict, and whether
the agreement is the goal; and a claim of a consensus is the current one, with
the agreement at the goal. -/
theorem view_mirrors_manager (net : Network) (moves : List Move) {g i t : Nat} {m : Manager}
    {setup : Setup} {epoch : Argument} (hsetup : Manager.ofSetup setup = .ok m)
    (hm : net.manager? g = some m) (hfollows : net.Follows i g t)
    (hview : net.view? i = some (.start epoch))
    (hahead : (net.audience g).head? = some (.indexer i t) ∨
      UnbrokenAhead g (.indexer i t) (net.happened moves))
    (hcalls : ∀ made ∈ calls g (net.happened moves), made.1.IsMarked)
    (hnone : net.NotCalledBack g (net.happened moves)) :
    ∃ m' v, (net.moveAll moves).1.manager? g = some m' ∧
      (net.moveAll moves).1.view? i = some v ∧
      v.conflicts = (sinceClosed (replies g (net.happened moves))).filterMap Reply.conflict? ∧
      v.finalized = ((replies g (net.happened moves)).filterMap Reply.closed?).zipIdx.map
        (fun closed => ⟨Argument.next^[closed.2] epoch, .text (Claim.textOf closed.1)⟩) ∧
      (v.phase = .awaitingFirstClaim ↔ m'.state.claim = none) ∧
      (v.phase = .awaitingConsensusNoConflict ↔ m'.state.claim ≠ none ∧
        (sinceClosed (replies g (net.happened moves))).filterMap Reply.conflict? = [] ∧
          m'.state.agreement ≠ m'.state.goal) ∧
      (v.phase = .consensusReached → m'.state.agreement = m'.state.goal) ∧
      (v.consensusClaim ≠ .null → v.consensusClaim = .text (Claim.textOf m'.state.claim) ∧
        m'.state.agreement = m'.state.goal) := by
  obtain ⟨addresses, hadmissible, rfl⟩ := Manager.exists_admissible_of_ofSetup hsetup
  have hcount := (net.path_happened moves).count_of_follows hfollows
  obtain ⟨m', hm', hreplays⟩ := (net.path_happened moves).replays hm
  have hunbroken := hahead.elim (fun hhead => unbrokenAhead_of_head? rfl hhead moves) id
  have hview' := net.view?_happened hfollows moves
  rw [hview, Option.map_some, received_eq_of_notCalledBack hcount hunbroken hnone, events_eq]
    at hview'
  have hmarked : ∀ c ∈ (calls g (net.happened moves)).map Prod.fst, c.IsMarked := by
    intro c hc
    obtain ⟨made, hmade, rfl⟩ := List.mem_map.1 hc
    exact hcalls made hmade
  have hmirrors := Manager.mirrors_run (Manager.sound_start setup hadmissible) hmarked
    (View.mirrors_start epoch (SizedRoster.ofAddresses addresses).roster)
  rw [← hreplays.replied_eq, ← replies, ← hreplays.manager_eq] at hmirrors
  have hconflicts := View.conflicts_ingestAll epoch (replies g (net.happened moves))
  refine ⟨m', _, hm', hview', hconflicts, View.finalized_ingestAll .., hmirrors.awaiting_iff, ?_,
    hmirrors.agreed_of_reached, ?_⟩
  · rw [hmirrors.noConflict_iff, hconflicts]
  · intro hsome
    obtain ⟨x, hx, hagreed⟩ := hmirrors.consensus.resolve_left hsome
    rw [hx, hagreed.claim_eq]
    exact ⟨rfl, hagreed.agreement_eq⟩

/-- After the quarrel the scribe knows of its conflict and of the consensus on
the claim of the winner. -/
theorem view_mirrors_manager_quarrel :
    ∃ m v, (duo.withScribe.moveAll Move.quarrel).1.manager? 0 = some m ∧
      (duo.withScribe.moveAll Move.quarrel).1.view? 0 = some v ∧
      v.conflicts.length = 1 ∧ v.consensusClaim = .text (Claim.textOf m.state.claim) ∧
        m.state.agreement = m.state.goal := by
  have hnone : callbacks (duo.withScribe.happened Move.quarrel) = [] := by decide +kernel
  have hconflicts : ((sinceClosed (replies 0 (duo.withScribe.happened Move.quarrel))).filterMap
      Reply.conflict?).length = 1 := by
    decide +kernel
  have hknown : ((duo.withScribe.moveAll Move.quarrel).1.view? 0).map View.consensusClaim =
      some (.text Claim.twos.text) := by
    decide +kernel
  obtain ⟨m, v, hm, hv, hlist, -, -, -, -, hconsensus⟩ := view_mirrors_manager duo.withScribe
    Move.quarrel Manager.ofSetup_duo (g := 0) rfl follows_withScribe_duo view?_withScribe_duo
    (.inl rfl) (by decide +kernel) (fun name manager h => absurd (hnone ▸ h) List.not_mem_nil)
  have hsome : v.consensusClaim ≠ .null := by
    rw [hv] at hknown
    rw [Option.some.inj hknown]
    nofun
  exact ⟨m, v, hm, hv, hlist ▸ hconflicts, hconsensus hsome⟩

end Network

end EpochClaims
