import EpochClaims.Proofs.EventLog.Batch
import EpochClaims.Proofs.Network.Subscription

/-!
# Replaying the logs of a manager

If the claims that are handed in have 64 digits, so have all claims that a
manager announces: those of its replies are such claims or stand for nobody. So
each event that an indexer receives has a log, whatever listeners do meanwhile,
and the logs read back as these events, also among logs of other origins. A view
that ingests what was read is the one of the indexer (`replay_rebuilds_view`).
-/

namespace EpochClaims

open Happening

/-- A 32-byte value: the marker and 64 digits in any case. -/
def Argument.IsWord (v : Argument) : Prop :=
  ∃ ds, v.chars?.bind Hex.read? = some ds ∧ ds.length = EventLog.wordLength

/-- The claim that a call hands in is a 32-byte value. -/
def Call.GivesWord : Call → Prop
  | submit s => s.claim.IsWord
  | dispute d => d.winningClaim.IsWord
  | advance _ => True

namespace Claim

def digitsOf : Option Claim → List Hex.Digit
  | none => noneDigits
  | some x => x.digits

theorem textOf_eq (x : Option Claim) : textOf x = EventLog.claimOfWord (digitsOf x) := by
  cases x <;> rfl

theorem length_of_isWord {v : Argument} {x : Claim} (hx : ofArgument v = .ok x)
    (hv : v.IsWord) : x.digits.length = EventLog.wordLength := by
  obtain ⟨ds, hread, hlength⟩ := hv
  have hsized : sized? v = some ⟨ds, .inr hlength⟩ := by
    rw [sized?, hread]
    exact dif_pos (.inr hlength)
  rw [ofArgument, hsized] at hx
  by_cases hne : ds ≠ noneDigits
  · simp only [dif_pos hne] at hx
    rw [← Except.ok.inj hx]
    exact hlength
  · simp only [dif_neg hne] at hx
    contradiction

end Claim

namespace Verdict

def IsFull : Verdict → Prop
  | noConflict => True
  | consensus x _ => x.digits.length = EventLog.wordLength
  | conflict current rival _ _ => (Claim.digitsOf current).length = EventLog.wordLength ∧
      rival.digits.length = EventLog.wordLength

theorem IsFull.exists_outcome {w : Verdict} (h : w.IsFull) :
    ∃ o : EventLog.FullOutcome, w.outcome = o.outcome := by
  have hnone : noneDigits.length = EventLog.wordLength := List.length_replicate
  cases w with
  | noConflict =>
      exact ⟨⟨.noConflict, (noneDigits, noneDigits), (.zero, .zero), hnone, hnone⟩, rfl⟩
  | consensus x a =>
      exact ⟨⟨.consensus, (x.digits, noneDigits), (a, .zero), h, hnone⟩, rfl⟩
  | conflict current rival endorser challenger =>
      refine ⟨⟨.conflict, (Claim.digitsOf current, rival.digits), (endorser, challenger),
        h.1, h.2⟩, ?_⟩
      rw [outcome, Claim.textOf_eq]
      rfl

theorem isFull_settle {n : Nat} {x : Claim} (h : x.digits.length = EventLog.wordLength)
    (a : Address) (agreement goal : Mask n) : (settle x a agreement goal).IsFull := by
  rw [settle]
  by_cases hmasks : agreement = goal
  · rw [if_pos hmasks]
    exact h
  · rw [if_neg hmasks]
    trivial

end Verdict

namespace Reply

theorem isFull_claimed {w : Verdict} (h : w.IsFull) : EventLog.IsFull (claimed w).event := by
  obtain ⟨o, ho⟩ := h.exists_outcome
  rw [event, ho]
  exact .claimReceived o

theorem isFull_judged {w : Verdict} (h : w.IsFull) : EventLog.IsFull (judged w).event := by
  obtain ⟨o, ho⟩ := h.exists_outcome
  rw [event, ho]
  exact .disputeEnded o

theorem isFull_closed {claim : Option Claim}
    (h : (Claim.digitsOf claim).length = EventLog.wordLength) :
    EventLog.IsFull (closed claim).event := by
  rw [event, Claim.textOf_eq]
  exact .newEpoch h

end Reply

namespace Manager

variable {m : Manager}

/-- A call that hands in a 32-byte claim keeps the current one such a value and
announces such values only. -/
theorem Committed.isFull {c : Call} {s : State m.capacity} {r : Reply} (h : Committed m c s r)
    (hm : (Claim.digitsOf m.state.claim).length = EventLog.wordLength) (hc : c.GivesWord) :
    (Claim.digitsOf s.claim).length = EventLog.wordLength ∧ EventLog.IsFull r.event := by
  have hheard : ∀ {s : Submission} {h : Heard m.capacity}, m.hear s = .ok h → s.claim.IsWord →
      h.claim.digits.length = EventLog.wordLength :=
    fun hear hword => Claim.length_of_isWord (hear_eq_ok_iff.1 hear).2.1 hword
  have hjudged : ∀ {d : Dispute} {j : Judged m.capacity}, m.judge d = .ok j →
      d.winningClaim.IsWord → j.claim.digits.length = EventLog.wordLength :=
    fun judge hword => Claim.length_of_isWord (judge_eq_ok_iff.1 judge).2.1 hword
  cases h with
  | endorsed hear _ =>
      have hclaim := hheard hear hc
      exact ⟨hclaim, Reply.isFull_claimed (Verdict.isFull_settle hclaim ..)⟩
  | contradicted hear _ _ => exact ⟨hm, Reply.isFull_claimed ⟨hm, hheard hear hc⟩⟩
  | @upheld _ j judge _ =>
      rw [claim_afterEviction]
      exact ⟨hm, Reply.isFull_judged (Verdict.isFull_settle (hjudged judge hc) ..)⟩
  | adopted judge _ _ =>
      have hclaim := hjudged judge hc
      exact ⟨hclaim, Reply.isFull_judged (Verdict.isFull_settle hclaim ..)⟩
  | contested judge _ _ _ =>
      rw [claim_afterEviction]
      exact ⟨hm, Reply.isFull_judged ⟨hm, hjudged judge hc⟩⟩
  | closed _ => exact ⟨List.length_replicate, Reply.isFull_closed hm⟩

theorem isFull_replied {calls : List Call}
    (hm : (Claim.digitsOf m.state.claim).length = EventLog.wordLength)
    (hcalls : ∀ c ∈ calls, c.GivesWord) :
    ∀ r ∈ m.replied calls, EventLog.IsFull r.event := by
  refine (run_induction
    (P := fun calls m' => (Claim.digitsOf m'.state.claim).length = EventLog.wordLength ∧
      ∀ r ∈ m.replied calls, EventLog.IsFull r.event) ⟨hm, nofun⟩ ?_ ?_ calls hcalls).2
  · intro calls c s r ih hc h
    obtain ⟨hclaim, hevent⟩ := h.isFull ih.1 hc
    rw [replied_of_committed h]
    refine ⟨hclaim, fun r' hr' => ?_⟩
    rcases List.mem_append.1 hr' with hbefore | hlast
    · exact ih.2 r' hbefore
    · rwa [List.mem_singleton.1 hlast]
  · intro calls c e ih _ h
    rw [replied_of_refused h]
    exact ih

end Manager

namespace EventLog

/-- Logs among logs of other origins. -/
inductive Mixed : List EventLog → List EventLog → Prop
  | nil : Mixed [] []
  | kept (log : EventLog) {logs mixed : List EventLog} (hmixed : Mixed logs mixed) :
      Mixed (log :: logs) (log :: mixed)
  | foreign {log : EventLog} {logs mixed : List EventLog} (hforeign : log.IsForeign)
      (hmixed : Mixed logs mixed) : Mixed logs (log :: mixed)

theorem Mixed.refl : ∀ logs : List EventLog, Mixed logs logs
  | [] => .nil
  | log :: logs => .kept log (refl logs)

def LoggedAs (e : Event) (log : EventLog) : Prop :=
  encode e = .ok (some log)

theorem exists_logs {events : List Event} (h : ∀ e ∈ events, IsFull e) :
    ∃ logs, List.Forall₂ LoggedAs events logs ∧
      List.Forall₂ (fun e log => decode log = .ok e) events logs := by
  induction events with
  | nil => exact ⟨[], .nil, .nil⟩
  | cons e events ih =>
      obtain ⟨log, hencode, hdecode⟩ := exists_log (h e List.mem_cons_self)
      obtain ⟨logs, hlogged, hread⟩ := ih fun e' he' => h e' (List.mem_cons_of_mem e he')
      exact ⟨log :: logs, .cons hencode hlogged, .cons hdecode hread⟩

/-- Logs of other origins do not change what is read. -/
theorem decodeAll_of_mixed {logs mixed : List EventLog} (h : Mixed logs mixed) :
    ∀ {events : List Event}, List.Forall₂ (fun e log => decode log = .ok e) events logs →
      decodeAll mixed = .ok events := by
  induction h with
  | nil =>
      intro events hread
      cases hread
      rfl
  | kept log _ ih =>
      intro events hread
      cases hread with
      | cons hdecode hrest =>
          rw [decodeAll, hdecode]
          simp only [ih hrest]
          rfl
  | foreign hforeign _ ih =>
      intro events hread
      obtain ⟨selector, hdecode⟩ := decode_of_isForeign hforeign
      rw [decodeAll, hdecode]
      exact ih hread

end EventLog

namespace Network

/-- Every event that an indexer receives from a manager it follows from the start
has a log. Whatever logs of other origins stand among these, reading them back
gives the received events, in number, order and content, and an indexer that
starts at the same epoch and ingests them has the same view. -/
theorem replay_rebuilds_view (net : Network) (moves : List Move) {g i t : Nat} {m : Manager}
    {setup : Setup} {epoch : Argument} (hsetup : Manager.ofSetup setup = .ok m)
    (hm : net.manager? g = some m) (hfollows : net.Follows i g t)
    (hview : net.view? i = some (.start epoch))
    (hcalls : ∀ made ∈ calls g (net.happened moves), made.1.GivesWord) :
    ∃ logs v, (net.moveAll moves).1.view? i = some v ∧
      List.Forall₂ EventLog.LoggedAs (received g (.indexer i t) (net.happened moves)) logs ∧
      ∀ mixed, EventLog.Mixed logs mixed → ∃ events, EventLog.decodeAll mixed = .ok events ∧
        events = received g (.indexer i t) (net.happened moves) ∧
        ∀ cached, (events.foldl Indexer.ingest (.start epoch cached)).view = v := by
  obtain ⟨addresses, -, rfl⟩ := Manager.exists_admissible_of_ofSetup hsetup
  obtain ⟨m', -, hreplays⟩ := (net.path_happened moves).replays hm
  have hview' := net.view?_happened hfollows moves
  rw [hview, Option.map_some] at hview'
  have hwords : ∀ c ∈ (calls g (net.happened moves)).map Prod.fst, c.GivesWord := by
    intro c hc
    obtain ⟨made, hmade, rfl⟩ := List.mem_map.1 hc
    exact hcalls made hmade
  have hstart : (Claim.digitsOf (Manager.start setup
      (SizedRoster.ofAddresses addresses)).state.claim).length = EventLog.wordLength :=
    List.length_replicate
  have hfull : ∀ e ∈ received g (.indexer i t) (net.happened moves), EventLog.IsFull e := by
    intro e he
    have hevent := received_subset moves g (.indexer i t) he
    rw [events_eq, replies, hreplays.replied_eq] at hevent
    obtain ⟨r, hr, rfl⟩ := List.mem_map.1 hevent
    exact Manager.isFull_replied hstart hwords r hr
  obtain ⟨logs, hlogged, hread⟩ := EventLog.exists_logs hfull
  refine ⟨logs, _, hview', hlogged, fun mixed hmixed => ?_⟩
  exact ⟨_, EventLog.decodeAll_of_mixed hmixed hread, rfl,
    fun cached => Indexer.view_foldl_ingest ..⟩

end Network

theorem Claim.isWord_text {x : Claim} (h : x.digits.length = EventLog.wordLength) :
    (Argument.text x.text).IsWord :=
  ⟨x.digits, by rw [Argument.chars?_text, text, String.toList_ofList, chars]; simp, h⟩

theorem Call.givesWord_quarrel : ∀ c ∈ quarrel, c.GivesWord := by
  intro c hc
  simp only [quarrel, List.mem_cons, List.not_mem_nil, or_false] at hc
  rcases hc with rfl | rfl | rfl
  · exact Claim.isWord_text List.length_replicate
  · exact Claim.isWord_text List.length_replicate
  · exact Claim.isWord_text List.length_replicate

namespace Network

/-- The three logs of the quarrel read back behind a stray one. -/
theorem replay_rebuilds_view_quarrel :
    ∃ logs v, (duo.withScribe.moveAll Move.quarrel).1.view? 0 = some v ∧ logs.length = 3 ∧
      ∃ events, EventLog.decodeAll (EventLog.stray :: logs) = .ok events ∧
        ((View.start (.number (Binary64.ofInt 0))).ingestAll events) = v := by
  have hmade : (calls 0 (duo.withScribe.happened Move.quarrel)).map Prod.fst = Call.quarrel := by
    decide +kernel
  have hreceived :
      (received 0 (.indexer 0 0) (duo.withScribe.happened Move.quarrel)).length = 3 := by
    decide +kernel
  obtain ⟨logs, v, hv, hlogged, hreplay⟩ := replay_rebuilds_view duo.withScribe Move.quarrel
    Manager.ofSetup_duo (g := 0) rfl follows_withScribe_duo view?_withScribe_duo
    (fun made hmem => Call.givesWord_quarrel made.1 (hmade ▸ List.mem_map_of_mem hmem))
  obtain ⟨events, hevents, -, hsame⟩ := hreplay (EventLog.stray :: logs)
    (.foreign EventLog.isForeign_stray (.refl logs))
  refine ⟨logs, v, hv, hlogged.length_eq ▸ hreceived, events, hevents, ?_⟩
  rw [← hsame false, Indexer.view_foldl_ingest]
  rfl

end Network

end EpochClaims
