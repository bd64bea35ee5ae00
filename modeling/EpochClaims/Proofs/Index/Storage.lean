import EpochClaims.Index.Indexer
import EpochClaims.Proofs.Cache.FlatMap
import EpochClaims.Proofs.Index.Mirror

/-!
# What an indexer stores

An indexer puts the claim of every closed epoch into its cache, one queued write
after another. `Indexer.Saves` says where it stands with this: the writes that
were performed and those still queued are, in this order, those of the closed
epochs of its view. Ingesting an event and performing a write keep it. Once the
queue is empty, memory and cache hold the same claims, and whoever reads the
cache alone finds what the indexer finds in its memory.
-/

namespace EpochClaims

namespace Binary64

/-- Two numbers that are the same as a third are the same. -/
theorem sameNumber_of_sameNumber {x y v : Binary64} (hx : x.sameNumber v = true)
    (hy : y.sameNumber v = true) : x.sameNumber y = true := by
  cases v with
  | nan => rw [sameNumber_nan_right] at hx; contradiction
  | infinity s =>
      cases x <;> cases y <;> simp_all [sameNumber]
  | finite s k =>
      cases x <;> cases y <;> simp_all [sameNumber]

theorem ofInt_ne_nan {z : Int} (hz : z.natAbs ≤ exactBound) : ofInt z ≠ nan := by
  rw [ofInt_eq_finite hz]
  exact nofun

end Binary64

/-- The write that puts the claim of a closed epoch into the cache. -/
def FinalizedEpoch.write (f : FinalizedEpoch) : PendingWrite :=
  ⟨f.epoch, f.claim⟩

/-- What a cache is asked to keep, and where. -/
structure Entry where
  epoch : Argument
  name : Argument
  document : Document
  deriving DecidableEq, Repr

/-- The entry that a write makes. -/
def PendingWrite.entry (w : PendingWrite) : Entry :=
  ⟨w.epoch, .text Indexer.finalizedClaimName, w.document⟩

/-- The entry of a closed epoch. -/
def FinalizedEpoch.entry (f : FinalizedEpoch) : Entry :=
  f.write.entry

/-- Whether an entry is found under an epoch and a name. -/
def Entry.LiesUnder (e : Entry) (epoch name : Argument) : Prop :=
  epoch.sameKey e.epoch = true ∧ name.sameKey e.name = true

theorem FinalizedEpoch.liesUnder_entry_iff {f : FinalizedEpoch} {epoch : Argument} :
    f.entry.LiesUnder epoch (.text Indexer.finalizedClaimName) ↔ epoch.sameKey f.epoch = true :=
  and_iff_left (by simp [entry, PendingWrite.entry])

namespace Shelves

variable {s : Shelves} {entries : List Entry} {epoch name : Argument}

/-- Keeps an entry. -/
def put (s : Shelves) (e : Entry) : Shelves :=
  s.set e.epoch e.name e.document

/-- Keeps entries one after another. -/
def putAll (s : Shelves) (entries : List Entry) : Shelves :=
  entries.foldl put s

theorem putAll_concat (s : Shelves) (entries : List Entry) (e : Entry) :
    s.putAll (entries ++ [e]) = (s.putAll entries).put e :=
  List.foldl_append ..

theorem get_put_of_liesUnder {e : Entry} (h : e.LiesUnder epoch name) :
    (s.put e).get epoch name = present? e.document :=
  (get_set ..).trans (if_pos h)

theorem get_put_of_not_liesUnder {e : Entry} (h : ¬ e.LiesUnder epoch name) :
    (s.put e).get epoch name = s.get epoch name :=
  (get_set ..).trans (if_neg h)

theorem get_putAll_of_not_written (h : ∀ e ∈ entries, ¬ e.LiesUnder epoch name) :
    (s.putAll entries).get epoch name = s.get epoch name := by
  induction entries using List.reverseRecOn with
  | nil => rfl
  | append_singleton entries e ih =>
      rw [putAll_concat,
        get_put_of_not_liesUnder (h e (List.mem_append_right entries List.mem_cons_self))]
      exact ih fun f hf => h f (List.mem_append_left [e] hf)

/-- What is written in a place reads back if all that is written there agrees. -/
theorem get_putAll_of_written {d : Document} {e : Entry} (he : e ∈ entries)
    (hplace : e.LiesUnder epoch name)
    (hall : ∀ f ∈ entries, f.LiesUnder epoch name → f.document = d) :
    (s.putAll entries).get epoch name = present? d := by
  induction entries using List.reverseRecOn with
  | nil => contradiction
  | append_singleton entries f ih =>
      rw [putAll_concat]
      by_cases hf : f.LiesUnder epoch name
      · rw [get_put_of_liesUnder hf, hall f (List.mem_append_right entries List.mem_cons_self) hf]
      · rw [get_put_of_not_liesUnder hf]
        have hbefore : e ∈ entries := by
          rcases List.mem_append.1 he with hmem | hmem
          · exact hmem
          · exact absurd (List.mem_singleton.1 hmem ▸ hplace) hf
        exact ih hbefore fun x hx => hall x (List.mem_append_left [f] hx)

end Shelves

/-- A cached claim reads as its text, also where there was no claim. -/
theorem Indexer.claimOfDocument_textOf (claim : Option Claim) :
    claimOfDocument (some (.text (Claim.textOf claim))) = .text (Claim.textOf claim) := by
  have hread : (Hex.read? (Claim.textOf claim).toList).isSome = true := by
    cases claim with
    | none =>
        rw [Claim.textOf, Claim.noneText, String.toList_ofList, Hex.read?_write]
        rfl
    | some x =>
        rw [Claim.textOf, Claim.text, String.toList_ofList, Claim.chars, Hex.read?_write]
        rfl
  rw [claimOfDocument, if_pos hread]

namespace Indexer

variable {x : Indexer} {c : Cache}

/-- A cache without faults, empty at first, holds the claims of the closed epochs
of an indexer but for those whose writes are queued, and no write was refused. -/
structure Saves (x : Indexer) (c : Cache) : Prop where
  cached : x.cached = true
  faults_eq : c.faults = []
  writeError_eq : x.writeError = none
  rejection_eq : x.rejection = none
  content_eq : ∃ done, done ++ x.queue = x.view.finalized.map FinalizedEpoch.write ∧
    c.content = Shelves.empty.putAll (done.map PendingWrite.entry)

theorem saves_start (epoch : Argument) : (start epoch true).Saves (Cache.empty []) where
  cached := rfl
  faults_eq := rfl
  writeError_eq := rfl
  rejection_eq := rfl
  content_eq := ⟨[], rfl, rfl⟩

/-- An event that closes an epoch queues the write of this epoch; no other event
queues anything. -/
theorem writeOf_eq (hx : x.cached = true) (e : Event) :
    x.view.finalized.map FinalizedEpoch.write ++ x.writeOf e =
      (x.view.ingest e).finalized.map FinalizedEpoch.write := by
  cases e with
  | claimReceived o => exact (List.append_nil _).trans (by rw [View.ingest, View.finalized_hear])
  | disputeEnded o => exact (List.append_nil _).trans (by rw [View.ingest, View.finalized_hear])
  | newEpoch claim =>
      rw [writeOf, if_pos hx, View.ingest, View.close, List.map_append]
      rfl
  | other name => exact List.append_nil _

theorem Saves.ingest (h : x.Saves c) (e : Event) : (x.ingest e).Saves c where
  cached := h.cached
  faults_eq := h.faults_eq
  writeError_eq := h.writeError_eq
  rejection_eq := h.rejection_eq
  content_eq := by
    obtain ⟨done, hqueue, hcontent⟩ := h.content_eq
    refine ⟨done, ?_, hcontent⟩
    rw [Indexer.ingest, ← List.append_assoc, hqueue, writeOf_eq h.cached]

/-- A write that is performed moves from the queue into the cache. -/
theorem Saves.settle (h : x.Saves c) :
    (x.settle c).1.Saves (x.settle c).2.1 ∧ (x.settle c).1.queue = x.queue.tail := by
  rw [Indexer.settle]
  split
  · next hqueue => exact ⟨h, by rw [hqueue]; rfl⟩
  · next w rest hqueue =>
    simp only [h.rejection_eq, Cache.set_of_faults_eq_nil h.faults_eq]
    obtain ⟨done, hdone, hcontent⟩ := h.content_eq
    refine ⟨⟨h.cached, h.faults_eq, h.writeError_eq, rfl, done ++ [w], ?_, ?_⟩,
      by rw [hqueue]; rfl⟩
    · rw [hqueue] at hdone
      rw [List.append_assoc, List.singleton_append, hdone]
    · rw [List.map_append, List.map_singleton, Shelves.putAll_concat, ← hcontent]
      rfl

/-! What is read back once the queue is empty: memory and cache tell the same. -/

theorem Saves.content_eq_putAll (h : x.Saves c) (hqueue : x.queue = []) :
    c.content = Shelves.empty.putAll (x.view.finalized.map FinalizedEpoch.entry) := by
  obtain ⟨done, hdone, hcontent⟩ := h.content_eq
  rw [hqueue, List.append_nil] at hdone
  rw [hcontent, hdone, List.map_map]
  rfl

/-- An indexer without events reads from its cache. -/
theorem finalizedClaim_start (hc : c.faults = []) (first epoch : Argument) :
    (start first true).finalizedClaim (some c) epoch =
      .ok (claimOfDocument (c.content.get epoch (.text finalizedClaimName))) := by
  have hread : (start first true).finalizedClaim (some c) epoch =
      (c.get epoch (.text finalizedClaimName)).map claimOfDocument := rfl
  rw [hread, Cache.get_of_faults_eq_nil hc]
  rfl

/-- An epoch that memory does not know is looked up in the cache. -/
theorem finalizedClaim_of_unknown {epoch : Argument}
    (h : ∀ f ∈ x.view.finalized, ¬ f.epoch.same epoch = true) (first : Argument) :
    x.finalizedClaim (some c) epoch = (start first true).finalizedClaim (some c) epoch := by
  rw [finalizedClaim, View.finalizedClaim?, List.find?_eq_none.2 h]
  rfl

theorem finalizedClaim_of_known {epoch claim : Argument} {f : FinalizedEpoch}
    (hf : f ∈ x.view.finalized) (hepoch : f.epoch.same epoch = true)
    (hall : ∀ g ∈ x.view.finalized, g.epoch.same epoch = true → g.claim = claim) :
    x.finalizedClaim (some c) epoch = .ok claim := by
  cases hfind : x.view.finalized.find? fun g => g.epoch.same epoch with
  | none => exact absurd hepoch (List.find?_eq_none.1 hfind f hf)
  | some g =>
      have hsame := List.find?_some (p := fun g : FinalizedEpoch => g.epoch.same epoch) hfind
      have hclaim := hall g (List.mem_of_find?_eq_some hfind) hsame
      rw [finalizedClaim, View.finalizedClaim?, hfind, Option.map_some, hclaim]

/-- An epoch that memory knows is in the cache as well, if keys of the cache are
told apart as epochs are. -/
theorem Saves.finalizedClaim_of_known (h : x.Saves c) (hqueue : x.queue = []) {epoch : Argument}
    (hkeys : ∀ f ∈ x.view.finalized, epoch.sameKey f.epoch = f.epoch.same epoch)
    {f : FinalizedEpoch} (hf : f ∈ x.view.finalized) (hepoch : f.epoch.same epoch = true)
    {claim : Option Claim} (hall : ∀ g ∈ x.view.finalized, g.epoch.same epoch = true →
      g.claim = .text (Claim.textOf claim)) (first : Argument) :
    x.finalizedClaim (some c) epoch = .ok (.text (Claim.textOf claim)) ∧
      (start first true).finalizedClaim (some c) epoch = .ok (.text (Claim.textOf claim)) := by
  have hwritten : ∀ e ∈ x.view.finalized.map FinalizedEpoch.entry,
      e.LiesUnder epoch (.text finalizedClaimName) → e.document = .text (Claim.textOf claim) := by
    intro e he hplace
    obtain ⟨g, hg, rfl⟩ := List.mem_map.1 he
    rw [FinalizedEpoch.liesUnder_entry_iff, hkeys g hg] at hplace
    rw [FinalizedEpoch.entry, PendingWrite.entry, PendingWrite.document, FinalizedEpoch.write,
      hall g hg hplace]
    rfl
  have hread : Shelves.get (Shelves.empty.putAll (x.view.finalized.map FinalizedEpoch.entry))
      epoch (.text finalizedClaimName) = some (.text (Claim.textOf claim)) :=
    Shelves.get_putAll_of_written (List.mem_map_of_mem hf)
      (FinalizedEpoch.liesUnder_entry_iff.2 ((hkeys f hf).trans hepoch)) hwritten
  refine ⟨Indexer.finalizedClaim_of_known hf hepoch hall, ?_⟩
  rw [finalizedClaim_start h.faults_eq, h.content_eq_putAll hqueue, hread, claimOfDocument_textOf]

/-- An epoch that memory does not know is not in the cache either. -/
theorem Saves.finalizedClaim_of_unknown (h : x.Saves c) (hqueue : x.queue = [])
    {epoch : Argument}
    (hkeys : ∀ f ∈ x.view.finalized, epoch.sameKey f.epoch = f.epoch.same epoch)
    (hunknown : ∀ f ∈ x.view.finalized, ¬ f.epoch.same epoch = true) (first : Argument) :
    x.finalizedClaim (some c) epoch = .ok .null ∧
      (start first true).finalizedClaim (some c) epoch = .ok .null := by
  have hnone : Shelves.get (Shelves.empty.putAll (x.view.finalized.map FinalizedEpoch.entry))
      epoch (.text finalizedClaimName) = none := by
    refine (Shelves.get_putAll_of_not_written fun e he => ?_).trans (Shelves.get_empty ..)
    obtain ⟨f, hf, rfl⟩ := List.mem_map.1 he
    rw [FinalizedEpoch.liesUnder_entry_iff, hkeys f hf]
    exact hunknown f hf
  rw [Indexer.finalizedClaim_of_unknown hunknown first, finalizedClaim_start h.faults_eq,
    h.content_eq_putAll hqueue, hnone]
  exact ⟨rfl, rfl⟩

variable {z : Int} {closings : List (Option Claim)}

/-- The closed epochs of a view that started at an integer are the integers from
there on. -/
theorem mem_closed_iff (hz : z.natAbs < Binary64.exactBound)
    (hn : (z + closings.length).natAbs < Binary64.exactBound) {f : FinalizedEpoch} :
    f ∈ closings.zipIdx.map (fun closed =>
        (⟨Argument.next^[closed.2] (.number (.ofInt z)), .text (Claim.textOf closed.1)⟩ :
          FinalizedEpoch)) ↔
      ∃ k claim, closings[k]? = some claim ∧
        f = ⟨.number (.ofInt (z + (k : Nat))), .text (Claim.textOf claim)⟩ := by
  have hnext : ∀ k claim, closings[k]? = some claim →
      Argument.next^[k] (.number (.ofInt z)) = .number (.ofInt (z + (k : Nat))) := by
    intro k claim hk
    have hlt := (List.getElem?_eq_some_iff.1 hk).1
    exact View.next_iterate_ofInt_of_lt z k fun j hj => by omega
  rw [List.mem_map]
  constructor
  · rintro ⟨⟨claim, k⟩, hmem, rfl⟩
    have hk := List.mem_zipIdx_iff_getElem?.1 hmem
    exact ⟨k, claim, hk, by rw [hnext k claim hk]⟩
  · rintro ⟨k, claim, hk, rfl⟩
    exact ⟨(claim, k), List.mem_zipIdx_iff_getElem?.2 hk, by rw [hnext k claim hk]⟩

/-- Once the queue is empty, the indexer and any indexer that is started with its
cache find the claim of every closed epoch, and null for every other number. -/
theorem Saves.finalizedClaim_eq (h : x.Saves c) (hqueue : x.queue = [])
    (hview : x.view.finalized = closings.zipIdx.map fun closed =>
      ⟨Argument.next^[closed.2] (.number (.ofInt z)), .text (Claim.textOf closed.1)⟩)
    (hz : z.natAbs < Binary64.exactBound)
    (hn : (z + closings.length).natAbs < Binary64.exactBound) (v : Binary64) (first : Argument) :
    (∀ (k : Nat) claim, closings[k]? = some claim →
        (Binary64.ofInt (z + k)).sameNumber v = true →
          x.finalizedClaim (some c) (.number v) = .ok (.text (Claim.textOf claim)) ∧
            (start first true).finalizedClaim (some c) (.number v) =
              .ok (.text (Claim.textOf claim))) ∧
      ((∀ k : Nat, k < closings.length → (Binary64.ofInt (z + k)).sameNumber v = false) →
        x.finalizedClaim (some c) (.number v) = .ok .null ∧
          (start first true).finalizedClaim (some c) (.number v) = .ok .null) := by
  have hmem : ∀ f, f ∈ x.view.finalized ↔ ∃ k claim, closings[k]? = some claim ∧
      f = ⟨.number (.ofInt (z + (k : Nat))), .text (Claim.textOf claim)⟩ := by
    intro f
    rw [hview, mem_closed_iff hz hn]
  have hbound : ∀ (k : Nat) claim, closings[k]? = some claim →
      (z + k).natAbs ≤ Binary64.exactBound := by
    intro k claim hk
    have hlt := (List.getElem?_eq_some_iff.1 hk).1
    omega
  -- A key of the cache is written for the epochs that are the same number.
  have hkeys : ∀ f ∈ x.view.finalized,
      (Argument.number v).sameKey f.epoch = f.epoch.same (.number v) := by
    intro f hf
    obtain ⟨k, claim, hk, rfl⟩ := (hmem f).1 hf
    rw [Argument.sameKey_number, Argument.same_number,
      Binary64.sameKey_eq_sameNumber (Binary64.ofInt_ne_nan (hbound k claim hk))]
  constructor
  · intro k claim hk hv
    refine h.finalizedClaim_of_known hqueue hkeys ((hmem _).2 ⟨k, claim, hk, rfl⟩) hv ?_ first
    -- The claims of two epochs that are the same number were closed at one place.
    intro g hg hgv
    obtain ⟨j, other, hj, rfl⟩ := (hmem g).1 hg
    have hkj := Binary64.sameNumber_of_sameNumber hv hgv
    rw [Binary64.sameNumber_ofInt (hbound k claim hk) (hbound j other hj),
      decide_eq_true_iff] at hkj
    have hjk : j = k := by omega
    rw [hjk, hk] at hj
    rw [Option.some.inj hj]
  · intro hother
    refine h.finalizedClaim_of_unknown hqueue hkeys (fun f hf => ?_) first
    obtain ⟨k, claim, hk, rfl⟩ := (hmem f).1 hf
    rw [Argument.same_number, hother k (List.getElem?_eq_some_iff.1 hk).1]
    exact Bool.false_ne_true

end Indexer

end EpochClaims
