import EpochClaims.Manager.Basic
import EpochClaims.Proofs.Config.RoundTrip
import EpochClaims.Proofs.Roster.Lookup
import Mathlib.Data.List.Nodup

/-!
# What a created roster holds

A roster is made of addresses that differ from each other and from the zero
address, one slot for each in the order in which they were given. Since a
configuration hands its addresses on in their checksummed spelling, which reads
back, `Manager.ofConfig_eq_ok_iff` tells exactly which configurations make a
manager and which manager that is.
-/

namespace EpochClaims

namespace SizedRoster

/-- Addresses as a configuration hands them on. -/
def texts (addresses : List Address) : List Argument :=
  addresses.map fun a => .text a.text

theorem accept_text_eq_ok_iff {before : List Address} {a b : Address} :
    accept before (.text a.text) = .ok b ↔ b = a ∧ a ≠ Address.zero ∧ a ∉ before := by
  have hread : Address.ofText? (Argument.text a.text).spelled.toList = some a := by
    rw [Argument.spelled_text, Address.ofText?_text]
  rw [accept, hread]
  by_cases hzero : a = Address.zero
  · simp [hzero]
  · by_cases hmem : a ∈ before
    · simp [hzero, hmem]
    · simp [hzero, hmem, eq_comm]

/-- Entries are accepted behind others if they differ from these, from each
other and from the zero address. -/
theorem acceptAll_texts_eq_ok_iff {before addresses accepted : List Address}
    (hbefore : before.Nodup) :
    acceptAll before (texts addresses) = .ok accepted ↔
      accepted = before ++ addresses ∧ Address.zero ∉ addresses ∧
        (before ++ addresses).Nodup := by
  induction addresses generalizing before with
  | nil => simp [texts, acceptAll, hbefore, eq_comm]
  | cons a addresses ih =>
      have hcons : texts (a :: addresses) = .text a.text :: texts addresses := rfl
      rw [hcons, acceptAll]
      cases haccept : accept before (.text a.text) with
      | error f =>
          have hno : ¬ (a ≠ Address.zero ∧ a ∉ before) := by
            intro h
            have hok := accept_text_eq_ok_iff.2 ⟨rfl, h⟩
            rw [haccept] at hok
            contradiction
          simp only [reduceCtorEq, false_iff]
          rintro ⟨-, hzero, hnodup⟩
          refine hno ⟨fun h => hzero (h ▸ List.mem_cons_self), fun h => ?_⟩
          exact (List.nodup_append.1 hnodup).2.2 a h a List.mem_cons_self rfl
      | ok b =>
          obtain ⟨rfl, hzero, hmem⟩ := accept_text_eq_ok_iff.1 haccept
          have hnodup : (before ++ [b]).Nodup := by
            rw [List.nodup_append]
            refine ⟨hbefore, by simp, ?_⟩
            rintro c hc d hd rfl
            exact hmem (List.mem_singleton.1 hd ▸ hc)
          have hzero' : Address.zero ∉ b :: addresses ↔ Address.zero ∉ addresses := by
            rw [List.mem_cons, not_or]
            exact and_iff_right (Ne.symm hzero)
          simp only
          rw [ih hnodup, hzero', List.append_assoc, List.singleton_append]

/-- A list of addresses makes a roster if it has one to `maxSlots` members,
which differ from each other and from the zero address. -/
structure Admissible (addresses : List Address) : Prop where
  length_pos : 0 < addresses.length
  length_le : addresses.length ≤ maxSlots
  zero_notMem : Address.zero ∉ addresses
  nodup : addresses.Nodup

theorem create_texts_eq_ok_iff {addresses : List Address} {r : SizedRoster} :
    create (texts addresses) = .ok r ↔
      Admissible addresses ∧ r = ofAddresses addresses := by
  have hlength : (texts addresses).length = addresses.length := List.length_map ..
  cases addresses with
  | nil =>
      constructor
      · intro h
        contradiction
      · rintro ⟨⟨hpos, -⟩, -⟩
        exact absurd hpos (Nat.lt_irrefl 0)
  | cons a addresses =>
      rw [create, if_neg (by simp [texts]), hlength]
      by_cases hmany : maxSlots < (a :: addresses).length
      · rw [if_pos hmany]
        simp only [reduceCtorEq, false_iff]
        rintro ⟨hadmissible, -⟩
        exact absurd hadmissible.length_le (Nat.not_le_of_lt hmany)
      · rw [if_neg hmany]
        have hall := @acceptAll_texts_eq_ok_iff [] (a :: addresses)
        simp only [List.nodup_nil, List.nil_append, forall_const] at hall
        constructor
        · intro h
          cases hread : acceptAll [] (texts (a :: addresses)) with
          | error f =>
              rw [hread] at h
              contradiction
          | ok accepted =>
              rw [hread] at h
              obtain ⟨rfl, hzero, hnodup⟩ := hall.1 hread
              refine ⟨⟨Nat.succ_pos _, Nat.le_of_not_lt hmany, hzero, hnodup⟩, ?_⟩
              exact (Except.ok.inj h).symm
        · rintro ⟨hadmissible, rfl⟩
          rw [hall.2 ⟨rfl, hadmissible.zero_notMem, hadmissible.nodup⟩]
          rfl

/-- Whatever the entries are, those that are accepted differ from each other and
from the zero address. -/
theorem acceptAll_eq_ok {before accepted : List Address} {given : List Argument}
    (h : acceptAll before given = .ok accepted) (hnodup : before.Nodup)
    (hzero : Address.zero ∉ before) :
    accepted.length = before.length + given.length ∧ accepted.Nodup ∧
      Address.zero ∉ accepted := by
  induction given generalizing before with
  | nil =>
      obtain rfl := Except.ok.inj h
      exact ⟨rfl, hnodup, hzero⟩
  | cons entry given ih =>
      rw [acceptAll, accept] at h
      cases hread : Address.ofText? entry.spelled.toList with
      | none => simp [hread] at h
      | some a =>
          by_cases ha : a = Address.zero
          · simp [hread, ha] at h
          by_cases hmem : a ∈ before
          · simp [hread, ha, hmem] at h
          simp only [hread, if_neg ha, if_neg hmem] at h
          have hboth : (before ++ [a]).Nodup := by
            rw [← List.concat_eq_append, List.nodup_concat]
            exact ⟨hmem, hnodup⟩
          obtain ⟨hlength, hrest⟩ := ih h hboth (by simp [hzero, Ne.symm ha])
          refine ⟨?_, hrest⟩
          rw [hlength, List.length_append, List.length_singleton, List.length_cons]
          omega

theorem exists_admissible_of_create {given : List Argument} {r : SizedRoster}
    (h : create given = .ok r) : ∃ addresses, Admissible addresses ∧ r = ofAddresses addresses := by
  rw [create] at h
  cases given with
  | nil => simp at h
  | cons entry given =>
      rw [if_neg (by simp)] at h
      by_cases hmany : maxSlots < (entry :: given).length
      · rw [if_pos hmany] at h
        contradiction
      · rw [if_neg hmany] at h
        cases haccept : acceptAll [] (entry :: given) with
        | error f => simp [haccept, Except.map] at h
        | ok accepted =>
            obtain ⟨hlength, hnodup, hzero⟩ :=
              acceptAll_eq_ok haccept List.nodup_nil List.not_mem_nil
            rw [List.length_nil, Nat.zero_add] at hlength
            rw [haccept] at h
            refine ⟨accepted, ⟨?_, ?_, hzero, hnodup⟩, (Except.ok.inj h).symm⟩
            · rw [hlength]
              exact Nat.succ_pos _
            · rw [hlength]
              exact Nat.le_of_not_lt hmany

/-- Whatever a roster is made from, it holds admissible addresses. -/
theorem exists_admissible_of_read {given : Argument} {r : SizedRoster} (h : read given = .ok r) :
    ∃ addresses, Admissible addresses ∧ r = ofAddresses addresses := by
  unfold read at h
  split at h
  · exact exists_admissible_of_create h
  · split at h
    · contradiction
    · exact exists_admissible_of_create h
  · contradiction

theorem read_setup (c : Config) : read c.setup.validators = create (texts c.validators) := by
  simp [read, Config.setup, texts, List.map_map, Function.comp_def]

/-- Each slot of a created roster holds the address that was given for it. -/
theorem slot_ofAddresses (addresses : List Address) (i : Fin (ofAddresses addresses).capacity) :
    (ofAddresses addresses).roster.slot i = some (addresses.get i) := by
  rw [Roster.slot_eq_getElem]
  simp only [ofAddresses, Vector.getElem_mk, List.getElem_toArray, List.getElem_map]
  rfl

theorem distinct_ofAddresses {addresses : List Address} (h : addresses.Nodup) :
    (ofAddresses addresses).roster.Distinct := by
  intro i j a hi hj
  rw [slot_ofAddresses] at hi hj
  exact List.nodup_iff_injective_get.1 h (Option.some.inj (hi.trans hj.symm))

end SizedRoster

namespace Manager

theorem exists_admissible_of_ofSetup {setup : Setup} {m : Manager} (h : ofSetup setup = .ok m) :
    ∃ addresses, SizedRoster.Admissible addresses ∧
      m = start setup (SizedRoster.ofAddresses addresses) := by
  rw [ofSetup] at h
  cases hread : SizedRoster.read setup.validators with
  | error f => simp [hread] at h
  | ok r =>
      obtain ⟨addresses, hadmissible, rfl⟩ := SizedRoster.exists_admissible_of_read hread
      rw [hread] at h
      exact ⟨addresses, hadmissible, (Except.ok.inj h).symm⟩

/-- The manager of a configuration, if its validators are admissible. -/
def ofRoster (c : Config) : Manager :=
  start c.setup (SizedRoster.ofAddresses c.validators)

theorem ofConfig_eq_ok_iff {c : Config} {m : Manager} :
    ofConfig c = .ok m ↔ SizedRoster.Admissible c.validators ∧ m = ofRoster c := by
  rw [ofConfig, ofSetup, SizedRoster.read_setup]
  cases hcreate : SizedRoster.create (SizedRoster.texts c.validators) with
  | error f =>
      simp only [reduceCtorEq, false_iff]
      rintro ⟨hadmissible, -⟩
      rw [SizedRoster.create_texts_eq_ok_iff.2 ⟨hadmissible, rfl⟩] at hcreate
      contradiction
  | ok r =>
      obtain ⟨hadmissible, rfl⟩ := SizedRoster.create_texts_eq_ok_iff.1 hcreate
      simp [hadmissible, ofRoster, eq_comm]

/-- A setup makes a manager if it has the validators of a configuration and they
are admissible. -/
theorem ofSetup_of_admissible {c : Config} (h : SizedRoster.Admissible c.validators)
    {setup : Setup} (hvalidators : setup.validators = c.setup.validators) :
    ofSetup setup = .ok (start setup (SizedRoster.ofAddresses c.validators)) := by
  rw [ofSetup, hvalidators, SizedRoster.read_setup, SizedRoster.create_texts_eq_ok_iff.2 ⟨h, rfl⟩]

/-- A manager read from a document is the one of an admissible configuration. -/
theorem ofDocument_eq_ok_iff {d : Option Document} {m : Manager} :
    ofDocument d = .ok m ↔ ∃ c, Config.read d = .ok c ∧
      SizedRoster.Admissible c.validators ∧ m = ofRoster c := by
  rw [ofDocument]
  cases hread : Config.read d with
  | error issues => simp
  | ok c => simp [ofConfig_eq_ok_iff]

theorem ofDocument_toDocument {c : Config} (h : SizedRoster.Admissible c.validators) :
    ofDocument (some c.toDocument) = .ok (ofRoster c) :=
  ofDocument_eq_ok_iff.2 ⟨c, Config.read_toDocument h.length_pos h.length_le, h, rfl⟩

end Manager

/-- The address that repeats one digit. -/
def Address.ofDigit (d : Hex.Digit) : Address :=
  ⟨List.replicate 40 d, List.length_replicate⟩

/-- Two validators under an orchestrator who is none of them. -/
def Config.duo : Config :=
  ⟨.ofDigit 9, [.ofDigit 1, .ofDigit 2], .skip⟩

theorem SizedRoster.admissible_duo : Admissible Config.duo.validators where
  length_pos := by decide
  length_le := by decide
  zero_notMem := by decide
  nodup := by decide

end EpochClaims
