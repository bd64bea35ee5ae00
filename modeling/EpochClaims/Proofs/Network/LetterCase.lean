import EpochClaims.Proofs.Manager.LetterCase
import EpochClaims.Proofs.Network.Blur
import EpochClaims.Proofs.Network.Flattening

/-!
# Letter case is irrelevant

`Blur.letterCase` takes the case of hexadecimal letters out of a network: out of
the calls from outside and out of those in the plans of listeners. The manager
of a configuration, the runs from it and what listeners of it receive depend on
what is left alone (`letter_case_is_irrelevant`).
-/

namespace EpochClaims

open Happening

/-- Calls and refusals are seen up to the case of hexadecimal letters, and the
journal is not seen. -/
def Blur.letterCase : Blur where
  call := Call.lowered
  refusal := Refusal.lowered
  keeps := fun _ => false
  perform_eq := by
    intro m c c' h
    rw [← m.perform_lowered, ← m.perform_lowered, h]
  lines_eq := by
    intro m c c' _
    simp
  keeps_failureLine := fun _ _ => rfl

theorem Network.blurred_addManager {b : Blur} {net net' : Network}
    (h : net.blurred b = net'.blurred b) (name : String) (m : Manager) :
    (net.addManager name m).blurred b = (net'.addManager name m).blurred b :=
  congrArg (fun net : Network => net.addManager name m) h

/-- Refusals that are the same up to letter case are of the same sort. -/
theorem mapError_sort_lowered {α : Type} (x : Except Refusal α) :
    (x.mapError Refusal.lowered).mapError Refusal.sort = x.mapError Refusal.sort := by
  cases x with
  | ok _ => rfl
  | error e => exact congrArg Except.error e.sort_lowered

namespace Manager

variable {m : Manager} {calls calls' : List Call}

/-- At every point of the two runs the managers are equal. -/
theorem run_take_of_lowered_eq (h : calls.map Call.lowered = calls'.map Call.lowered) (k : Nat) :
    m.run (calls.take k) = m.run (calls'.take k) := by
  rw [← m.run_lowered (calls.take k), ← m.run_lowered (calls'.take k), List.map_take,
    List.map_take, h]

theorem sorts_lowered (m : Manager) (calls : List Call) :
    (m.replies (calls.map Call.lowered)).map (Except.mapError Refusal.sort) =
      (m.replies calls).map (Except.mapError Refusal.sort) := by
  rw [replies_lowered, List.map_map]
  exact List.map_congr_left fun x _ => mapError_sort_lowered x

/-- The two runs return the same replies, and refusals of the same sort. -/
theorem sorts_of_lowered_eq (h : calls.map Call.lowered = calls'.map Call.lowered) :
    (m.replies calls).map (Except.mapError Refusal.sort) =
      (m.replies calls').map (Except.mapError Refusal.sort) := by
  rw [← m.sorts_lowered calls, ← m.sorts_lowered calls', h]

end Manager

/-- Two configurations that are the same up to the case of their hexadecimal
letters, and two rows of calls that are so, are treated alike. The managers are
equal at first and after each call. Each call returns the same reply in both
runs, whose event has its addresses checksummed and its claims in lower case,
or is refused with the same class of error, code and role. And in networks that
differ in letter case alone, in the plans of listeners as in what is done from
outside, every subscriber receives the same events of every manager. -/
theorem letter_case_is_irrelevant {d d' : Document}
    (hd : Config.lowered d = Config.lowered d') {m : Manager}
    (hm : Manager.ofDocument (some d) = .ok m) :
    Manager.ofDocument (some d') = .ok m ∧
      (∀ calls calls' : List Call, calls.map Call.lowered = calls'.map Call.lowered →
        (∀ k, m.run (calls.take k) = m.run (calls'.take k)) ∧
          (m.replies calls).map (Except.mapError Refusal.sort) =
            (m.replies calls').map (Except.mapError Refusal.sort) ∧
          ∀ r, .ok r ∈ m.replies calls → r.event.canonical = r.event) ∧
      ∀ net net' : Network, net.blurred .letterCase = net'.blurred .letterCase →
        ∀ (name : String) (moves moves' : List Move),
          moves.map (Move.blurred .letterCase) = moves'.map (Move.blurred .letterCase) →
            ((net.addManager name m).moveAll moves).1.blurred .letterCase =
                ((net'.addManager name m).moveAll moves').1.blurred .letterCase ∧
              ((net.addManager name m).moveAll moves).2.map (ActAnswer.blurred .letterCase) =
                ((net'.addManager name m).moveAll moves').2.map (ActAnswer.blurred .letterCase) ∧
              ∀ g s, received g s ((net.addManager name m).happened moves) =
                received g s ((net'.addManager name m).happened moves') := by
  refine ⟨?_, fun calls calls' hcalls => ?_, fun net net' hnet name moves moves' hmoves => ?_⟩
  · rw [← Manager.ofDocument_lowered, ← hd, Manager.ofDocument_lowered, hm]
  · exact ⟨Manager.run_take_of_lowered_eq hcalls, Manager.sorts_of_lowered_eq hcalls,
      fun r _ => r.canonical_event⟩
  · have hadded := Network.blurred_addManager hnet name m
    obtain ⟨hafter, hanswers⟩ := Network.moveAll_of_blurred_eq moves moves' _ _ hmoves hadded
    exact ⟨hafter, hanswers, fun g s => Network.received_of_blurred_eq hmoves hadded g s⟩

/-! A court with letters in its addresses and claims, in upper and in lower case. -/

/-- Two validators under an orchestrator who is none of them. -/
def Config.lettered : Config :=
  ⟨.ofDigit 10, [.ofDigit 11, .ofDigit 12], .skip⟩

theorem SizedRoster.admissible_lettered : Admissible Config.lettered.validators where
  length_pos := by decide
  length_le := by decide
  zero_notMem := by decide
  nodup := by decide

/-- Hexadecimal text in upper case that repeats one digit. -/
def Hex.repeated (count : Nat) (d : Digit) : String :=
  String.ofList ('0' :: 'x' :: List.replicate count d.upper)

/-- The validators bring different claims, the second one wins the dispute, and
the first one tries to close the epoch. -/
def Call.lettered : List Call :=
  [.submit ⟨.text (Hex.repeated 40 10), Hex.repeated 40 11, .text (Hex.repeated 64 13)⟩,
    .submit ⟨.text (Hex.repeated 40 10), Hex.repeated 40 12, .text (Hex.repeated 64 14)⟩,
    .dispute ⟨.text (Hex.repeated 40 10), Hex.repeated 40 12, Hex.repeated 40 11,
      .text (Hex.repeated 64 14)⟩,
    .advance (.text (Hex.repeated 40 11))]

/-- Calls of the court, and a clerk who repeats them all at the first event. -/
def Move.echoed (calls : List Call) : List Move :=
  .act (.watch "court" "clerk" (.times 1 (calls.map (.call "court")) none (.always none))) ::
    calls.map fun c => .act (.call "court" c)

theorem Act.allBlurred_map_call (b : Blur) (name : String) (calls : List Call) :
    Act.allBlurred b (calls.map (.call name)) = (calls.map b.call).map (.call name) := by
  induction calls with
  | nil => rfl
  | cons c calls ih => exact congrArg (Act.call name (b.call c) :: ·) ih

theorem Move.blurred_echoed (b : Blur) (calls : List Call) :
    (echoed calls).map (blurred b) = echoed (calls.map b.call) := by
  rw [echoed, echoed, ← Act.allBlurred_map_call, List.map_cons, List.map_map, List.map_map]
  rfl

/-- The court comes to the same end if everything is spelled in lower case, and
its clerk hears the same events. -/
theorem letter_case_is_irrelevant_lettered :
    Config.lowered (Config.lowered Config.lettered.toDocument) =
        Config.lowered Config.lettered.toDocument ∧
      Manager.ofDocument (some (Config.lowered Config.lettered.toDocument)) =
        .ok (Manager.ofRoster Config.lettered) ∧
      (Manager.ofRoster Config.lettered).run (Call.lettered.map Call.lowered) =
        (Manager.ofRoster Config.lettered).run Call.lettered ∧
      ∀ listener, received 0 (.listener listener)
          ((Network.empty.addManager "court" (.ofRoster Config.lettered)).happened
            (Move.echoed (Call.lettered.map Call.lowered))) =
        received 0 (.listener listener)
          ((Network.empty.addManager "court" (.ofRoster Config.lettered)).happened
            (Move.echoed Call.lettered)) := by
  have hd := Config.lowered_lowered Config.lettered.toDocument
  have hm := Manager.ofDocument_toDocument SizedRoster.admissible_lettered
  have hcalls : (Call.lettered.map Call.lowered).map Call.lowered =
      Call.lettered.map Call.lowered := by
    rw [List.map_map]
    exact List.map_congr_left fun c _ => c.lowered_lowered
  have hmoves : (Move.echoed (Call.lettered.map Call.lowered)).map (Move.blurred .letterCase) =
      (Move.echoed Call.lettered).map (Move.blurred .letterCase) := by
    rw [Move.blurred_echoed, Move.blurred_echoed]
    exact congrArg Move.echoed hcalls
  obtain ⟨hlower, hruns, hnetworks⟩ := letter_case_is_irrelevant hd.symm hm
  have hrun := (hruns _ _ hcalls).1 4
  obtain ⟨-, -, hreceived⟩ := hnetworks .empty .empty rfl "court" _ _ hmoves
  exact ⟨hd, hlower, hrun, fun _ => hreceived 0 _⟩

end EpochClaims
