import EpochClaims.Proofs.Manager.Commit
import Mathlib.Data.List.Induction

/-!
# Runs

A run performs a list of calls one after the other; a refused call leaves the
manager as it was. `run_induction` is the induction along a run: a fact about
the calls so far and the manager they lead to is kept by a run if each way
through a call keeps it. `StaysOpen` says of a run that none of its calls
closes the epoch.
-/

namespace EpochClaims

namespace Manager

theorem after_of_committed {m : Manager} {c : Call} {s : State m.capacity} {r : Reply}
    (h : Committed m c s r) : m.after c = m.withState s := by
  rw [after, perform_eq_ok_iff.2 ⟨s, rfl, h⟩]

theorem after_of_refused {m : Manager} {c : Call} {e : Refusal}
    (h : m.perform c = .error e) : m.after c = m := by
  rw [after, h]

/-- A call is committed or refused. -/
theorem committed_or_refused (m : Manager) (c : Call) :
    (∃ s r, Committed m c s r) ∨ ∃ e, m.perform c = .error e := by
  cases h : m.perform c with
  | error e => exact .inr ⟨e, rfl⟩
  | ok r =>
      obtain ⟨s, -, hcommit⟩ := perform_eq_ok_iff.1 h
      exact .inl ⟨s, r.2, hcommit⟩

@[simp] theorem run_nil (m : Manager) : m.run [] = m := rfl

theorem run_cons (m : Manager) (c : Call) (calls : List Call) :
    m.run (c :: calls) = (m.after c).run calls := rfl

theorem run_append (m : Manager) (calls more : List Call) :
    m.run (calls ++ more) = (m.run calls).run more :=
  List.foldl_append

theorem run_concat (m : Manager) (calls : List Call) (c : Call) :
    m.run (calls ++ [c]) = (m.run calls).after c := by
  rw [run_append, run_cons, run_nil]

/-- Induction along a run whose calls all have the property `Q`. -/
theorem run_induction {P : List Call → Manager → Prop} {Q : Call → Prop} {m : Manager}
    (hstart : P [] m)
    (hcommitted : ∀ calls c s r, P calls (m.run calls) → Q c → Committed (m.run calls) c s r →
      P (calls ++ [c]) ((m.run calls).withState s))
    (hrefused : ∀ calls c e, P calls (m.run calls) → Q c → (m.run calls).perform c = .error e →
      P (calls ++ [c]) (m.run calls)) :
    ∀ calls, (∀ c ∈ calls, Q c) → P calls (m.run calls) := by
  intro calls
  -- A run is extended at its end, so the calls so far are what the induction is on.
  induction calls using List.reverseRecOn with
  | nil =>
      intro _
      exact hstart
  | append_singleton calls c ih =>
      intro hQ
      have hcalls := ih fun b hb => hQ b (List.mem_append_left [c] hb)
      have hc := hQ c (List.mem_append_right calls List.mem_cons_self)
      rw [run_concat]
      rcases committed_or_refused (m.run calls) c with ⟨s, r, h⟩ | ⟨e, h⟩
      · rw [after_of_committed h]
        exact hcommitted calls c s r hcalls hc h
      · rw [after_of_refused h]
        exact hrefused calls c e hcalls hc h

/-- A validator that holds a slot. -/
def IsMember (m : Manager) (a : Address) : Prop :=
  ∃ i, m.state.roster.slot i = some a

/-- No call gives anybody a slot. -/
theorem Committed.slot_of_slot {m : Manager} {c : Call} {s : State m.capacity} {r : Reply}
    (h : Committed m c s r) {i : Fin m.capacity} {a : Address}
    (hi : s.roster.slot i = some a) : m.state.roster.slot i = some a := by
  cases c with
  | submit _ =>
      cases h with
      | endorsed _ _ => exact hi
      | contradicted _ _ _ => exact hi
  | dispute _ =>
      obtain ⟨j, -, hroster, -⟩ := h.exists_judge
      rw [hroster, slot_afterEviction_eq_some_iff] at hi
      exact hi.2
  | advance _ =>
      cases h with
      | closed _ => exact hi

theorem isMember_of_run {m : Manager} {calls : List Call} {a : Address}
    (h : (m.run calls).IsMember a) : m.IsMember a := by
  revert h
  refine run_induction (P := fun _ m' => m'.IsMember a → m.IsMember a) (Q := fun _ => True)
    id ?_ ?_ calls (fun _ _ => trivial)
  · intro calls c s r ih _ hcommit
    rintro ⟨i, hi⟩
    exact ih ⟨i, hcommit.slot_of_slot hi⟩
  · intro calls c e ih _ _
    exact ih

theorem distinct_run {m : Manager} (hm : m.state.roster.Distinct) (calls : List Call) :
    (m.run calls).state.roster.Distinct := by
  refine run_induction (P := fun _ m' => m'.state.roster.Distinct) (Q := fun _ => True)
    hm ?_ ?_ calls (fun _ _ => trivial)
  · intro calls c s r ih _ hcommit i j a hi hj
    exact ih i j a (hcommit.slot_of_slot hi) (hcommit.slot_of_slot hj)
  · intro calls c e ih _ _
    exact ih

/-- A call that is committed and closes the epoch. -/
def Closes (m : Manager) (c : Call) : Prop :=
  ∃ m' claim, m.perform c = .ok (m', .closed claim)

/-- No call of a run closes the epoch. -/
def StaysOpen (m : Manager) : List Call → Prop
  | [] => True
  | c :: calls => ¬ m.Closes c ∧ (m.after c).StaysOpen calls

@[simp] theorem staysOpen_nil (m : Manager) : m.StaysOpen [] := trivial

theorem staysOpen_cons (m : Manager) (c : Call) (calls : List Call) :
    m.StaysOpen (c :: calls) ↔ ¬ m.Closes c ∧ (m.after c).StaysOpen calls :=
  Iff.rfl

theorem staysOpen_append (m : Manager) (calls more : List Call) :
    m.StaysOpen (calls ++ more) ↔ m.StaysOpen calls ∧ (m.run calls).StaysOpen more := by
  induction calls generalizing m with
  | nil => simp
  | cons c calls ih =>
      rw [List.cons_append, staysOpen_cons, staysOpen_cons, ih, run_cons, and_assoc]

theorem staysOpen_concat (m : Manager) (calls : List Call) (c : Call) :
    m.StaysOpen (calls ++ [c]) ↔ m.StaysOpen calls ∧ ¬ (m.run calls).Closes c := by
  rw [staysOpen_append, staysOpen_cons, and_iff_left (staysOpen_nil _)]

theorem closes_iff {m : Manager} {c : Call} {s : State m.capacity} {r : Reply}
    (h : Committed m c s r) : m.Closes c ↔ ∃ claim, r = .closed claim := by
  have hperform := perform_eq_ok_iff.2 ⟨s, rfl, h⟩
  constructor
  · rintro ⟨m', claim, hclosed⟩
    rw [hperform] at hclosed
    cases hclosed
    exact ⟨claim, rfl⟩
  · rintro ⟨claim, rfl⟩
    exact ⟨_, claim, hperform⟩

/-- Only a call that asks for it closes the epoch. -/
theorem closes_advance_only {m : Manager} {c : Call} (h : m.Closes c) :
    ∃ account, c = .advance account := by
  obtain ⟨m', claim, hperform⟩ := h
  obtain ⟨s, -, hcommit⟩ := perform_eq_ok_iff.1 hperform
  cases hcommit with
  | @closed account _ => exact ⟨account, rfl⟩

theorem staysOpen_of_forall_ne {calls : List Call}
    (h : ∀ c ∈ calls, ∀ account, c ≠ .advance account) (m : Manager) : m.StaysOpen calls := by
  induction calls generalizing m with
  | nil => exact staysOpen_nil m
  | cons c calls ih =>
      rw [staysOpen_cons]
      constructor
      · intro hcloses
        obtain ⟨account, hc⟩ := closes_advance_only hcloses
        exact h c List.mem_cons_self account hc
      · exact ih (fun b hb => h b (List.mem_cons_of_mem c hb)) _

theorem not_closes_of_refused {m : Manager} {c : Call} {e : Refusal}
    (h : m.perform c = .error e) : ¬ m.Closes c := by
  rintro ⟨m', claim, hclosed⟩
  rw [h] at hclosed
  contradiction

end Manager

end EpochClaims
