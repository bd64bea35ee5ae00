import EpochClaims.Proofs.Manager.Run

/-!
# What a run returns

`run` keeps only the manager that a list of calls leads to. `replies` keeps
what each of the calls returns, be it a reply or a refusal, and `replied` the
replies among these. `Replays` says of calls with their results that they
are what performing the calls one after another gives; it splits along an
appended list, `Replays.append`.
-/

namespace EpochClaims

/-- A call with what it returned. -/
abbrev CallResult := Call × Except Refusal Reply

/-- The replies among the results of calls. -/
def repliesOf (results : List (Except Refusal Reply)) : List Reply :=
  results.filterMap Except.toOption

@[simp] theorem repliesOf_ok (r : Reply) (results : List (Except Refusal Reply)) :
    repliesOf (.ok r :: results) = r :: repliesOf results := rfl

@[simp] theorem repliesOf_error (e : Refusal) (results : List (Except Refusal Reply)) :
    repliesOf (.error e :: results) = repliesOf results := rfl

theorem repliesOf_append (results more : List (Except Refusal Reply)) :
    repliesOf (results ++ more) = repliesOf results ++ repliesOf more :=
  List.filterMap_append

namespace Manager

/-- What the calls of a run return. -/
def replies (m : Manager) : List Call → List (Except Refusal Reply)
  | [] => []
  | c :: calls => (m.perform c).map Prod.snd :: (m.after c).replies calls

@[simp] theorem replies_nil (m : Manager) : m.replies [] = [] := rfl

theorem replies_cons (m : Manager) (c : Call) (calls : List Call) :
    m.replies (c :: calls) = (m.perform c).map Prod.snd :: (m.after c).replies calls := rfl

theorem replies_append (m : Manager) (calls more : List Call) :
    m.replies (calls ++ more) = m.replies calls ++ (m.run calls).replies more := by
  induction calls generalizing m with
  | nil => rfl
  | cons c calls ih =>
      rw [List.cons_append, replies_cons, replies_cons, ih, run_cons, List.cons_append]

/-- Calls made one after another lead from one manager to another and return the
given results. -/
structure Replays (m : Manager) (made : List CallResult) (m' : Manager) : Prop where
  manager_eq : m' = m.run (made.map Prod.fst)
  results_eq : made.map Prod.snd = m.replies (made.map Prod.fst)

theorem Replays.refl (m : Manager) : m.Replays [] m := ⟨rfl, rfl⟩

theorem Replays.append {m m' m'' : Manager} {made more : List CallResult}
    (h : m.Replays made m') (hmore : m'.Replays more m'') : m.Replays (made ++ more) m'' := by
  obtain ⟨rfl, hresults⟩ := h
  obtain ⟨rfl, hmoreResults⟩ := hmore
  constructor
  · rw [List.map_append, run_append]
  · rw [List.map_append, List.map_append, replies_append, hresults, hmoreResults]

/-- A call that is performed is replayed by itself. -/
theorem Replays.of_ok {m m' : Manager} {c : Call} {r : Reply} (h : m.perform c = .ok (m', r)) :
    m.Replays [(c, .ok r)] m' := by
  constructor
  · rw [List.map_singleton, run_cons, run_nil, after, h]
  · rw [List.map_singleton, List.map_singleton, replies_cons, replies_nil, h]
    rfl

theorem Replays.of_error {m : Manager} {c : Call} {e : Refusal} (h : m.perform c = .error e) :
    m.Replays [(c, .error e)] m := by
  constructor
  · rw [List.map_singleton, run_cons, run_nil, after_of_refused h]
  · rw [List.map_singleton, List.map_singleton, replies_cons, replies_nil, h]
    rfl

/-- The replies to the committed calls of a run. -/
def replied (m : Manager) (calls : List Call) : List Reply :=
  repliesOf (m.replies calls)

theorem replied_of_committed {m : Manager} {calls : List Call} {c : Call}
    {s : State (m.run calls).capacity} {r : Reply} (h : Committed (m.run calls) c s r) :
    m.replied (calls ++ [c]) = m.replied calls ++ [r] := by
  rw [replied, replies_append, repliesOf_append, replies_cons, perform_eq_ok_iff.2 ⟨s, rfl, h⟩]
  rfl

theorem replied_of_refused {m : Manager} {calls : List Call} {c : Call} {e : Refusal}
    (h : (m.run calls).perform c = .error e) : m.replied (calls ++ [c]) = m.replied calls := by
  rw [replied, replies_append, repliesOf_append, replies_cons, h]
  exact List.append_nil _

theorem Replays.replied_eq {m m' : Manager} {made : List CallResult} (h : m.Replays made m') :
    repliesOf (made.map Prod.snd) = m.replied (made.map Prod.fst) := by
  rw [h.results_eq, replied]

end Manager

end EpochClaims
