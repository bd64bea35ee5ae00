import EpochClaims.Proofs.Index.Storage

/-!
# Courses of an indexer with a cache

Between the events that an indexer ingests its queued writes are performed, one at
a time, and each of them is answered by the cache as it pleases: the cache of the
next write holds what the last one left, but its faults may be any. A report waits
for the queue. `Course` lists what happened; each step of it is one of the functions
that run, and its label is read off their arguments and results.

A refusal that cannot be spelled leaves the chain of writes rejected, and then the
next write is skipped. `rejectionOf` tells from the labels alone how the chain is
left, `Course.rejection_eq`.
-/

namespace EpochClaims

namespace Indexer

/-- What happens at an indexer with a cache. A write that is performed asks the
cache to keep an entry, and the cache may refuse by raising something; a write that
is skipped asks for nothing. -/
inductive Occurrence where
  | ingested (e : Event)
  | asked (entry : Entry) (refusal : Option Raised)
  | skipped (entry : Entry)
  | flushed (report : Option Raised)
  deriving DecidableEq, Repr

namespace Occurrence

/-- The event that was ingested. -/
def event? : Occurrence → Option Event
  | ingested e => some e
  | _ => none

/-- The entry whose write had its turn. -/
def turn? : Occurrence → Option Entry
  | asked entry _ => some entry
  | skipped entry => some entry
  | _ => none

/-- The entry that the cache was asked to keep. -/
def entry? : Occurrence → Option Entry
  | asked entry _ => some entry
  | _ => none

/-- The entry that the cache kept. -/
def kept? : Occurrence → Option Entry
  | asked entry none => some entry
  | _ => none

/-- What the cache raised. -/
def refusal? : Occurrence → Option Raised
  | asked _ refusal => refusal
  | _ => none

/-- What the chain of writes is rejected with behind an occurrence. -/
def rejection (before : Option Raised) : Occurrence → Option Raised
  | asked _ refusal => refusal.bind Raised.escaped?
  | skipped _ => before.bind Raised.escaped?
  | _ => before

end Occurrence

/-- What the cache raised in a course. -/
def refusalsOf (os : List Occurrence) : List Raised :=
  os.filterMap Occurrence.refusal?

/-- What the chain of writes is left rejected with. -/
def rejectionOf (os : List Occurrence) : Option Raised :=
  os.foldl Occurrence.rejection none

/-- One occurrence, with the indexer and the entries of its cache before and
after. -/
inductive Step : Indexer → Shelves → Occurrence → Indexer → Shelves → Prop
  | ingest (x : Indexer) (s : Shelves) (e : Event) : Step x s (.ingested e) (x.ingest e) s
  | settle {x : Indexer} {w : PendingWrite} {rest : List PendingWrite} (s : Shelves)
      (faults : List CacheFault) (hqueue : x.queue = w :: rest) (hchain : x.rejection = none) :
      Step x s (.asked w.entry ((Cache.mk s faults).refusal? .set w.epoch))
        (x.settle ⟨s, faults⟩).1 (x.settle ⟨s, faults⟩).2.1.content
  | skip {x : Indexer} {w : PendingWrite} {rest : List PendingWrite} {r : Raised} (s : Shelves)
      (faults : List CacheFault) (hqueue : x.queue = w :: rest) (hchain : x.rejection = some r) :
      Step x s (.skipped w.entry) (x.settle ⟨s, faults⟩).1 (x.settle ⟨s, faults⟩).2.1.content
  | flush {x : Indexer} (s : Shelves) (hqueue : x.queue = []) :
      Step x s (.flushed x.flush.2) x.flush.1 s

/-- What happened, from one indexer and the entries of its cache to others. -/
inductive Course (x : Indexer) (s : Shelves) : List Occurrence → Indexer → Shelves → Prop
  | start : Course x s [] x s
  | next {os : List Occurrence} {o : Occurrence} {x₁ x₂ : Indexer} {s₁ s₂ : Shelves}
      (before : Course x s os x₁ s₁) (step : Step x₁ s₁ o x₂ s₂) : Course x s (os ++ [o]) x₂ s₂

variable {x x' x'' : Indexer} {s s' s'' : Shelves} {o : Occurrence} {os os' : List Occurrence}
  {w : PendingWrite} {rest : List PendingWrite} {c : Cache} {r : Raised}

/-! What one occurrence does. -/

/-- A value is remembered if none is, unless it is nothing. -/
theorem remember_eq (x : Indexer) (r : Raised) :
    x.remember r =
      { x with writeError := x.writeError.or ((some r).filter fun r => r ≠ .nothing) } := by
  obtain ⟨view, cached, queue, error, rejection⟩ := x
  cases error <;> cases r <;> rfl

/-- A refusal that can be spelled is remembered, any other one is left to the next
write. -/
theorem refuse_eq (x : Indexer) (w : PendingWrite) (r : Raised) :
    (x.refuse w r).1 = { x with
      writeError := x.writeError.or ((some r).filter fun r => r.Legible ∧ r ≠ .nothing)
      rejection := r.escaped? } := by
  rw [refuse, Option.filter_some]
  cases hr : r.message with
  | ok message =>
      have hescaped : r.escaped? = none := by rw [Raised.escaped?, hr]
      have hlegible : r.Legible := hescaped
      simp only [remember_eq, hescaped, hlegible, true_and, Option.filter_some]
  | error raised =>
      have hescaped : r.escaped? = some raised := by rw [Raised.escaped?, hr]
      have hillegible : ¬ r.Legible := by simp [Raised.Legible, hescaped]
      simp only [hescaped, hillegible, false_and, decide_false, Bool.false_eq_true, if_false,
        Option.or_none]

/-- A write that the cache accepts puts its entry there. -/
theorem settle_of_accepted (hqueue : x.queue = w :: rest) (hchain : x.rejection = none)
    (h : c.refusal? .set w.epoch = none) :
    x.settle c = ({ x with queue := rest }, { c with content := c.content.put w.entry }, []) := by
  rw [settle, hqueue]
  simp only [hchain, Cache.set, h]
  rfl

/-- A write that the cache refuses leaves the cache as it was. -/
theorem settle_of_refused (hqueue : x.queue = w :: rest) (hchain : x.rejection = none)
    (h : c.refusal? .set w.epoch = some r) :
    x.settle c = ((refuse { x with queue := rest } w r).1, c,
      (refuse { x with queue := rest } w r).2) := by
  rw [settle, hqueue]
  simp only [hchain, Cache.set, h]

/-- A write behind a rejected chain asks the cache for nothing. -/
theorem settle_of_rejected (hqueue : x.queue = w :: rest) (hchain : x.rejection = some r) :
    x.settle c = ((refuse { x with queue := rest } w r).1, c,
      (refuse { x with queue := rest } w r).2) := by
  rw [settle, hqueue]
  simp only [hchain]

theorem Step.of_ingested {e : Event} (h : Step x s (.ingested e) x' s') :
    x' = x.ingest e ∧ s' = s := by
  cases h with
  | ingest => exact ⟨rfl, rfl⟩

/-- A write that is performed leaves the queue, whatever the answer. -/
theorem Step.of_asked {entry : Entry} {refusal : Option Raised}
    (h : Step x s (.asked entry refusal) x' s') :
    ∃ w rest, x.queue = w :: rest ∧ x.rejection = none ∧ entry = w.entry ∧
      x' = { x with
        queue := rest
        writeError := x.writeError.or (refusal.filter fun r => r.Legible ∧ r ≠ .nothing)
        rejection := refusal.bind Raised.escaped? } ∧
      s' = s.putAll (Occurrence.asked entry refusal).kept?.toList := by
  cases h with
  | @settle w rest _ faults hqueue hchain =>
      refine ⟨w, rest, hqueue, hchain, rfl, ?_⟩
      cases hrefusal : (Cache.mk s faults).refusal? .set w.epoch with
      | none =>
          have hkept : (none : Option Raised).bind Raised.escaped? = x.rejection := hchain.symm
          rw [settle_of_accepted hqueue hchain hrefusal, Option.filter_none, Option.or_none, hkept]
          exact ⟨rfl, rfl⟩
      | some r =>
          rw [settle_of_refused hqueue hchain hrefusal, refuse_eq]
          exact ⟨rfl, rfl⟩

/-- A write that is skipped leaves the queue as well, and the cache alone. -/
theorem Step.of_skipped {entry : Entry} (h : Step x s (.skipped entry) x' s') :
    ∃ w rest r, x.queue = w :: rest ∧ x.rejection = some r ∧ entry = w.entry ∧
      x' = { x with
        queue := rest
        writeError := x.writeError.or ((some r).filter fun r => r.Legible ∧ r ≠ .nothing)
        rejection := r.escaped? } ∧
      s' = s := by
  cases h with
  | @skip w rest r _ faults hqueue hchain =>
      refine ⟨w, rest, r, hqueue, hchain, rfl, ?_⟩
      rw [settle_of_rejected hqueue hchain, refuse_eq]
      exact ⟨rfl, rfl⟩

theorem flush_of_rejected (hchain : x.rejection = some r) : x.flush = (x, some r) := by
  rw [flush, hchain]

theorem flush_of_not_rejected (hchain : x.rejection = none) :
    x.flush = ({ x with writeError := none }, x.writeError) := by
  rw [flush, hchain]

theorem Step.of_flushed {report : Option Raised} (h : Step x s (.flushed report) x' s') :
    report = x.flush.2 ∧ x' = x.flush.1 ∧ s' = s := by
  cases h with
  | flush => exact ⟨rfl, rfl, rfl⟩

/-- A report changes nothing but what waits to be reported. -/
theorem exists_flush_eq (x : Indexer) : ∃ error, x.flush.1 = { x with writeError := error } := by
  rcases Option.eq_none_or_eq_some x.rejection with hchain | ⟨r, hchain⟩
  · exact ⟨none, congrArg Prod.fst (flush_of_not_rejected hchain)⟩
  · exact ⟨x.writeError, congrArg Prod.fst (flush_of_rejected hchain)⟩

theorem queue_flush (x : Indexer) : x.flush.1.queue = x.queue := by
  obtain ⟨_, herror⟩ := x.exists_flush_eq
  rw [herror]

/-! How the chain of writes is left. -/

theorem Step.rejection_eq (h : Step x s o x' s') : x'.rejection = o.rejection x.rejection := by
  cases o with
  | ingested e =>
      obtain ⟨rfl, -⟩ := h.of_ingested
      rfl
  | asked entry refusal =>
      obtain ⟨_, _, -, -, -, rfl, -⟩ := h.of_asked
      rfl
  | skipped entry =>
      obtain ⟨_, _, r, -, hchain, -, rfl, -⟩ := h.of_skipped
      rw [hchain]
      rfl
  | flushed report =>
      obtain ⟨-, rfl, -⟩ := h.of_flushed
      obtain ⟨error, herror⟩ := x.exists_flush_eq
      rw [herror]
      rfl

theorem rejectionOf_concat (os : List Occurrence) (o : Occurrence) :
    rejectionOf (os ++ [o]) = o.rejection (rejectionOf os) :=
  List.foldl_append ..

/-- The labels of a course tell how it leaves the chain. -/
theorem Course.rejection_eq (h : Course x s os x' s') (hx : x.rejection = none) :
    x'.rejection = rejectionOf os := by
  induction h with
  | start => exact hx
  | next _ step ih => rw [rejectionOf_concat, step.rejection_eq, ih]

theorem legible_concat (h : ∀ r ∈ refusalsOf (os ++ [o]), r.Legible) :
    (∀ r ∈ refusalsOf os, r.Legible) ∧ ∀ r, o.refusal? = some r → r.Legible := by
  rw [refusalsOf, filterMap_concat] at h
  obtain ⟨hbefore, hlast⟩ := List.forall_mem_append.1 h
  exact ⟨hbefore, fun r hr => hlast r (Option.mem_toList.2 hr)⟩

/-- Refusals that can be spelled never leave the chain rejected. -/
theorem Course.rejection_eq_none (h : Course x s os x' s') (hx : x.rejection = none)
    (hlegible : ∀ r ∈ refusalsOf os, r.Legible) : x'.rejection = none := by
  induction h with
  | start => exact hx
  | @next os o _ _ _ _ _ step ih =>
      obtain ⟨hbefore, hlast⟩ := legible_concat hlegible
      rw [step.rejection_eq, ih hbefore]
      cases o with
      | asked entry refusal =>
          cases refusal with
          | none => rfl
          | some r => exact hlast r rfl
      | _ => rfl

/-! Any answers. -/

/-- Faults that give one answer to every write. -/
def faultsOf (refusal : Option Raised) : List CacheFault :=
  refusal.toList.map fun r => ⟨.set, none, r⟩

theorem refusal?_faultsOf (s : Shelves) (refusal : Option Raised) (epoch : Argument) :
    (Cache.mk s (faultsOf refusal)).refusal? .set epoch = refusal := by
  cases refusal <;> rfl

/-- What happens when entries have their turns and the cache has an answer for each
of them, if the chain may be rejected before the first. -/
def turns (chain : Option Raised) : List Entry → List (Option Raised) → List Occurrence
  | entry :: entries, refusal :: answers =>
    match chain with
    | none => .asked entry refusal :: turns (refusal.bind Raised.escaped?) entries answers
    | some r => .skipped entry :: turns r.escaped? entries answers
  | _, _ => []

/-- If all answers can be spelled, the cache is asked for each entry. -/
theorem turns_of_legible {answers : List (Option Raised)} :
    ∀ {entries : List Entry}, (∀ r, some r ∈ answers → r.Legible) →
      turns none entries answers = List.zipWith .asked entries answers := by
  induction answers with
  | nil =>
      intro entries _
      cases entries <;> rfl
  | cons refusal answers ih =>
      intro entries hlegible
      cases entries with
      | nil => rfl
      | cons entry entries =>
          have hchain : refusal.bind Raised.escaped? = none := by
            cases refusal with
            | none => rfl
            | some r => exact hlegible r List.mem_cons_self
          rw [turns, hchain, ih fun r hr => hlegible r (List.mem_cons_of_mem _ hr)]
          rfl

/-- A cache may give any answer to a write that has its turn, unless the write is
skipped. -/
theorem exists_step_turn (s : Shelves) (hqueue : x.queue = w :: rest) (refusal : Option Raised)
    {answers : List (Option Raised)} :
    ∃ o x' s', Step x s o x' s' ∧ x'.queue = rest ∧
      turns x.rejection (x.queue.map PendingWrite.entry) (refusal :: answers) =
        o :: turns x'.rejection (rest.map PendingWrite.entry) answers := by
  rw [hqueue, List.map_cons]
  cases hchain : x.rejection with
  | none =>
      have hstep := Step.settle s (faultsOf refusal) hqueue hchain
      rw [refusal?_faultsOf] at hstep
      obtain ⟨_, _, hqueue', -, -, hx', -⟩ := hstep.of_asked
      obtain ⟨-, rfl⟩ := List.cons.inj (hqueue.symm.trans hqueue')
      exact ⟨_, _, _, hstep, by rw [hx'], by rw [hx', turns]⟩
  | some r =>
      have hstep := Step.skip s [] hqueue hchain
      obtain ⟨_, _, r', hqueue', hchain', -, hx', -⟩ := hstep.of_skipped
      obtain ⟨-, rfl⟩ := List.cons.inj (hqueue.symm.trans hqueue')
      obtain rfl := Option.some.inj (hchain.symm.trans hchain')
      exact ⟨_, _, _, hstep, by rw [hx'], by rw [hx', turns]⟩

/-! How courses are put together and taken apart. -/

theorem Course.trans (h : Course x s os x' s') (h' : Course x' s' os' x'' s'') :
    Course x s (os ++ os') x'' s'' := by
  induction h' with
  | start => rwa [List.append_nil]
  | next _ step ih =>
      rw [← List.append_assoc]
      exact ih.next step

theorem Course.of_concat (h : Course x s (os ++ [o]) x'' s'') :
    ∃ x' s', Course x s os x' s' ∧ Step x' s' o x'' s'' := by
  generalize hall : os ++ [o] = all at h
  cases h with
  | start => simp at hall
  | next before step =>
      obtain ⟨rfl, hlast⟩ := List.append_inj' hall rfl
      rw [List.singleton_inj.1 hlast]
      exact ⟨_, _, before, step⟩

/-- A course can be cut anywhere. -/
theorem Course.of_append (h : Course x s (os ++ os') x'' s'') :
    ∃ x' s', Course x s os x' s' ∧ Course x' s' os' x'' s'' := by
  -- Courses grow at the end, so the later part is taken down from there.
  induction os' using List.reverseRecOn generalizing x'' s'' with
  | nil => exact ⟨x'', s'', os.append_nil ▸ h, .start⟩
  | append_singleton os' o ih =>
      rw [← List.append_assoc] at h
      obtain ⟨x₁, s₁, before, step⟩ := h.of_concat
      obtain ⟨x', s', hleft, hright⟩ := ih before
      exact ⟨x', s', hleft, hright.next step⟩

/-- The queue can be emptied, whatever the answers to its writes. -/
theorem exists_course_settled (answers : List (Option Raised)) (s : Shelves)
    (hanswers : answers.length = x.queue.length) :
    ∃ x' s', Course x s (turns x.rejection (x.queue.map PendingWrite.entry) answers) x' s' ∧
      x'.queue = [] := by
  induction answers generalizing x s with
  | nil =>
      have hqueue := List.length_eq_zero_iff.1 hanswers.symm
      rw [hqueue]
      cases x.rejection <;> exact ⟨x, s, .start, hqueue⟩
  | cons refusal answers ih =>
      obtain ⟨w, rest, hqueue⟩ := List.exists_cons_of_length_eq_add_one hanswers.symm
      obtain ⟨o, x₁, s₁, hstep, rfl, hturns⟩ := exists_step_turn s hqueue refusal
      rw [hqueue, List.length_cons, List.length_cons, Nat.add_right_cancel_iff] at hanswers
      obtain ⟨x', s', hrest, hempty⟩ := ih s₁ hanswers
      refine ⟨x', s', ?_, hempty⟩
      rw [hturns]
      exact (Course.start.next hstep).trans hrest

end Indexer

end EpochClaims
