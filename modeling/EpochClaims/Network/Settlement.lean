import EpochClaims.Network.Basic

/-!
# Settlement

The writes of indexers to their caches are performed when everything else has
come to rest. Time is counted in ticks from that moment. Every indexer starts
its first write at once and each further one when the span of the one before it
is over. Among all indexers the writes are performed in the order in which they
start, and those that start together in the order in which their indexers
queued their first.

`schedule` lists these turns. `pairwise_schedule` says that no turn starts
before those in front of it, and `count_schedule` that each indexer has as many
turns as writes.
-/

namespace EpochClaims

/-- The turn of an indexer to perform its next write, and when it starts. -/
structure Turn where
  start : Nat
  indexer : Nat
  deriving DecidableEq, Repr

namespace Turn

/-- The turns of an indexer whose writes take the given spans, the first of
them at `start`. -/
def successive (indexer : Nat) : Nat → List Nat → List Turn
  | _, [] => []
  | start, span :: spans => ⟨start, indexer⟩ :: successive indexer (start + span) spans

/-- Enters a turn behind those that start no later. -/
def enter (turns : List Turn) (t : Turn) : List Turn :=
  match turns with
  | [] => [t]
  | u :: turns => if u.start ≤ t.start then u :: enter turns t else t :: u :: turns

/-- Turns in the order in which they start, those that start together in the
order given. -/
def inOrder (turns : List Turn) : List Turn :=
  turns.foldl enter []

theorem count_successive (i j : Nat) (spans : List Nat) :
    ∀ start : Nat, ((successive i start spans).map indexer).count j =
      if i = j then spans.length else 0 := by
  induction spans with
  | nil => simp [successive]
  | cons span spans ih =>
    intro start
    rw [successive, List.map_cons, List.count_cons, ih]
    by_cases h : i = j <;> simp [h]

theorem count_enter (i : Nat) (t : Turn) (turns : List Turn) :
    ((enter turns t).map indexer).count i = ((t :: turns).map indexer).count i := by
  induction turns with
  | nil => rfl
  | cons u turns ih =>
    rw [enter]
    split
    · simp only [List.map_cons, List.count_cons] at ih ⊢
      omega
    · rfl

theorem mem_enter {t u : Turn} {turns : List Turn} :
    u ∈ enter turns t ↔ u = t ∨ u ∈ turns := by
  induction turns with
  | nil => simp [enter]
  | cons v turns ih =>
    rw [enter]
    split
    · rw [List.mem_cons, ih, List.mem_cons, or_left_comm]
    · rw [List.mem_cons]

/-- Entering a turn keeps the turns in order. -/
theorem pairwise_enter {turns : List Turn} (h : turns.Pairwise (·.start ≤ ·.start)) (t : Turn) :
    (enter turns t).Pairwise (·.start ≤ ·.start) := by
  induction turns with
  | nil => simp [enter]
  | cons u turns ih =>
    obtain ⟨hu, hturns⟩ := List.pairwise_cons.1 h
    rw [enter]
    split
    · next hle =>
      refine List.pairwise_cons.2 ⟨fun v hv => ?_, ih hturns⟩
      rcases mem_enter.1 hv with rfl | hmem
      · exact hle
      · exact hu v hmem
    · next hlt =>
      refine List.pairwise_cons.2 ⟨fun v hv => ?_, h⟩
      rcases List.mem_cons.1 hv with rfl | hmem
      · omega
      · have hle := hu v hmem
        omega

theorem foldl_enter (i : Nat) (turns : List Turn) :
    ∀ before : List Turn, before.Pairwise (·.start ≤ ·.start) →
      (turns.foldl enter before).Pairwise (·.start ≤ ·.start) ∧
        ((turns.foldl enter before).map indexer).count i =
          (before.map indexer).count i + (turns.map indexer).count i := by
  induction turns with
  | nil => exact fun before h => ⟨h, by simp⟩
  | cons t turns ih =>
    intro before h
    obtain ⟨hpairwise, hcount⟩ := ih _ (pairwise_enter h t)
    refine ⟨hpairwise, ?_⟩
    rw [List.foldl_cons, hcount, count_enter]
    simp only [List.map_cons, List.count_cons]
    omega

theorem pairwise_inOrder (turns : List Turn) :
    (inOrder turns).Pairwise (·.start ≤ ·.start) :=
  (foldl_enter 0 turns [] List.Pairwise.nil).1

theorem count_inOrder (i : Nat) (turns : List Turn) :
    ((inOrder turns).map indexer).count i = (turns.map indexer).count i := by
  rw [inOrder, (foldl_enter i turns [] List.Pairwise.nil).2]
  simp

end Turn

theorem count_eraseDups (i : Nat) (l : List Nat) :
    l.eraseDups.count i = if i ∈ l then 1 else 0 := by
  match l with
  | [] => rfl
  | j :: l =>
    rw [List.eraseDups_cons, List.count_cons, count_eraseDups i (l.filter fun k => !k == j)]
    by_cases hij : i = j
    · subst hij
      simp
    · have hji : (j == i) = false := by simpa using Ne.symm hij
      simp [hij, hji]
termination_by l.length
decreasing_by exact Nat.lt_succ_of_le (List.length_filter_le ..)

/-- Lists of which only those of one element hold this element, and as often. -/
theorem count_flatMap_of_ite {f : Nat → List Nat} {i n : Nat}
    (hf : ∀ j, (f j).count i = if j = i then n else 0) (l : List Nat) :
    (l.flatMap f).count i = l.count i * n := by
  induction l with
  | nil => simp
  | cons j l ih =>
    rw [List.flatMap_cons, List.count_append, hf, ih, List.count_cons]
    by_cases h : j = i <;> simp [h, Nat.add_mul, Nat.add_comm]

namespace Network

/-- The cache of an indexer, with its handle. -/
def cacheOf? (net : Network) (o : Observer) : Option (Nat × Cache) :=
  o.cache.bind fun handle => (net.caches.get? handle).map fun c => (handle, c)

/-- The spans of the writes that an indexer has queued. -/
def spansOf (net : Network) (indexer : Nat) : List Nat :=
  match net.observers.get? indexer with
  | none => []
  | some o =>
    match net.cacheOf? o with
    | none => []
    | some (_, c) => o.indexer.spans c

/-- The turns in which all writes are performed. -/
def schedule (net : Network) : List Turn :=
  Turn.inOrder (net.unsettled.eraseDups.flatMap fun i => Turn.successive i 0 (net.spansOf i))

/-- Performs the first write of an indexer. -/
def settleOne (net : Network) (indexer : Nat) : Network :=
  match net.observers.get? indexer with
  | none => net
  | some o =>
    match net.cacheOf? o with
    | none => net
    | some (handle, c) =>
      let (x, c, lines) := o.indexer.settle c
      { net with
        observers := net.observers.modify indexer fun o => { o with indexer := x }
        caches := net.caches.modify handle fun _ => c }
        |>.write lines

/-- Performs all writes. -/
def settle (net : Network) : Network :=
  net.schedule.foldl (fun net t => net.settleOne t.indexer) { net with unsettled := [] }

/-- No turn starts before those in front of it. -/
theorem pairwise_schedule (net : Network) : net.schedule.Pairwise (·.start ≤ ·.start) :=
  Turn.pairwise_inOrder _

/-- An indexer that is not settled has as many turns as it has writes. -/
theorem count_schedule (net : Network) (i : Nat) :
    (net.schedule.map Turn.indexer).count i =
      if i ∈ net.unsettled then (net.spansOf i).length else 0 := by
  have hone : ∀ j, ((Turn.successive j 0 (net.spansOf j)).map Turn.indexer).count i =
      if j = i then (net.spansOf i).length else 0 := by
    intro j
    rw [Turn.count_successive]
    split
    · next h => rw [h]
    · rfl
  rw [schedule, Turn.count_inOrder, List.map_flatMap, count_flatMap_of_ite hone, count_eraseDups]
  split <;> simp

end Network

end EpochClaims
