import EpochClaims.Network.Delivery
import EpochClaims.Network.Settlement
import EpochClaims.Proofs.Network.Reading

/-!
# What can change in a network

`Change` lists the single changes that make up an act, and the settling of
writes, each with what it adds to the history. A `Path` is a row of them.
Whatever is true of a path is shown here once for each kind of change: the names
of managers stay (`Path.handle?_eq`), every manager is where its calls in the
history lead it (`Path.replays`), and every view has ingested what its indexer
received (`Path.view`). How the calls of listeners nest does not matter for
these facts.
-/

namespace EpochClaims

theorem Indexer.view_remember (x : Indexer) (r : Raised) : (x.remember r).view = x.view := by
  cases h : x.writeError with
  | none => cases r <;> simp [Indexer.remember, h]
  | some _ => simp [Indexer.remember, h]

theorem Indexer.view_refuse (x : Indexer) (w : PendingWrite) (r : Raised) :
    (x.refuse w r).1.view = x.view := by
  rw [Indexer.refuse]
  cases r.message with
  | ok _ => exact Indexer.view_remember ..
  | error _ => rfl

/-- The view waits for no write. -/
theorem Indexer.view_settle (x : Indexer) (c : Cache) : (x.settle c).1.view = x.view := by
  rw [Indexer.settle]
  split
  · rfl
  · next w rest _ =>
    cases x.rejection with
    | some r => exact Indexer.view_refuse ..
    | none =>
      cases c.set w.epoch (.text finalizedClaimName) w.document with
      | ok _ => rfl
      | error r => exact Indexer.view_refuse ..

namespace Network

def manager? (net : Network) (handle : Nat) : Option Manager :=
  (net.publishers.get? handle).map Publisher.manager

/-- The subscribers of a manager. -/
def audience (net : Network) (handle : Nat) : List Subscriber :=
  ((net.publishers.get? handle).map Publisher.audience).getD []

def view? (net : Network) (indexer : Nat) : Option View :=
  (net.observers.get? indexer).map fun o => o.indexer.view

/-- Moves a listener on to another plan. -/
def plan (net : Network) (listener : String) (p : Plan) : Network :=
  { net with listeners := net.listeners.update listener fun l => { l with plan := p } }

/-- Counts an emission. -/
def countEmission (net : Network) : Network :=
  { net with emissions := net.emissions + 1 }

/-- The single changes of a network, with what they add to its history. -/
inductive Change : Network → List Happening → Network → Prop
  | committed {net : Network} {handle : Nat} {m m' : Manager} {c : Call} {r : Reply}
      (hmanager : net.manager? handle = some m) (hperform : m.perform c = .ok (m', r)) :
      Change net [.called handle c (.ok r)]
        ((net.commit handle m').note (.called handle c (.ok r)))
  | refused {net : Network} {handle : Nat} {m : Manager} {c : Call} {e : Refusal}
      (hmanager : net.manager? handle = some m) (hperform : m.perform c = .error e) :
      Change net [.called handle c (.error e)] (net.note (.called handle c (.error e)))
  | wrote (net : Network) (lines : List Line) :
      Change net (lines.map .wrote) (net.write lines)
  | announced (net : Network) (handle : Nat) (e : Event) :
      Change net [.announced net.emissions handle e (net.audience handle)]
        (net.countEmission.note (.announced net.emissions handle e (net.audience handle)))
  | heard (net : Network) (emission handle : Nat) (e : Event) (listener : String) :
      Change net [.delivered emission handle e (.listener listener)]
        (net.note (.delivered emission handle e (.listener listener)))
  | ingested {net : Network} {emission handle : Nat} {e : Event} {i t : Nat} {lines : List Line}
      (hhistory : ((net.note (.delivered emission handle e (.indexer i t))).ingest i e).history =
        net.history ++ .delivered emission handle e (.indexer i t) :: lines.map .wrote) :
      Change net (.delivered emission handle e (.indexer i t) :: lines.map .wrote)
        ((net.note (.delivered emission handle e (.indexer i t))).ingest i e)
  | kept {net : Network} {emission handle : Nat} {e : Event} {k : Nat} {lines : List Line}
      (hhistory : ((net.note (.delivered emission handle e (.recorder k))).keepLog k e).history =
        net.history ++ .delivered emission handle e (.recorder k) :: lines.map .wrote) :
      Change net (.delivered emission handle e (.recorder k) :: lines.map .wrote)
        ((net.note (.delivered emission handle e (.recorder k))).keepLog k e)
  | planned (net : Network) (listener : String) (p : Plan) : Change net [] (net.plan listener p)
  | brokenOff (net : Network) (emission handle : Nat) (s : Subscriber) (escaped : Raised) :
      Change net [.brokenOff emission handle s escaped]
        (net.note (.brokenOff emission handle s escaped))
  | acted (net : Network) (listener : String) (a : Act) (answer : ActAnswer) :
      Change net [.acted listener a answer] (net.note (.acted listener a answer))
  | watched (net : Network) (manager listener : String) (p : Plan) :
      Change net [] (net.watch manager listener p)
  | unwatched (net : Network) (listener : String) : Change net [] (net.unwatch listener)
  | settled {net : Network} {lines : List Line}
      (hhistory : net.settle.history = net.history ++ lines.map .wrote) :
      Change net (lines.map .wrote) net.settle

/-- A row of changes, with what they add to the history. -/
inductive Path : Network → List Happening → Network → Prop
  | refl (net : Network) : Path net [] net
  | next {net net' last : Network} {added more : List Happening} (hchange : Change net added net')
      (hrest : Path net' more last) : Path net (added ++ more) last

theorem Change.path {net net' : Network} {added : List Happening} (h : Change net added net') :
    Path net added net' := by
  have hnext := Path.next h (.refl net')
  rwa [List.append_nil] at hnext

theorem Path.trans {net net' last : Network} {added more : List Happening}
    (h : Path net added net') (hmore : Path net' more last) : Path net (added ++ more) last := by
  induction h with
  | refl _ => exact hmore
  | next hchange _ ih =>
      rw [List.append_assoc]
      exact .next hchange (ih hmore)

/-! The parts of a network that the smaller operations leave alone. -/

@[simp] theorem publishers_ingest (net : Network) (i : Nat) (e : Event) :
    (net.ingest i e).publishers = net.publishers := by
  rw [ingest]
  split <;> rfl

@[simp] theorem publishers_keepLog (net : Network) (k : Nat) (e : Event) :
    (net.keepLog k e).publishers = net.publishers := by
  rw [keepLog]
  split <;> rfl

@[simp] theorem observers_keepLog (net : Network) (k : Nat) (e : Event) :
    (net.keepLog k e).observers = net.observers := by
  rw [keepLog]
  split <;> rfl

@[simp] theorem history_watch (net : Network) (manager listener : String) (p : Plan) :
    (net.watch manager listener p).history = net.history := by
  rw [watch]
  split <;> rfl

@[simp] theorem observers_watch (net : Network) (manager listener : String) (p : Plan) :
    (net.watch manager listener p).observers = net.observers := by
  rw [watch]
  split <;> rfl

@[simp] theorem history_unwatch (net : Network) (listener : String) :
    (net.unwatch listener).history = net.history := by
  rw [unwatch]
  split <;> rfl

@[simp] theorem observers_unwatch (net : Network) (listener : String) :
    (net.unwatch listener).observers = net.observers := by
  rw [unwatch]
  split <;> rfl

theorem exists_lines_ingest (net : Network) (i : Nat) (e : Event) :
    ∃ lines : List Line, (net.ingest i e).history = net.history ++ lines.map .wrote := by
  rw [ingest]
  split
  · exact ⟨[], (List.append_nil _).symm⟩
  · exact ⟨_, rfl⟩

theorem exists_lines_keepLog (net : Network) (k : Nat) (e : Event) :
    ∃ lines : List Line, (net.keepLog k e).history = net.history ++ lines.map .wrote := by
  rw [keepLog]
  split
  · exact ⟨[], (List.append_nil _).symm⟩
  · exact ⟨_, rfl⟩

@[simp] theorem publishers_settleOne (net : Network) (i : Nat) :
    (net.settleOne i).publishers = net.publishers := by
  rw [settleOne]
  split
  · rfl
  · split <;> rfl

/-- What no single turn changes, settling does not change. -/
theorem settle_keeps {α : Type} (f : Network → α)
    (hturn : ∀ (net : Network) (i : Nat), f (net.settleOne i) = f net) (net : Network) :
    f net.settle = f { net with unsettled := [] } := by
  have hfold : ∀ (turns : List Turn) (start : Network),
      f (turns.foldl (fun net t => net.settleOne t.indexer) start) = f start := by
    intro turns
    induction turns with
    | nil => exact fun _ => rfl
    | cons t turns ih =>
        intro start
        rw [List.foldl_cons, ih, hturn]
  exact hfold net.schedule { net with unsettled := [] }

@[simp] theorem publishers_settle (net : Network) : net.settle.publishers = net.publishers :=
  settle_keeps publishers publishers_settleOne net

theorem exists_lines_settleOne (net : Network) (i : Nat) :
    ∃ lines : List Line, (net.settleOne i).history = net.history ++ lines.map .wrote := by
  rw [settleOne]
  split
  · exact ⟨[], (List.append_nil _).symm⟩
  · split
    · exact ⟨[], (List.append_nil _).symm⟩
    · exact ⟨_, rfl⟩

theorem exists_lines_settle (net : Network) :
    ∃ lines : List Line, net.settle.history = net.history ++ lines.map .wrote := by
  have hfold : ∀ (turns : List Turn) (start : Network), ∃ lines : List Line,
      (turns.foldl (fun net t => net.settleOne t.indexer) start).history =
        start.history ++ lines.map .wrote := by
    intro turns
    induction turns with
    | nil => exact fun start => ⟨[], (List.append_nil _).symm⟩
    | cons t turns ih =>
        intro start
        obtain ⟨lines, hlines⟩ := exists_lines_settleOne start t.indexer
        obtain ⟨more, hmore⟩ := ih (start.settleOne t.indexer)
        exact ⟨lines ++ more, by
          rw [List.foldl_cons, hmore, hlines, List.append_assoc, List.map_append]⟩
  exact hfold net.schedule { net with unsettled := [] }

/-- An indexer that receives an event leaves lines behind its delivery. -/
theorem exists_change_ingest (net : Network) (emission handle : Nat) (e : Event) (i t : Nat) :
    ∃ lines : List Line, Change net (.delivered emission handle e (.indexer i t) ::
      lines.map .wrote) ((net.note (.delivered emission handle e (.indexer i t))).ingest i e) := by
  obtain ⟨lines, hlines⟩ :=
    exists_lines_ingest (net.note (.delivered emission handle e (.indexer i t))) i e
  refine ⟨lines, .ingested ?_⟩
  rw [hlines, note, List.append_assoc, List.singleton_append]

/-- A recorder that receives an event leaves lines behind its delivery. -/
theorem exists_change_keepLog (net : Network) (emission handle : Nat) (e : Event) (k : Nat) :
    ∃ lines : List Line, Change net (.delivered emission handle e (.recorder k) ::
      lines.map .wrote) ((net.note (.delivered emission handle e (.recorder k))).keepLog k e) := by
  obtain ⟨lines, hlines⟩ :=
    exists_lines_keepLog (net.note (.delivered emission handle e (.recorder k))) k e
  refine ⟨lines, .kept ?_⟩
  rw [hlines, note, List.append_assoc, List.singleton_append]

theorem Change.history_eq {net net' : Network} {added : List Happening}
    (h : Change net added net') : net'.history = net.history ++ added := by
  cases h with
  | committed _ _ => rfl
  | refused _ _ => rfl
  | wrote _ => rfl
  | announced _ _ => rfl
  | heard _ _ _ _ => rfl
  | ingested hhistory => exact hhistory
  | kept hhistory => exact hhistory
  | planned _ _ => exact (List.append_nil _).symm
  | brokenOff _ _ _ _ => rfl
  | acted _ _ _ => rfl
  | watched _ _ _ => rw [history_watch, List.append_nil]
  | unwatched _ => rw [history_unwatch, List.append_nil]
  | settled hhistory => exact hhistory

theorem Path.history_eq {net net' : Network} {added : List Happening} (h : Path net added net') :
    net'.history = net.history ++ added := by
  induction h with
  | refl _ => exact (List.append_nil _).symm
  | next hchange _ ih => rw [ih, hchange.history_eq, List.append_assoc]

/-! ### Managers and their names -/

theorem manager?_commit (net : Network) (handle g : Nat) (m : Manager) :
    (net.commit handle m).manager? g =
      (net.manager? g).map fun m' => if handle = g then m else m' := by
  rw [manager?, commit, Registry.get?_modify, manager?]
  cases net.publishers.get? g with
  | none => rfl
  | some p =>
      by_cases h : handle = g
      · simp [h]
      · simp [h]

@[simp] theorem manager?_subscribe (net : Network) (handle g : Nat) (s : Subscriber) :
    (net.subscribe handle s).manager? g = net.manager? g := by
  rw [manager?, subscribe, Registry.get?_modify, manager?]
  cases net.publishers.get? g with
  | none => rfl
  | some p =>
      by_cases h : handle = g
      · by_cases hs : s ∈ p.audience <;> simp [h, hs]
      · simp [h]

@[simp] theorem manager?_unsubscribe (net : Network) (handle g : Nat) (s : Subscriber) :
    (net.unsubscribe handle s).manager? g = net.manager? g := by
  rw [manager?, unsubscribe, Registry.get?_modify, manager?]
  cases net.publishers.get? g with
  | none => rfl
  | some p => by_cases h : handle = g <;> simp [h]

@[simp] theorem manager?_watch (net : Network) (manager listener : String) (p : Plan) (g : Nat) :
    (net.watch manager listener p).manager? g = net.manager? g := by
  rw [watch]
  split
  · rfl
  · next handle _ => exact manager?_subscribe _ handle g (.listener listener)

@[simp] theorem manager?_unwatch (net : Network) (listener : String) (g : Nat) :
    (net.unwatch listener).manager? g = net.manager? g := by
  rw [unwatch]
  split
  · rfl
  · exact manager?_unsubscribe ..

theorem Change.handle?_eq {net net' : Network} {added : List Happening}
    (h : Change net added net') : net'.publishers.handle? = net.publishers.handle? := by
  have hwatch : ∀ manager listener p,
      (net.watch manager listener p).publishers.handle? = net.publishers.handle? := by
    intro manager listener p
    rw [watch]
    split <;> rfl
  have hunwatch : ∀ listener,
      (net.unwatch listener).publishers.handle? = net.publishers.handle? := by
    intro listener
    rw [unwatch]
    split <;> rfl
  cases h with
  | committed _ _ => rfl
  | refused _ _ => rfl
  | wrote _ => rfl
  | announced _ _ => rfl
  | heard _ _ _ _ => rfl
  | ingested _ => rw [publishers_ingest]; rfl
  | kept _ => rw [publishers_keepLog]; rfl
  | planned _ _ => rfl
  | brokenOff _ _ _ _ => rfl
  | acted _ _ _ => rfl
  | watched manager listener p => exact hwatch manager listener p
  | unwatched listener => exact hunwatch listener
  | settled _ => rw [publishers_settle]

/-- No act gives a name to another manager. -/
theorem Path.handle?_eq {net net' : Network} {added : List Happening} (h : Path net added net') :
    net'.publishers.handle? = net.publishers.handle? := by
  induction h with
  | refl _ => rfl
  | next hchange _ ih => rw [ih, hchange.handle?_eq]

theorem Change.replays {net net' : Network} {added : List Happening} (h : Change net added net')
    {g : Nat} {m : Manager} (hm : net.manager? g = some m) :
    ∃ m', net'.manager? g = some m' ∧ m.Replays (Happening.calls g added) m' := by
  have hkept : ∀ {next : Network}, next.manager? g = net.manager? g →
      Happening.calls g added = [] →
        ∃ m', next.manager? g = some m' ∧ m.Replays (Happening.calls g added) m' := by
    intro next hnext hcalls
    rw [hcalls]
    exact ⟨m, hnext.trans hm, .refl m⟩
  cases h with
  | @committed handle n n' c r hmanager hperform =>
      have hnote : ((net.commit handle n').note (.called handle c (.ok r))).manager? g =
          (net.commit handle n').manager? g := rfl
      rw [hnote, manager?_commit, hm, Happening.calls_called_cons]
      by_cases hg : handle = g
      · have hnm : n = m := by
          rw [hg, hm] at hmanager
          exact (Option.some.inj hmanager).symm
        rw [hnm] at hperform
        exact ⟨n', by simp [hg], by rw [if_pos hg]; exact .of_ok hperform⟩
      · exact ⟨m, by simp [hg], by rw [if_neg hg]; exact .refl m⟩
  | @refused handle n c e hmanager hperform =>
      have hnote : (net.note (.called handle c (.error e))).manager? g = net.manager? g := rfl
      rw [hnote, hm, Happening.calls_called_cons]
      by_cases hg : handle = g
      · have hnm : n = m := by
          rw [hg, hm] at hmanager
          exact (Option.some.inj hmanager).symm
        rw [hnm] at hperform
        exact ⟨m, rfl, by rw [if_pos hg]; exact .of_error hperform⟩
      · exact ⟨m, rfl, by rw [if_neg hg]; exact .refl m⟩
  | wrote lines => exact hkept rfl (Happening.calls_wrote g lines)
  | announced _ _ => exact hkept rfl rfl
  | heard _ _ _ _ => exact hkept rfl rfl
  | ingested _ =>
      refine hkept ?_ (Happening.calls_wrote g _)
      rw [manager?, publishers_ingest]
      rfl
  | kept _ =>
      refine hkept ?_ (Happening.calls_wrote g _)
      rw [manager?, publishers_keepLog]
      rfl
  | planned _ _ => exact hkept rfl rfl
  | brokenOff _ _ _ _ => exact hkept rfl rfl
  | acted _ _ _ => exact hkept rfl rfl
  | watched manager listener p => exact hkept (manager?_watch ..) rfl
  | unwatched listener => exact hkept (manager?_unwatch ..) rfl
  | settled _ =>
      refine hkept ?_ (Happening.calls_wrote g _)
      rw [manager?, publishers_settle]
      rfl

/-- Every manager is where its calls in the history lead it, one after another. -/
theorem Path.replays {net net' : Network} {added : List Happening} (h : Path net added net')
    {g : Nat} {m : Manager} (hm : net.manager? g = some m) :
    ∃ m', net'.manager? g = some m' ∧ m.Replays (Happening.calls g added) m' := by
  induction h generalizing m with
  | refl _ => exact ⟨m, hm, .refl m⟩
  | next hchange _ ih =>
      obtain ⟨m₁, hm₁, hfirst⟩ := hchange.replays hm
      obtain ⟨m₂, hm₂, hrest⟩ := ih hm₁
      rw [Happening.calls_append]
      exact ⟨m₂, hm₂, hfirst.append hrest⟩

/-! ### Audiences -/

theorem audience_of_get? {net : Network} {g : Nat} {p : Publisher}
    (h : net.publishers.get? g = some p) : net.audience g = p.audience := by
  rw [audience, h]
  rfl

theorem audience_congr {net net' : Network} (h : net'.publishers = net.publishers) (g : Nat) :
    net'.audience g = net.audience g := by
  rw [audience, h, audience]

theorem audience_commit (net : Network) (handle : Nat) (m : Manager) (g : Nat) :
    (net.commit handle m).audience g = net.audience g := by
  rw [audience, commit, Registry.get?_modify, audience]
  cases net.publishers.get? g with
  | none => rfl
  | some p => by_cases h : handle = g <;> simp [h]

/-- Whoever subscribes to a manager comes last, unless it is there already. -/
theorem audience_subscribe {net : Network} {handle : Nat} {p : Publisher}
    (hp : net.publishers.get? handle = some p) (s : Subscriber) (g : Nat) :
    (net.subscribe handle s).audience g =
      if g = handle ∧ s ∉ net.audience handle then net.audience handle ++ [s]
      else net.audience g := by
  rw [audience, subscribe, Registry.get?_modify, audience_of_get? hp, audience]
  by_cases hg : g = handle
  · subst hg
    rw [hp]
    by_cases hs : s ∈ p.audience <;> simp [hs]
  · cases net.publishers.get? g <;> simp [hg, Ne.symm hg]

theorem audience_unsubscribe (net : Network) (handle : Nat) (s : Subscriber) (g : Nat) :
    (net.unsubscribe handle s).audience g =
      if g = handle then (net.audience handle).filter (· ≠ s) else net.audience g := by
  rw [audience, unsubscribe, Registry.get?_modify, audience, audience]
  by_cases hg : g = handle
  · subst hg
    cases net.publishers.get? g <;> simp
  · cases net.publishers.get? g <;> simp [hg, Ne.symm hg]

/-! ### Views -/

theorem view?_ingest (net : Network) (i j : Nat) (e : Event) :
    (net.ingest i e).view? j = (net.view? j).map fun v => if i = j then v.ingest e else v := by
  rw [ingest]
  split
  · next hnone =>
    by_cases h : i = j
    · rw [view?, ← h, hnone]
      rfl
    · simp [h]
  · next o ho =>
    change Option.map _ ((net.observers.modify i _).get? j) = _
    rw [Registry.get?_modify, view?]
    cases net.observers.get? j with
    | none => rfl
    | some o' =>
        by_cases h : i = j
        · simp [h, Indexer.ingest]
        · simp [h]

theorem view?_settleOne (net : Network) (i j : Nat) : (net.settleOne i).view? j = net.view? j := by
  rw [settleOne]
  split
  · rfl
  · next o ho =>
    split
    · rfl
    · next handle c _ =>
      have hview := o.indexer.view_settle c
      change Option.map _ ((net.observers.modify i _).get? j) = _
      rw [Registry.get?_modify, view?]
      by_cases h : i = j
      · rw [← h, ho]
        simp only [Option.map_eq_map, Option.map_some, if_true]
        exact congrArg some hview
      · cases net.observers.get? j <;> simp [h]

@[simp] theorem view?_settle (net : Network) (j : Nat) : net.settle.view? j = net.view? j :=
  settle_keeps (fun net => net.view? j) (fun net i => view?_settleOne net i j) net

theorem Change.view {net net' : Network} {added : List Happening} (h : Change net added net')
    (j : Nat) :
    net'.view? j = (net.view? j).map fun v => v.ingestAll (Happening.ingested j added) := by
  have hkept : ∀ {next : Network}, next.view? j = net.view? j →
      Happening.ingested j added = [] →
        next.view? j = (net.view? j).map fun v => v.ingestAll (Happening.ingested j added) := by
    intro next hnext hingested
    rw [hnext, hingested]
    simp only [View.ingestAll_nil, Option.map_id_fun', id_eq]
  cases h with
  | committed _ _ => exact hkept rfl rfl
  | refused _ _ => exact hkept rfl rfl
  | wrote lines => exact hkept rfl (Happening.ingested_wrote j lines)
  | announced _ _ => exact hkept rfl rfl
  | heard _ _ _ _ => exact hkept rfl rfl
  | @ingested emission handle e i t lines _ =>
      have hnote : (net.note (.delivered emission handle e (.indexer i t))).view? j =
          net.view? j := rfl
      have hingested : Happening.ingested j
          (.delivered emission handle e (.indexer i t) :: lines.map .wrote) =
            if i = j then [e] else [] := by
        rw [← List.singleton_append, Happening.ingested_append, Happening.ingested_wrote]
        by_cases hij : i = j <;> simp [Happening.ingested, Happening.ingestion?, hij]
      rw [view?_ingest, hnote, hingested]
      by_cases hij : i = j <;> simp [hij]
  | kept _ =>
      refine hkept ?_ (Happening.ingested_wrote j _)
      rw [view?, observers_keepLog]
      rfl
  | planned _ _ => exact hkept rfl rfl
  | brokenOff _ _ _ _ => exact hkept rfl rfl
  | acted _ _ _ => exact hkept rfl rfl
  | watched manager listener p =>
      refine hkept ?_ rfl
      rw [view?, observers_watch]
      rfl
  | unwatched listener =>
      refine hkept ?_ rfl
      rw [view?, observers_unwatch]
      rfl
  | settled _ => exact hkept (view?_settle ..) (Happening.ingested_wrote j _)

/-- Every view has ingested the events that its indexer received. -/
theorem Path.view {net net' : Network} {added : List Happening} (h : Path net added net')
    (j : Nat) :
    net'.view? j = (net.view? j).map fun v => v.ingestAll (Happening.ingested j added) := by
  induction h with
  | refl _ => simp [Happening.ingested]
  | next hchange _ ih =>
      rw [ih, hchange.view, Option.map_map, Happening.ingested_append]
      simp only [Function.comp_def, View.ingestAll_append]

end Network

end EpochClaims
