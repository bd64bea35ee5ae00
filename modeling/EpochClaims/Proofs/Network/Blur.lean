import EpochClaims.Network.Levels
import EpochClaims.Proofs.Network.Nesting

/-!
# Networks that look alike

A blur takes out of a network what an observer does not see: how calls are
spelled, some lines of the journal, and what listeners raise, unless it breaks off
a delivery. Two networks that
are the same when blurred look alike. If calls that look alike are performed
alike, as a `Blur` asks, then acts that look alike lead networks that look alike
to such networks again, and are answered alike (`act_of_blurred_eq`). The same
follows for moves (`moveAll_of_blurred_eq`). What is delivered is not blurred,
so everybody receives the same events (`received_of_blurred_eq`).
-/

namespace EpochClaims

/-- What an observer sees of calls, of refusals and of the journal. Calls that
look alike are performed alike and leave the same lines, and no line that tells
of a failure is seen. -/
structure Blur where
  call : Call → Call
  refusal : Refusal → Refusal
  keeps : Line → Bool
  perform_eq : ∀ (m : Manager) {c c' : Call}, call c = call c' →
    (m.perform c).mapError refusal = (m.perform c').mapError refusal
  lines_eq : ∀ (m : Manager) {c c' : Call}, call c = call c' →
    (m.lines c).filter keeps = (m.lines c').filter keeps
  keeps_failureLine : ∀ e message, keeps (failureLine e message) = false

/-- A failure as it is seen: only one that cannot be spelled is. -/
def Raised.seen (failure : Option Raised) : Option Raised :=
  failure.filter fun r => ¬ r.Legible

/-- What is seen of a failure tells what escapes from it. -/
theorem Raised.bind_seen (failure : Option Raised) :
    (seen failure).bind escaped? = failure.bind escaped? := by
  cases failure with
  | none => rfl
  | some r =>
      rw [seen, Option.filter_some]
      by_cases h : r.Legible
      · simp only [h, not_true, decide_false, Bool.false_eq_true, if_false]
        exact h.symm
      · simp [h]

mutual

/-- An act as it is seen. -/
def Act.blurred (b : Blur) : Act → Act
  | .call manager c => .call manager (b.call c)
  | .watch manager listener p => .watch manager listener (p.blurred b)
  | .unwatch listener => .unwatch listener

/-- A plan as it is seen. -/
def Plan.blurred (b : Blur) : Plan → Plan
  | .always failure => .always (Raised.seen failure)
  | .times count acts failure rest =>
    .times count (Act.allBlurred b acts) (Raised.seen failure) (rest.blurred b)

def Act.allBlurred (b : Blur) : List Act → List Act
  | [] => []
  | a :: acts => a.blurred b :: Act.allBlurred b acts

end

section

variable (b : Blur)

mutual

theorem Act.reactions_blurred : ∀ a : Act, (a.blurred b).reactions = a.reactions
  | .call _ _ => rfl
  | .watch _ _ p => p.reactions_blurred
  | .unwatch _ => rfl

theorem Plan.reactions_blurred : ∀ p : Plan, (p.blurred b).reactions = p.reactions
  | .always _ => rfl
  | .times count acts _ rest => by
      rw [Plan.blurred, Plan.reactions, Plan.reactions, Act.totalReactions_allBlurred acts,
        rest.reactions_blurred]

theorem Act.totalReactions_allBlurred :
    ∀ acts : List Act, Act.totalReactions (Act.allBlurred b acts) = Act.totalReactions acts
  | [] => rfl
  | a :: acts => by
      rw [Act.allBlurred, Act.totalReactions, Act.totalReactions, a.reactions_blurred,
        Act.totalReactions_allBlurred acts]

end

/-- The reactions stay the same but for what is not seen of them. -/
theorem Plan.next_blurred : ∀ p : Plan,
    (p.blurred b).next =
      (⟨Act.allBlurred b p.next.1.acts, Raised.seen p.next.1.failure⟩, p.next.2.blurred b)
  | .always _ => rfl
  | .times 0 _ _ rest => rest.next_blurred
  | .times (_ + 1) _ _ _ => rfl

theorem Plan.next_of_blurred_eq {p p' : Plan} (h : p.blurred b = p'.blurred b) :
    Act.allBlurred b p.next.1.acts = Act.allBlurred b p'.next.1.acts ∧
      p.next.1.failure.bind Raised.escaped? = p'.next.1.failure.bind Raised.escaped? ∧
        p.next.2.blurred b = p'.next.2.blurred b := by
  have hnext := congrArg Plan.next h
  rw [next_blurred, next_blurred, Prod.mk.injEq, Reaction.mk.injEq] at hnext
  obtain ⟨⟨hacts, hfailure⟩, hrest⟩ := hnext
  refine ⟨hacts, ?_, hrest⟩
  rw [← Raised.bind_seen, hfailure, Raised.bind_seen]

end

def Listener.blurred (b : Blur) (l : Listener) : Listener :=
  { l with plan := l.plan.blurred b }

def ActAnswer.blurred (b : Blur) : ActAnswer → ActAnswer
  | .called result m => .called (result.mapError b.refusal) m
  | .done => .done

/-- A move as it is seen. -/
def Move.blurred (b : Blur) : Move → Move
  | .act a => .act (a.blurred b)
  | .settle => .settle

/-- What is seen of a happening. -/
def Happening.blurred? (b : Blur) : Happening → Option Happening
  | .wrote line => if b.keeps line then some (.wrote line) else none
  | .called g c result => some (.called g (b.call c) (result.mapError b.refusal))
  | .acted listener a answer => some (.acted listener (a.blurred b) (answer.blurred b))
  | h => some h

/-- What is delivered is seen as it is. -/
theorem Happening.received_blurred (b : Blur) (g : Nat) (s : Subscriber)
    (history : List Happening) :
    received g s (history.filterMap (blurred? b)) = received g s history := by
  rw [received, List.filterMap_filterMap]
  refine congrArg (List.filterMap · history) (funext fun h => ?_)
  cases h with
  | wrote line => by_cases hkept : b.keeps line <;> simp [blurred?, hkept, delivery?]
  | called _ _ _ => rfl
  | announced _ _ _ _ => rfl
  | delivered _ _ _ _ => rfl
  | brokenOff _ _ _ _ => rfl
  | acted _ _ _ => rfl

theorem exists_of_mapError_eq {ε ε' α : Type} {f : ε → ε'} {x y : Except ε α}
    (h : x.mapError f = y.mapError f) :
    (∃ a, x = .ok a ∧ y = .ok a) ∨ ∃ e e', x = .error e ∧ y = .error e' ∧ f e = f e' := by
  cases x with
  | ok a =>
      cases y with
      | ok a' => exact .inl ⟨a, rfl, congrArg Except.ok (Except.ok.inj h).symm⟩
      | error _ => contradiction
  | error e =>
      cases y with
      | ok _ => contradiction
      | error e' => exact .inr ⟨e, e', rfl, rfl, Except.error.inj h⟩

namespace Registry

variable {α : Type} (f : α → α) (r : Registry α)

def mapAll : Registry α :=
  { r with objects := r.objects.map f }

theorem find?_mapAll (name : String) : (r.mapAll f).find? name = (r.find? name).map f := by
  rw [find?, find?, Option.map_bind]
  exact congrArg (r.handle? name).bind (funext fun _ => List.getElem?_map)

theorem total_mapAll {measure : α → Nat} (h : ∀ a, measure (f a) = measure a) :
    (r.mapAll f).total measure = r.total measure := by
  rw [total, mapAll, total]
  induction r.objects with
  | nil => rfl
  | cons a l ih => rw [List.map_cons, sumOf, sumOf, h, ih]

theorem mapAll_add (name : String) (a : α) :
    (r.add name a).mapAll f = (r.mapAll f).add name (f a) := by
  simp [add, mapAll, size]

theorem mapAll_ensure (name : String) (a : α) :
    (r.ensure name a).mapAll f = (r.mapAll f).ensure name (f a) := by
  have hhandle : (r.mapAll f).handle? name = r.handle? name := rfl
  rw [ensure, ensure, hhandle]
  cases r.handle? name with
  | some _ => rfl
  | none => exact mapAll_add f r name a

theorem mapAll_update {g g' : α → α} (h : ∀ a, f (g a) = g' (f a)) (name : String) :
    (r.update name g).mapAll f = (r.mapAll f).update name g' := by
  have hhandle : (r.mapAll f).handle? name = r.handle? name := rfl
  rw [update, update, hhandle]
  cases r.handle? name with
  | none => rfl
  | some i =>
      have hobjects : (r.objects.modify i g).map f = (r.objects.map f).modify i g' := by
        refine List.ext_getElem? fun j => ?_
        simp only [List.getElem?_map, List.getElem?_modify, Option.map_eq_map, Option.map_map]
        refine congrArg (Option.map · r.objects[j]?) (funext fun a => ?_)
        by_cases hij : i = j <;> simp [hij, h]
      exact congrArg (Registry.mk · r.names) hobjects

end Registry

namespace Network

/-- What is seen of a network. -/
def blurred (b : Blur) (net : Network) : Network :=
  { net with
    listeners := net.listeners.mapAll (Listener.blurred b)
    history := net.history.filterMap (Happening.blurred? b) }

variable {b : Blur} {net net' : Network}

theorem reactions_blurred (net : Network) : (net.blurred b).reactions = net.reactions :=
  net.listeners.total_mapAll (Listener.blurred b) fun l => l.plan.reactions_blurred b

/-! ### The parts of an act -/

theorem blurred_note (net : Network) (h : Happening) :
    (net.note h).blurred b =
      { net.blurred b with history := (net.blurred b).history ++ (h.blurred? b).toList } := by
  rw [blurred, note, blurred]
  cases hh : h.blurred? b <;> simp [hh]

theorem blurred_write (net : Network) (lines : List Line) :
    (net.write lines).blurred b = (net.blurred b).write (lines.filter b.keeps) := by
  have hlines : (lines.map Happening.wrote).filterMap (Happening.blurred? b) =
      (lines.filter b.keeps).map .wrote := by
    induction lines with
    | nil => rfl
    | cons line lines ih =>
        rw [List.map_cons, List.filterMap_cons, List.filter_cons, Happening.blurred?, ih]
        by_cases h : b.keeps line <;> simp [h]
  rw [blurred, write, blurred, write]
  simp only [List.filterMap_append, hlines]

/-- A failure leaves nothing but its line. -/
theorem blurred_write_failureLine (net : Network) (e : Event) (message : String) :
    (net.write [failureLine e message]).blurred b = net.blurred b := by
  rw [blurred_write, List.filter_cons, b.keeps_failureLine]
  simp [write]

theorem blurred_plan (net : Network) (listener : String) (p : Plan) :
    (net.plan listener p).blurred b = (net.blurred b).plan listener (p.blurred b) := by
  have hlisteners : (net.listeners.update listener fun l => { l with plan := p }).mapAll
      (Listener.blurred b) = (net.listeners.mapAll (Listener.blurred b)).update listener fun l =>
        { l with plan := p.blurred b } :=
    Registry.mapAll_update _ _ (by intro _; rfl) listener
  rw [blurred, plan, hlisteners]
  rfl

theorem blurred_watch (net : Network) (manager listener : String) (p : Plan) :
    (net.watch manager listener p).blurred b =
      (net.blurred b).watch manager listener (p.blurred b) := by
  have hpublishers : (net.blurred b).publishers = net.publishers := rfl
  rw [watch, watch, hpublishers]
  cases net.publishers.handle? manager with
  | none => rfl
  | some g =>
      have hlisteners : ((net.listeners.ensure listener ⟨p, g⟩).update listener fun l =>
          { l with latest := g }).mapAll (Listener.blurred b) =
            ((net.listeners.ensure listener ⟨p, g⟩).mapAll (Listener.blurred b)).update listener
              fun l => { l with latest := g } :=
        Registry.mapAll_update _ _ (by intro _; rfl) listener
      rw [Registry.mapAll_ensure] at hlisteners
      simp only [subscribe, blurred, hlisteners]
      rfl

theorem blurred_unwatch (net : Network) (listener : String) :
    (net.unwatch listener).blurred b = (net.blurred b).unwatch listener := by
  have hfind : (net.blurred b).listeners.find? listener =
      (net.listeners.find? listener).map (Listener.blurred b) := Registry.find?_mapAll ..
  rw [unwatch, unwatch, hfind]
  cases net.listeners.find? listener <;> rfl

/-! ### Acts that look alike -/

theorem publishers_of_blurred_eq (h : net.blurred b = net'.blurred b) :
    net.publishers = net'.publishers := by
  change (net.blurred b).publishers = (net'.blurred b).publishers
  rw [h]

theorem observers_of_blurred_eq (h : net.blurred b = net'.blurred b) :
    net.observers = net'.observers := by
  change (net.blurred b).observers = (net'.blurred b).observers
  rw [h]

theorem blurred_note_congr (h : net.blurred b = net'.blurred b) {x x' : Happening}
    (hx : x.blurred? b = x'.blurred? b) : (net.note x).blurred b = (net'.note x').blurred b := by
  rw [blurred_note, blurred_note, h, hx]

theorem blurred_write_congr (h : net.blurred b = net'.blurred b) {lines lines' : List Line}
    (hlines : lines.filter b.keeps = lines'.filter b.keeps) :
    (net.write lines).blurred b = (net'.write lines').blurred b := by
  rw [blurred_write, blurred_write, h, hlines]

theorem blurred_ingest (h : net.blurred b = net'.blurred b) (i : Nat) (e : Event) :
    (net.ingest i e).blurred b = (net'.ingest i e).blurred b := by
  rw [ingest, ingest, observers_of_blurred_eq h]
  cases net'.observers.get? i with
  | none => exact h
  | some o =>
      refine blurred_write_congr ?_ rfl
      exact congrArg (fun net : Network =>
        { net with
          observers := net'.observers.modify i fun o => { o with indexer := o.indexer.ingest e }
          unsettled := net.unsettled ++ (o.indexer.writeOf e).map fun _ => i }) h

theorem blurred_keepLog (h : net.blurred b = net'.blurred b) (k : Nat) (e : Event) :
    (net.keepLog k e).blurred b = (net'.keepLog k e).blurred b := by
  rw [keepLog, keepLog]
  cases EventLog.encode e with
  | ok log =>
      exact congrArg (fun net : Network =>
        { net with records := net.records.modify k fun l => l ++ log.toList }) h
  | error fault =>
      rw [blurred_write_failureLine, blurred_write_failureLine]
      exact h

/-- A meaning of acts that looks alike wherever acts and networks do. -/
def Respects (b : Blur) (inner : Network → Act → Network × ActAnswer) : Prop :=
  ∀ (net net' : Network) (a a' : Act), net.blurred b = net'.blurred b →
    a.blurred b = a'.blurred b →
      (inner net a).1.blurred b = (inner net' a').1.blurred b ∧
        (inner net a).2.blurred b = (inner net' a').2.blurred b

variable {inner : Network → Act → Network × ActAnswer}

theorem blurred_performAll (hinner : Respects b inner) (listener : String) (acts : List Act) :
    ∀ (acts' : List Act) (net net' : Network), Act.allBlurred b acts = Act.allBlurred b acts' →
      net.blurred b = net'.blurred b →
        (net.performAll inner listener acts).blurred b =
          (net'.performAll inner listener acts').blurred b := by
  induction acts with
  | nil =>
      intro acts' net net' hacts h
      cases acts' with
      | nil => exact h
      | cons _ _ => contradiction
  | cons a acts ih =>
      intro acts' net net' hacts h
      cases acts' with
      | nil => contradiction
      | cons a' acts' =>
          obtain ⟨ha, hrest⟩ := List.cons.inj hacts
          obtain ⟨hafter, hanswer⟩ := hinner net net' a a' h ha
          have hacted : (Happening.acted listener a (inner net a).2).blurred? b =
              (Happening.acted listener a' (inner net' a').2).blurred? b := by
            rw [Happening.blurred?, Happening.blurred?, ha, hanswer]
          exact ih acts' _ _ hrest (blurred_note_congr hafter hacted)

theorem blurred_fail (net : Network) (e : Event) (raised : Raised) :
    (net.fail e raised).1.blurred b = net.blurred b ∧
      (net.fail e raised).2 = raised.escaped? := by
  rw [fail, Raised.escaped?]
  cases raised.message with
  | ok message => exact ⟨blurred_write_failureLine .., rfl⟩
  | error _ => exact ⟨rfl, rfl⟩

/-- A listener that hears an event leads where its acts lead, but for the line
of its failure, and lets what cannot be spelled escape. -/
theorem blurred_react_eq (inner : Network → Act → Network × ActAnswer) {listener : String}
    {l : Listener} (hl : net.listeners.find? listener = some l) (e : Event) :
    (net.react inner listener e).1.blurred b =
        ((net.plan listener l.plan.next.2).performAll inner listener
          l.plan.next.1.acts).blurred b ∧
      (net.react inner listener e).2 = l.plan.next.1.failure.bind Raised.escaped? := by
  rw [react, hl]
  dsimp only
  cases l.plan.next.1.failure with
  | none => exact ⟨rfl, rfl⟩
  | some raised => exact blurred_fail ..

theorem blurred_react (hinner : Respects b inner) (h : net.blurred b = net'.blurred b)
    (listener : String) (e : Event) :
    (net.react inner listener e).1.blurred b = (net'.react inner listener e).1.blurred b ∧
      (net.react inner listener e).2 = (net'.react inner listener e).2 := by
  have hfind : (net.listeners.find? listener).map (Listener.blurred b) =
      (net'.listeners.find? listener).map (Listener.blurred b) := by
    rw [← Registry.find?_mapAll, ← Registry.find?_mapAll]
    exact congrArg (fun net : Network => net.listeners.find? listener) h
  cases hl : net.listeners.find? listener with
  | none =>
      rw [hl, Option.map_none, eq_comm, Option.map_eq_none_iff] at hfind
      rw [react, react, hl, hfind]
      exact ⟨h, rfl⟩
  | some l =>
      rw [hl, Option.map_some, eq_comm, Option.map_eq_some_iff] at hfind
      obtain ⟨l', hl', hsame⟩ := hfind
      obtain ⟨hacts, hescaped, hrest⟩ :=
        Plan.next_of_blurred_eq b (congrArg Listener.plan hsame.symm)
      have hplanned : (net.plan listener l.plan.next.2).blurred b =
          (net'.plan listener l'.plan.next.2).blurred b := by
        rw [blurred_plan, blurred_plan, h, hrest]
      obtain ⟨hafter, hleft⟩ := blurred_react_eq (b := b) inner hl e
      obtain ⟨hafter', hleft'⟩ := blurred_react_eq (b := b) inner hl' e
      rw [hafter, hafter', hleft, hleft']
      exact ⟨blurred_performAll hinner listener _ _ _ _ hacts hplanned, hescaped⟩

theorem blurred_receive (hinner : Respects b inner) (emission g : Nat) (e : Event)
    (h : net.blurred b = net'.blurred b) (s : Subscriber) :
    (receive inner emission g e net s).1.blurred b =
        (receive inner emission g e net' s).1.blurred b ∧
      (receive inner emission g e net s).2 = (receive inner emission g e net' s).2 := by
  have hnoted : (net.note (.delivered emission g e s)).blurred b =
      (net'.note (.delivered emission g e s)).blurred b := blurred_note_congr h rfl
  cases s with
  | listener name => exact blurred_react hinner hnoted name e
  | indexer i _ => exact ⟨blurred_ingest hnoted i e, rfl⟩
  | recorder k => exact ⟨blurred_keepLog hnoted k e, rfl⟩

/-- Deliveries that look alike go equally far. -/
theorem blurred_deliver (hinner : Respects b inner) (emission g : Nat) (e : Event)
    (audience : List Subscriber) :
    ∀ net net' : Network, net.blurred b = net'.blurred b →
      (deliver inner emission g e net audience).1.blurred b =
          (deliver inner emission g e net' audience).1.blurred b ∧
        (deliver inner emission g e net audience).2 =
          (deliver inner emission g e net' audience).2 := by
  induction audience with
  | nil => exact fun _ _ h => ⟨h, rfl⟩
  | cons s audience ih =>
      intro net net' h
      have hreceived := blurred_receive hinner emission g e h s
      rw [deliver, deliver]
      cases hpair : receive inner emission g e net s with
      | mk after escaped =>
          cases hpair' : receive inner emission g e net' s with
          | mk after' escaped' =>
              rw [hpair, hpair'] at hreceived
              obtain ⟨hafter, rfl⟩ := hreceived
              cases escaped with
              | none => exact ih after after' hafter
              | some escaped => exact ⟨blurred_note_congr hafter rfl, rfl⟩

theorem blurred_announce (hinner : Respects b inner) (h : net.blurred b = net'.blurred b)
    (g : Nat) (e : Event) :
    (net.announce inner g e).1.blurred b = (net'.announce inner g e).1.blurred b ∧
      (net.announce inner g e).2 = (net'.announce inner g e).2 := by
  have haudience : net.audience g = net'.audience g :=
    audience_congr (publishers_of_blurred_eq h) g
  have hemissions : net.emissions = net'.emissions := by
    change (net.blurred b).emissions = (net'.blurred b).emissions
    rw [h]
  have hcounted : net.countEmission.blurred b = net'.countEmission.blurred b :=
    congrArg countEmission h
  have hannounce : ∀ net : Network, net.announce inner g e =
      deliver inner net.emissions g e (net.countEmission.note
        (.announced net.emissions g e (net.audience g))) (net.audience g) := fun _ => rfl
  rw [hannounce, hannounce, haudience, hemissions]
  exact blurred_deliver hinner _ g e _ _ _ (blurred_note_congr hcounted rfl)

theorem blurred_call (hinner : Respects b inner) (h : net.blurred b = net'.blurred b)
    (g : Nat) (m : Manager) {c c' : Call} (hc : b.call c = b.call c') :
    (net.call inner g m c).1.blurred b = (net'.call inner g m c').1.blurred b ∧
      (net.call inner g m c).2.mapError b.refusal =
        (net'.call inner g m c').2.mapError b.refusal := by
  have hlines := b.lines_eq m hc
  -- Both calls are committed with the same reply, or both are refused alike.
  rcases exists_of_mapError_eq (b.perform_eq m hc) with
    ⟨r, hperform, hperform'⟩ | ⟨e, e', hperform, hperform', hrefusal⟩
  · have hcommitted : (net.commit g r.1).blurred b = (net'.commit g r.1).blurred b :=
      congrArg (fun net : Network => net.commit g r.1) h
    have hcalled : (Happening.called g c (.ok r.2)).blurred? b =
        (Happening.called g c' (.ok r.2)).blurred? b := by
      rw [Happening.blurred?, Happening.blurred?, hc]
    have hwritten := blurred_write_congr (blurred_note_congr hcommitted hcalled) hlines
    rw [call, call, hperform, hperform']
    obtain ⟨hafter, hescaped⟩ := blurred_announce hinner hwritten g r.2.event
    exact ⟨hafter, congrArg (fun escaped => Except.ok (r.2, escaped)) hescaped⟩
  · have hcalled : (Happening.called g c (.error e)).blurred? b =
        (Happening.called g c' (.error e')).blurred? b := by
      rw [Happening.blurred?, Happening.blurred?, hc, Except.mapError, Except.mapError, hrefusal]
    rw [call, call, hperform, hperform']
    exact ⟨blurred_write_congr (blurred_note_congr h hcalled) hlines,
      congrArg Except.error hrefusal⟩

/-- A call by name is answered alike, by a manager that is the same afterwards. -/
theorem performWith_call_of_blurred_eq (hinner : Respects b inner)
    (h : net.blurred b = net'.blurred b) (name : String) {c c' : Call}
    (hc : b.call c = b.call c') :
    (performWith inner net (.call name c)).1.blurred b =
        (performWith inner net' (.call name c')).1.blurred b ∧
      (performWith inner net (.call name c)).2.blurred b =
        (performWith inner net' (.call name c')).2.blurred b := by
  simp only [performWith, ← publishers_of_blurred_eq h]
  cases net.publishers.handle? name with
  | none => exact ⟨h, rfl⟩
  | some g =>
      cases hget : net.publishers.get? g with
      | none =>
          simp only [hget]
          exact ⟨h, trivial⟩
      | some p =>
          simp only [hget]
          obtain ⟨hafter, hresult⟩ := blurred_call hinner h g p.manager hc
          refine ⟨hafter, ?_⟩
          rw [answer, answer, publishers_of_blurred_eq hafter]
          cases (net'.call inner g p.manager c').1.publishers.get? g with
          | none => rfl
          | some q => exact congrArg (ActAnswer.called · q.manager) hresult

theorem respects_performWith (hinner : Respects b inner) : Respects b (performWith inner) := by
  intro net net' a a' h ha
  cases a with
  | watch manager listener p =>
      cases a' with
      | watch manager' listener' p' =>
          obtain ⟨rfl, rfl, hp⟩ := Act.watch.inj ha
          refine ⟨?_, rfl⟩
          change (net.watch manager listener p).blurred b =
            (net'.watch manager listener p').blurred b
          rw [blurred_watch, blurred_watch, h, hp]
      | _ => contradiction
  | unwatch listener =>
      cases a' with
      | unwatch listener' =>
          obtain rfl := Act.unwatch.inj ha
          refine ⟨?_, rfl⟩
          change (net.unwatch listener).blurred b = (net'.unwatch listener).blurred b
          rw [blurred_unwatch, blurred_unwatch, h]
      | _ => contradiction
  | call name c =>
      cases a' with
      | call name' c' =>
          obtain ⟨rfl, hc⟩ := Act.call.inj ha
          exact performWith_call_of_blurred_eq hinner h name hc
      | _ => contradiction

theorem respects_perform (levels : Nat) : Respects b (perform levels) := by
  induction levels with
  | zero => exact respects_performWith fun _ _ _ _ h _ => ⟨h, rfl⟩
  | succ levels ih => exact respects_performWith ih

/-- Acts that look alike are answered alike, and lead networks that look alike
to such networks again. -/
theorem act_of_blurred_eq {a a' : Act} (h : net.blurred b = net'.blurred b)
    (ha : a.blurred b = a'.blurred b) :
    (net.act a).1.blurred b = (net'.act a').1.blurred b ∧
      (net.act a).2.blurred b = (net'.act a').2.blurred b := by
  -- The plans have as many reactions when blurred, so acts may nest as deep.
  have hlevels : net.reactions + a.reactions = net'.reactions + a'.reactions := by
    rw [← reactions_blurred (b := b) net, ← a.reactions_blurred b, h, ha, reactions_blurred,
      a'.reactions_blurred]
  rw [act, act, hlevels]
  exact respects_perform _ net net' a a' h ha

/-! ### Moves that look alike -/

theorem caches_of_blurred_eq (h : net.blurred b = net'.blurred b) : net.caches = net'.caches := by
  change (net.blurred b).caches = (net'.blurred b).caches
  rw [h]

theorem cacheOf?_of_blurred_eq (h : net.blurred b = net'.blurred b) :
    net.cacheOf? = net'.cacheOf? := by
  funext o
  rw [cacheOf?, cacheOf?, caches_of_blurred_eq h]

theorem schedule_of_blurred_eq (h : net.blurred b = net'.blurred b) :
    net.schedule = net'.schedule := by
  have hspans : net.spansOf = net'.spansOf := by
    funext i
    rw [spansOf, spansOf, observers_of_blurred_eq h, cacheOf?_of_blurred_eq h]
  have hunsettled : net.unsettled = net'.unsettled := by
    change (net.blurred b).unsettled = (net'.blurred b).unsettled
    rw [h]
  rw [schedule, schedule, hspans, hunsettled]

theorem blurred_settleOne (h : net.blurred b = net'.blurred b) (i : Nat) :
    (net.settleOne i).blurred b = (net'.settleOne i).blurred b := by
  rw [settleOne, settleOne, observers_of_blurred_eq h, cacheOf?_of_blurred_eq h]
  cases net'.observers.get? i with
  | none => exact h
  | some o =>
      dsimp only
      cases net'.cacheOf? o with
      | none => exact h
      | some kept =>
          refine blurred_write_congr ?_ rfl
          exact congrArg (fun net : Network =>
            { net with
              observers := net'.observers.modify i fun x =>
                { x with indexer := (o.indexer.settle kept.2).1 }
              caches := net.caches.modify kept.1 fun _ => (o.indexer.settle kept.2).2.1 }) h

theorem blurred_settle (h : net.blurred b = net'.blurred b) :
    net.settle.blurred b = net'.settle.blurred b := by
  have hrested : { net with unsettled := [] }.blurred b = { net' with unsettled := [] }.blurred b :=
    congrArg (fun net : Network => { net with unsettled := [] }) h
  rw [settle, settle, schedule_of_blurred_eq h]
  generalize net'.schedule = turns
  revert hrested
  generalize { net with unsettled := [] } = rested, { net' with unsettled := [] } = rested'
  induction turns generalizing rested rested' with
  | nil => exact id
  | cons t turns ih => exact fun hrested => ih _ _ (blurred_settleOne hrested t.indexer)

theorem move_of_blurred_eq {move move' : Move} (h : net.blurred b = net'.blurred b)
    (hmove : move.blurred b = move'.blurred b) :
    (net.move move).1.blurred b = (net'.move move').1.blurred b ∧
      (net.move move).2.blurred b = (net'.move move').2.blurred b := by
  cases move with
  | act a =>
      cases move' with
      | act a' => exact act_of_blurred_eq h (Move.act.inj hmove)
      | settle => contradiction
  | settle =>
      cases move' with
      | act _ => contradiction
      | settle => exact ⟨blurred_settle h, rfl⟩

/-- Moves that look alike are answered alike, and lead networks that look alike
to such networks again. -/
theorem moveAll_of_blurred_eq (moves : List Move) :
    ∀ (moves' : List Move) (net net' : Network),
      moves.map (Move.blurred b) = moves'.map (Move.blurred b) →
        net.blurred b = net'.blurred b →
          (net.moveAll moves).1.blurred b = (net'.moveAll moves').1.blurred b ∧
            (net.moveAll moves).2.map (ActAnswer.blurred b) =
              (net'.moveAll moves').2.map (ActAnswer.blurred b) := by
  induction moves with
  | nil =>
      intro moves' net net' hmoves h
      cases moves' with
      | nil => exact ⟨h, rfl⟩
      | cons _ _ => contradiction
  | cons move moves ih =>
      intro moves' net net' hmoves h
      cases moves' with
      | nil => contradiction
      | cons move' moves' =>
          obtain ⟨hmove, hrest⟩ := List.cons.inj hmoves
          obtain ⟨hafter, hanswer⟩ := move_of_blurred_eq h hmove
          obtain ⟨hend, hanswers⟩ := ih moves' _ _ hrest hafter
          exact ⟨hend, List.cons_eq_cons.2 ⟨hanswer, hanswers⟩⟩

/-- What is seen of what happens is the same. -/
theorem happened_of_blurred_eq {moves moves' : List Move}
    (hmoves : moves.map (Move.blurred b) = moves'.map (Move.blurred b))
    (h : net.blurred b = net'.blurred b) :
    (net.happened moves).filterMap (Happening.blurred? b) =
      (net'.happened moves').filterMap (Happening.blurred? b) := by
  -- The histories agree before and after the moves, hence in what is between.
  have hbefore : net.history.filterMap (Happening.blurred? b) =
      net'.history.filterMap (Happening.blurred? b) := congrArg Network.history h
  have hafter := congrArg Network.history (moveAll_of_blurred_eq moves moves' net net' hmoves h).1
  change (net.moveAll moves).1.history.filterMap (Happening.blurred? b) =
    (net'.moveAll moves').1.history.filterMap (Happening.blurred? b) at hafter
  rw [(net.path_happened moves).history_eq, (net'.path_happened moves').history_eq,
    List.filterMap_append, List.filterMap_append, hbefore] at hafter
  exact List.append_cancel_left hafter

/-- Everybody receives the same events. -/
theorem received_of_blurred_eq {moves moves' : List Move}
    (hmoves : moves.map (Move.blurred b) = moves'.map (Move.blurred b))
    (h : net.blurred b = net'.blurred b) (g : Nat) (s : Subscriber) :
    Happening.received g s (net.happened moves) =
      Happening.received g s (net'.happened moves') := by
  rw [← Happening.received_blurred b, happened_of_blurred_eq hmoves h, Happening.received_blurred]

end Network

end EpochClaims
