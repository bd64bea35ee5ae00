import EpochClaims.Proofs.Network.Effect

/-!
# Failures that can be spelled

A delivery breaks off only where a listener raises something that cannot be
spelled. `failures` lists what listeners may ever raise under the plans of a
network or an act. If all of this can be spelled, it stays so whatever is done,
and no delivery breaks off: `Intact` says this of one network and a later one,
and every part of an act is shown to leave the network intact, as are all other
commands (`IsReached.intact`).
-/

namespace EpochClaims

open Happening

mutual

/-- What listeners may raise under the plans of an act. -/
def Act.failures : Act → List Raised
  | .call _ _ => []
  | .watch _ _ p => p.failures
  | .unwatch _ => []

/-- What listeners may raise under a plan and those of its acts. -/
def Plan.failures : Plan → List Raised
  | .always failure => failure.toList
  | .times _ acts failure rest => Act.allFailures acts ++ (failure.toList ++ rest.failures)

def Act.allFailures : List Act → List Raised
  | [] => []
  | a :: acts => a.failures ++ Act.allFailures acts

end

namespace Plan

def Legible (p : Plan) : Prop := ∀ r ∈ p.failures, r.Legible

instance (p : Plan) : Decidable p.Legible :=
  inferInstanceAs (Decidable (∀ r ∈ p.failures, r.Legible))

/-- What is raised at the next event, and later, was raised under the plan. -/
theorem Legible.next : ∀ {p : Plan}, p.Legible →
    (∀ r ∈ Act.allFailures p.next.1.acts, r.Legible) ∧
      (∀ r ∈ p.next.1.failure, r.Legible) ∧ p.next.2.Legible
  | always _, h => ⟨fun _ hr => absurd hr List.not_mem_nil,
      fun r hr => h r (Option.mem_toList.2 hr), h⟩
  | times 0 _ _ rest, h => by
      have hrest : rest.Legible := fun r hr =>
        h r (List.mem_append_right _ (List.mem_append_right _ hr))
      exact hrest.next
  | times (count + 1) acts failure rest, h => by
      obtain ⟨hacts, hrest⟩ := List.forall_mem_append.1 h
      exact ⟨hacts, fun r hr => hrest r (List.mem_append_left _ (Option.mem_toList.2 hr)), h⟩

end Plan

def Act.Legible (a : Act) : Prop := ∀ r ∈ a.failures, r.Legible

instance (a : Act) : Decidable a.Legible :=
  inferInstanceAs (Decidable (∀ r ∈ a.failures, r.Legible))

/-- All that an act from outside lets listeners raise can be spelled. -/
def Move.Legible : Move → Prop
  | act a => a.Legible
  | settle => True

instance : (move : Move) → Decidable move.Legible
  | .act a => inferInstanceAs (Decidable a.Legible)
  | .settle => inferInstanceAs (Decidable True)

/-- All that a command lets listeners raise can be spelled. -/
def Command.Legible : Command → Prop
  | act a => a.Legible
  | _ => True

instance : (c : Command) → Decidable c.Legible
  | .act a => inferInstanceAs (Decidable a.Legible)
  | .configure _ _ | .establish _ _ | .record _ _ | .recorded _ | .replay _ _ | .openCache _ _
  | .openIndexer _ _ _ | .attach _ _ | .detach _ | .ingest _ _ | .inspect _ | .finalized _ _
  | .flush _ | .getEntry _ _ _ | .setEntry _ _ _ _ | .deleteEntry _ _ _ | .clearEntries _ _ =>
    inferInstanceAs (Decidable True)

namespace Registry

variable {α : Type} {p : α → Prop} {r : Registry α}

theorem forall_modify (h : ∀ a ∈ r.objects, p a) {f : α → α} (hf : ∀ a, p a → p (f a)) (i : Nat) :
    ∀ a ∈ (r.modify i f).objects, p a := by
  intro b hb
  obtain ⟨j, hj⟩ := List.mem_iff_getElem?.1 hb
  change (r.modify i f).get? j = some b at hj
  rw [get?_modify] at hj
  obtain ⟨a, ha, rfl⟩ := Option.map_eq_some_iff.1 hj
  have hmem := h a (List.mem_of_getElem? ha)
  by_cases hij : i = j
  · rw [if_pos hij]
    exact hf a hmem
  · rwa [if_neg hij]

theorem forall_update (h : ∀ a ∈ r.objects, p a) {f : α → α} (hf : ∀ a, p a → p (f a))
    (name : String) : ∀ a ∈ (r.update name f).objects, p a := by
  rw [update]
  split
  · exact forall_modify h hf _
  · exact h

theorem forall_ensure (h : ∀ a ∈ r.objects, p a) {a : α} (ha : p a) (name : String) :
    ∀ b ∈ (r.ensure name a).objects, p b := by
  rw [ensure]
  split
  · exact h
  · exact List.forall_mem_append.2 ⟨h, List.forall_mem_singleton.2 ha⟩

theorem mem_of_find? {name : String} {a : α} (h : r.find? name = some a) : a ∈ r.objects := by
  obtain ⟨i, -, hi⟩ := Option.bind_eq_some_iff.1 h
  exact List.mem_of_getElem? hi

end Registry

namespace Network

/-- All that listeners may raise can be spelled. -/
def Legible (net : Network) : Prop := ∀ l ∈ net.listeners.objects, l.plan.Legible

variable {net net' : Network}

/-- All that listeners may raise can be spelled, and no delivery broke off on the
way from one network to another. -/
structure Intact (net net' : Network) : Prop where
  legible : net'.Legible
  breakers_eq : ∀ g, breakers g net'.history = breakers g net.history

theorem Intact.refl (hnet : net.Legible) : net.Intact net := ⟨hnet, fun _ => rfl⟩

theorem Intact.trans {last : Network} (h : net.Intact net') (hmore : net'.Intact last) :
    net.Intact last :=
  ⟨hmore.legible, fun g => (hmore.breakers_eq g).trans (h.breakers_eq g)⟩

theorem Intact.of_history_eq (hnet : net.Legible) (hlisteners : net'.listeners = net.listeners)
    {added : List Happening} (hhistory : net'.history = net.history ++ added)
    (hadded : ∀ g, breakers g added = []) : net.Intact net' where
  legible := by rwa [Legible, hlisteners]
  breakers_eq := by
    intro g
    rw [hhistory, breakers_append, hadded, List.append_nil]

theorem Still.intact (h : net.Still net') (hnet : net.Legible) : net.Intact net' := by
  obtain ⟨lines, hlines⟩ := h.exists_lines
  exact .of_history_eq hnet h.listeners_eq hlines fun g => filterMap_wrote (fun _ => rfl) lines

theorem Intact.kept {last : Network} (h : net.Intact net')
    (hlisteners : last.listeners = net'.listeners) (hhistory : last.history = net'.history) :
    net.Intact last where
  legible := by
    rw [Legible, hlisteners]
    exact h.legible
  breakers_eq := by
    intro g
    rw [hhistory, h.breakers_eq]

theorem Intact.counted (h : net.Intact net') : net.Intact net'.countEmission :=
  h.kept rfl rfl

theorem Intact.noted (h : net.Intact net') {x : Happening} (hx : ∀ g, x.breaker? g = none) :
    net.Intact (net'.note x) := by
  refine h.trans (.of_history_eq h.legible rfl rfl fun g => ?_)
  rw [breakers, List.filterMap_cons, hx]
  rfl

theorem Intact.wrote (h : net.Intact net') (lines : List Line) : net.Intact (net'.write lines) :=
  h.trans (.of_history_eq h.legible rfl rfl fun _ => filterMap_wrote (fun _ => rfl) lines)

theorem intact_watch (hnet : net.Legible) {p : Plan} (hp : p.Legible) (manager listener : String) :
    net.Intact (net.watch manager listener p) := by
  rw [watch]
  split
  · exact .refl hnet
  · next g _ =>
    refine ⟨?_, fun _ => rfl⟩
    have hensured := Registry.forall_ensure (p := fun l : Listener => l.plan.Legible) hnet
      (a := ⟨p, g⟩) hp listener
    exact Registry.forall_update hensured (f := fun l => { l with latest := g }) (fun _ hl => hl)
      listener

theorem intact_unwatch (hnet : net.Legible) (listener : String) :
    net.Intact (net.unwatch listener) := by
  rw [unwatch]
  split
  · exact .refl hnet
  · exact ⟨hnet, fun _ => rfl⟩

theorem intact_plan (hnet : net.Legible) {p : Plan} (hp : p.Legible) (listener : String) :
    net.Intact (net.plan listener p) :=
  ⟨Registry.forall_update hnet (fun _ _ => hp) listener, fun _ => rfl⟩

/-! ### Acts -/

/-- A meaning of acts that leaves networks intact. -/
def KeepsIntact (inner : Network → Act → Network × ActAnswer) : Prop :=
  ∀ (net : Network) (a : Act), net.Legible → a.Legible → net.Intact (inner net a).1

variable {inner : Network → Act → Network × ActAnswer}

theorem intact_performAll (hinner : KeepsIntact inner) (listener : String) (acts : List Act) :
    ∀ net : Network, net.Legible → (∀ r ∈ Act.allFailures acts, r.Legible) →
      net.Intact (net.performAll inner listener acts) := by
  induction acts with
  | nil => exact fun net hnet _ => .refl hnet
  | cons a acts ih =>
      intro net hnet hacts
      obtain ⟨ha, hrest⟩ := List.forall_mem_append.1 hacts
      have hacted := (hinner net a hnet ha).noted
        (x := .acted listener a (inner net a).2) fun _ => rfl
      exact hacted.trans (ih _ hacted.legible hrest)

theorem exists_fail_eq {raised : Raised} (h : raised.Legible) (net : Network) (e : Event) :
    ∃ message, net.fail e raised = (net.write [failureLine e message], none) := by
  obtain ⟨message, hmessage⟩ := h.exists_message
  exact ⟨message, by rw [fail, hmessage]⟩

theorem intact_react (hinner : KeepsIntact inner) (hnet : net.Legible) (listener : String)
    (e : Event) :
    (net.react inner listener e).2 = none ∧ net.Intact (net.react inner listener e).1 := by
  rw [react]
  cases hl : net.listeners.find? listener with
  | none => exact ⟨rfl, .refl hnet⟩
  | some l =>
      obtain ⟨hacts, hfailure, hrest⟩ := (hnet l (Registry.mem_of_find? hl)).next
      have hplanned := intact_plan hnet hrest listener
      have hperformed := hplanned.trans
        (intact_performAll hinner listener l.plan.next.1.acts _ hplanned.legible hacts)
      dsimp only
      cases hraised : l.plan.next.1.failure with
      | none => exact ⟨rfl, hperformed⟩
      | some raised =>
          obtain ⟨message, hfail⟩ := exists_fail_eq (hfailure raised hraised) (net.plan listener
            l.plan.next.2 |>.performAll inner listener l.plan.next.1.acts) e
          rw [plan] at hfail
          dsimp only
          rw [hfail]
          exact ⟨rfl, hperformed.wrote [failureLine e message]⟩

theorem intact_receive (hinner : KeepsIntact inner) (hnet : net.Legible) (emission g : Nat)
    (e : Event) (s : Subscriber) :
    (receive inner emission g e net s).2 = none ∧
      net.Intact (receive inner emission g e net s).1 := by
  have hheard : net.Intact (net.note (.delivered emission g e s)) :=
    (Intact.refl hnet).noted fun _ => rfl
  cases s with
  | listener name =>
      obtain ⟨hnone, hreacted⟩ := intact_react hinner hheard.legible name e
      exact ⟨hnone, hheard.trans hreacted⟩
  | indexer i t =>
      exact ⟨rfl, hheard.trans ((still_ingest _ i e).intact hheard.legible)⟩
  | recorder k =>
      obtain ⟨lines, hlines⟩ := exists_lines_keepLog (net.note (.delivered emission g e _)) k e
      refine ⟨rfl, hheard.trans (.of_history_eq hheard.legible (listeners_keepLog ..) hlines ?_)⟩
      exact fun _ => filterMap_wrote (fun _ => rfl) lines

/-- A delivery to listeners whose failures can be spelled goes through to the end. -/
theorem intact_deliver (hinner : KeepsIntact inner) (emission g : Nat) (e : Event)
    (audience : List Subscriber) :
    ∀ net : Network, net.Legible → (deliver inner emission g e net audience).2 = none ∧
      net.Intact (deliver inner emission g e net audience).1 := by
  induction audience with
  | nil => exact fun net hnet => ⟨rfl, .refl hnet⟩
  | cons s audience ih =>
      intro net hnet
      obtain ⟨hnone, hreceived⟩ := intact_receive hinner hnet emission g e s
      obtain ⟨hend, hrest⟩ := ih _ hreceived.legible
      rw [deliver]
      cases hpair : receive inner emission g e net s with
      | mk after escaped =>
          rw [hpair] at hnone hreceived hend hrest
          obtain rfl : escaped = none := hnone
          exact ⟨hend, hreceived.trans hrest⟩

theorem intact_announce (hinner : KeepsIntact inner) (hnet : net.Legible) (g : Nat) (e : Event) :
    net.Intact (net.announce inner g e).1 := by
  have hannounced := (Intact.refl hnet).counted.noted
    (x := .announced net.emissions g e (net.audience g)) fun _ => rfl
  exact hannounced.trans (intact_deliver hinner _ g e _ _ hannounced.legible).2

theorem intact_call (hinner : KeepsIntact inner) (hnet : net.Legible) (g : Nat) (m : Manager)
    (c : Call) : net.Intact (net.call inner g m c).1 := by
  rw [call]
  cases m.perform c with
  | error e => exact ((Intact.refl hnet).noted fun _ => rfl).wrote (m.lines c)
  | ok r =>
      obtain ⟨m', r⟩ := r
      have hcommitted : net.Intact (net.commit g m') := (Intact.refl hnet).kept rfl rfl
      have hwrote := (hcommitted.noted (x := .called g c (.ok r)) fun _ => rfl).wrote (m.lines c)
      exact hwrote.trans (intact_announce hinner hwrote.legible g r.event)

theorem keepsIntact_performWith (hinner : KeepsIntact inner) : KeepsIntact (performWith inner) := by
  intro net a hnet ha
  cases a with
  | watch manager listener p => exact intact_watch hnet ha manager listener
  | unwatch listener => exact intact_unwatch hnet listener
  | call name c =>
      rw [performWith]
      split
      · exact .refl hnet
      · split
        · exact .refl hnet
        · exact intact_call hinner hnet _ _ c

theorem keepsIntact_perform (levels : Nat) : KeepsIntact (perform levels) := by
  induction levels with
  | zero => exact keepsIntact_performWith fun _ _ hnet _ => .refl hnet
  | succ levels ih => exact keepsIntact_performWith ih

theorem intact_act (hnet : net.Legible) {a : Act} (ha : a.Legible) : net.Intact (net.act a).1 :=
  keepsIntact_perform _ net a hnet ha

/-! ### Moves and commands -/

theorem intact_moveAll {moves : List Move} (hmoves : ∀ move ∈ moves, move.Legible) :
    ∀ {net : Network}, net.Legible → net.Intact (net.moveAll moves).1 := by
  induction moves with
  | nil => exact .refl
  | cons move moves ih =>
      intro net hnet
      obtain ⟨hmove, hrest⟩ := List.forall_mem_cons.1 hmoves
      have hmoved : net.Intact (net.move move).1 := by
        cases move with
        | act a => exact intact_act hnet hmove
        | settle => exact (still_settle net).intact hnet
      exact hmoved.trans (ih hrest hmoved.legible)

/-- If all that listeners may raise can be spelled, no delivery breaks off. -/
theorem whole_happened (hnet : net.Legible) {moves : List Move}
    (hmoves : ∀ move ∈ moves, move.Legible) : Whole (net.happened moves) := by
  intro n g s escaped hbroken
  have hsame := (intact_moveAll hmoves hnet).breakers_eq g
  rw [(net.path_happened moves).history_eq, breakers_append] at hsame
  have hnone := List.append_right_eq_self.1 hsame
  exact List.ne_nil_of_mem (mem_breakers_iff.2 ⟨n, escaped, hbroken⟩) hnone

theorem Effect.intact {c : Command} (h : net.Effect c net') (hnet : net.Legible)
    (hc : c.Legible) : net.Intact net' := by
  cases h with
  | still hstill => exact hstill.intact hnet
  | introduced name m => exact ⟨hnet, fun _ => rfl⟩
  | acted ha =>
      subst ha
      exact intact_act hnet hc
  | subscribed hstill _ s => exact (hstill.intact hnet).trans ⟨(hstill.intact hnet).legible,
      fun _ => rfl⟩
  | unsubscribed g s => exact ⟨hnet, fun _ => rfl⟩

theorem IsReached.intact (h : net.IsReached Command.Legible) : Network.empty.Intact net := by
  induction h with
  | empty => exact .refl fun _ hl => absurd hl List.not_mem_nil
  | @step net _ c hc ih =>
      have hexecuted := ih.trans ((net.effect_execute c).intact ih.legible hc)
      exact hexecuted.trans ((still_settle _).intact hexecuted.legible)

end Network

end EpochClaims
