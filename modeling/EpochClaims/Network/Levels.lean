import EpochClaims.Network.Delivery

/-!
# How deep acts nest

A level of acts below another one is reached only by a reaction with acts, and
that uses up one of the reactions that the network has left. So an act needs no
more levels than there are reactions, and `perform_eq_act` says that allowing
more of them changes nothing.

The proof compares two meanings of the acts of listeners that agree below a
bound on the reactions left, and follows them through a delivery. All along the
reactions do not grow, `reactions_perform_le`.
-/

namespace EpochClaims

namespace Network

@[simp] theorem reactions_note (net : Network) (h : Happening) :
    (net.note h).reactions = net.reactions := rfl

@[simp] theorem reactions_write (net : Network) (lines : List Line) :
    (net.write lines).reactions = net.reactions := rfl

@[simp] theorem reactions_commit (net : Network) (manager : Nat) (m : Manager) :
    (net.commit manager m).reactions = net.reactions := rfl

@[simp] theorem reactions_subscribe (net : Network) (manager : Nat) (s : Subscriber) :
    (net.subscribe manager s).reactions = net.reactions := rfl

@[simp] theorem reactions_ingest (net : Network) (indexer : Nat) (e : Event) :
    (net.ingest indexer e).reactions = net.reactions := by
  rw [ingest]
  split <;> rfl

@[simp] theorem reactions_keepLog (net : Network) (record : Nat) (e : Event) :
    (net.keepLog record e).reactions = net.reactions := by
  rw [keepLog]
  split <;> rfl

@[simp] theorem reactions_unwatch (net : Network) (listener : String) :
    (net.unwatch listener).reactions = net.reactions := by
  rw [unwatch]
  split <;> rfl

/-- A listener adds the reactions of its plan, unless it is not new. -/
theorem reactions_watch_le (net : Network) (manager listener : String) (plan : Plan) :
    (net.watch manager listener plan).reactions ≤ net.reactions + plan.reactions := by
  rw [watch]
  split
  · exact Nat.le_add_right ..
  · next handle _ =>
    rw [reactions_subscribe]
    simp only [reactions]
    rw [Registry.total_update_of_eq]
    · exact net.listeners.total_ensure_le (fun l => l.plan.reactions) listener ⟨plan, handle⟩
    · exact fun _ => rfl

/-- Below the bound, acts leave no more reactions than there were. -/
def KeepsBelow (bound : Nat) (inner : Network → Act → Network × ActAnswer) : Prop :=
  ∀ net a, net.reactions + a.reactions < bound →
    (inner net a).1.reactions ≤ net.reactions + a.reactions

/-- Two meanings of acts agree below the bound. -/
def AgreeBelow (bound : Nat) (f g : Network → Act → Network × ActAnswer) : Prop :=
  ∀ net a, net.reactions + a.reactions < bound → f net a = g net a

variable {f g : Network → Act → Network × ActAnswer} {bound : Nat}

theorem performAll_congr (hkeep : KeepsBelow bound f) (hagree : AgreeBelow bound f g)
    (listener : String) (acts : List Act) :
    ∀ net : Network, net.reactions + Act.totalReactions acts < bound →
      net.performAll f listener acts = net.performAll g listener acts ∧
        (net.performAll f listener acts).reactions ≤ net.reactions + Act.totalReactions acts := by
  induction acts with
  | nil => exact fun net _ => ⟨rfl, Nat.le_add_right ..⟩
  | cons a acts ih =>
    intro net h
    simp only [Act.totalReactions] at h ⊢
    have hless : net.reactions + a.reactions < bound := by omega
    have hstep := hkeep net a hless
    have hsame := hagree net a hless
    have hrest := ih ((f net a).1.note (.acted listener a (f net a).2)) (by
      rw [reactions_note]; omega)
    rw [reactions_note] at hrest
    simp only [performAll, List.foldl_cons] at hrest ⊢
    rw [← hsame]
    exact ⟨hrest.1, by omega⟩

/-- The network after the plan of a listener has moved on. -/
theorem reactions_advance {net : Network} {listener : String} {l : Listener}
    (h : net.listeners.find? listener = some l) (plan : Plan) :
    ({ net with
        listeners := net.listeners.update listener fun l => { l with plan := plan } } :
      Network).reactions + l.plan.reactions = net.reactions + plan.reactions :=
  net.listeners.total_update (fun l => l.plan.reactions) (fun l => { l with plan := plan }) h

@[simp] theorem reactions_fail (net : Network) (e : Event) (raised : Raised) :
    (net.fail e raised).1.reactions = net.reactions := by
  rw [fail]
  split <;> rfl

theorem react_congr (hkeep : KeepsBelow bound f) (hagree : AgreeBelow bound f g)
    (net : Network) (listener : String) (e : Event) (h : net.reactions ≤ bound) :
    net.react f listener e = net.react g listener e ∧
      (net.react f listener e).1.reactions ≤ net.reactions := by
  rw [react, react]
  cases hfind : net.listeners.find? listener with
  | none => exact ⟨rfl, Nat.le_refl _⟩
  | some l =>
    have hadvance := reactions_advance hfind l.plan.next.2
    have hle := l.plan.reactions_next_le
    have hall : ∀ moved : Network,
        moved.reactions + l.plan.reactions = net.reactions + l.plan.next.2.reactions →
        moved.performAll f listener l.plan.next.1.acts =
            moved.performAll g listener l.plan.next.1.acts ∧
          (moved.performAll f listener l.plan.next.1.acts).reactions ≤ net.reactions := by
      intro moved hmoved
      by_cases hacts : l.plan.next.1.acts = []
      · rw [hacts]
        exact ⟨rfl, by simp only [performAll, List.foldl_nil]; omega⟩
      · have hlt := l.plan.reactions_next_lt hacts
        have hperform := performAll_congr hkeep hagree listener l.plan.next.1.acts moved (by omega)
        exact ⟨hperform.1, by omega⟩
    obtain ⟨hsame, hless⟩ := hall _ hadvance
    simp only [← hsame, true_and]
    cases l.plan.next.1.failure with
    | none => exact hless
    | some raised =>
      simp only [reactions_fail]
      exact hless

theorem receive_congr (hkeep : KeepsBelow bound f) (hagree : AgreeBelow bound f g)
    (emission manager : Nat) (e : Event) (net : Network) (s : Subscriber)
    (h : net.reactions ≤ bound) :
    receive f emission manager e net s = receive g emission manager e net s ∧
      (receive f emission manager e net s).1.reactions ≤ net.reactions := by
  cases s with
  | listener name =>
    exact react_congr hkeep hagree (net.note (.delivered emission manager e (.listener name)))
      name e h
  | indexer handle ticket => exact ⟨rfl, by simp [receive]⟩
  | recorder handle => exact ⟨rfl, by simp [receive]⟩

theorem deliver_congr (hkeep : KeepsBelow bound f) (hagree : AgreeBelow bound f g)
    (emission manager : Nat) (e : Event) (audience : List Subscriber) :
    ∀ net : Network, net.reactions ≤ bound →
      deliver f emission manager e net audience = deliver g emission manager e net audience ∧
        (deliver f emission manager e net audience).1.reactions ≤ net.reactions := by
  induction audience with
  | nil => exact fun net _ => ⟨rfl, Nat.le_refl _⟩
  | cons s audience ih =>
    intro net h
    obtain ⟨hsame, hle⟩ := receive_congr hkeep hagree emission manager e net s h
    rw [deliver, deliver, ← hsame]
    cases hr : receive f emission manager e net s with
    | mk after escaped =>
      rw [hr] at hle
      cases escaped with
      | none =>
        obtain ⟨hrest, hless⟩ := ih after (Nat.le_trans hle h)
        exact ⟨hrest, Nat.le_trans hless hle⟩
      | some escaped => exact ⟨rfl, hle⟩

theorem announce_congr (hkeep : KeepsBelow bound f) (hagree : AgreeBelow bound f g)
    (net : Network) (manager : Nat) (e : Event) (h : net.reactions ≤ bound) :
    net.announce f manager e = net.announce g manager e ∧
      (net.announce f manager e).1.reactions ≤ net.reactions :=
  deliver_congr hkeep hagree net.emissions manager e _ _ h

theorem call_congr (hkeep : KeepsBelow bound f) (hagree : AgreeBelow bound f g)
    (net : Network) (manager : Nat) (m : Manager) (c : Call) (h : net.reactions ≤ bound) :
    net.call f manager m c = net.call g manager m c ∧
      (net.call f manager m c).1.reactions ≤ net.reactions := by
  rw [call, call]
  cases m.perform c with
  | error refusal => exact ⟨rfl, Nat.le_refl _⟩
  | ok r =>
    obtain ⟨hsame, hle⟩ := announce_congr hkeep hagree
      (((net.commit manager r.1).note (.called manager c (.ok r.2))).write (m.lines c)) manager
      r.2.event h
    exact ⟨congrArg (fun x => (x.1, Except.ok (r.2, x.2))) hsame, hle⟩

theorem performWith_congr (net : Network) (a : Act)
    (hkeep : KeepsBelow (net.reactions + a.reactions) f)
    (hagree : AgreeBelow (net.reactions + a.reactions) f g) :
    performWith f net a = performWith g net a ∧
      (performWith f net a).1.reactions ≤ net.reactions + a.reactions := by
  cases a with
  | watch manager listener plan => exact ⟨rfl, net.reactions_watch_le manager listener plan⟩
  | unwatch listener =>
    exact ⟨rfl, by simp only [performWith, reactions_unwatch]; exact Nat.le_add_right ..⟩
  | call manager c =>
    simp only [performWith]
    cases net.publishers.handle? manager with
    | none => exact ⟨rfl, Nat.le_add_right ..⟩
    | some handle =>
      cases hget : net.publishers.get? handle with
      | none =>
        simp only [hget, true_and]
        exact Nat.le_add_right ..
      | some p =>
        obtain ⟨hsame, hle⟩ :=
          call_congr hkeep hagree net handle p.manager c (Nat.le_add_right ..)
        simp only [hget, hsame, true_and] at hle ⊢
        exact Nat.le_trans hle (Nat.le_add_right ..)

/-- An act leaves no more reactions than there were, with its own. -/
theorem reactions_perform_le (levels : Nat) :
    ∀ (net : Network) (a : Act),
      (perform levels net a).1.reactions ≤ net.reactions + a.reactions := by
  induction levels with
  | zero =>
    intro net a
    have hkeep : KeepsBelow (net.reactions + a.reactions)
        (fun net (_ : Act) => (net, ActAnswer.done)) := fun _ _ _ => Nat.le_add_right ..
    exact (performWith_congr net a hkeep (g := fun net _ => (net, .done)) fun _ _ _ => rfl).2
  | succ levels ih =>
    intro net a
    exact (performWith_congr net a (fun net a _ => ih net a)
      (g := perform levels) fun _ _ _ => rfl).2

/-- Any two numbers of levels that are no less than the reactions agree. -/
theorem perform_congr (levels : Nat) :
    ∀ (others : Nat) (net : Network) (a : Act), net.reactions + a.reactions ≤ levels →
      net.reactions + a.reactions ≤ others → perform levels net a = perform others net a := by
  induction levels with
  | zero =>
    intro others net a hlevels _
    cases others with
    | zero => rfl
    | succ others =>
      refine (performWith_congr net a (fun _ _ _ => Nat.le_add_right ..) ?_).1
      exact fun _ _ h => absurd h (by omega)
  | succ levels ih =>
    intro others net a hlevels hothers
    cases others with
    | zero =>
      refine (performWith_congr net a (fun net a _ => reactions_perform_le levels net a) ?_).1
      exact fun _ _ h => absurd h (by omega)
    | succ others =>
      refine (performWith_congr net a (fun net a _ => reactions_perform_le levels net a) ?_).1
      exact fun net a h => ih others net a (by omega) (by omega)

/-- More levels than there are reactions change nothing. -/
theorem perform_eq_act (net : Network) (a : Act) {levels : Nat}
    (h : net.reactions + a.reactions ≤ levels) : perform levels net a = net.act a :=
  perform_congr levels _ net a h (Nat.le_refl _)

end Network

end EpochClaims
