import EpochClaims.Proofs.Network.Nesting
import Mathlib.Data.List.Perm.Basic

/-!
# What a subscriber receives, and in which order

A subscriber who is in every audience receives the event of every committed
call exactly once, unless a delivery breaks off in front of it
(`Tells.received_perm`). The order may differ from that of the calls, because a
call from within a delivery delivers its own event before those behind in the
audience hear of the one around it. For a subscriber behind nobody during whose
hearing the manager commits a call the order is the same (`Tells.received_eq`).
So it is if those in front of it make no calls, or if no listener at all calls
the manager.

Both are facts about a subscriber such that all in front of it keep to some
condition (`Orderly`): that no delivery breaks off there, `Clear`, and that no
call is committed there, `Calm`.
-/

namespace EpochClaims

open Happening

/-- The events that an episode itself delivers to a subscriber. -/
def Episode.due (g : Nat) (s : Subscriber) : Episode → List Event
  | delivering _ g' e audience _ => if g' = g then List.replicate (audience.count s) e else []
  | _ => []

@[simp] theorem Episode.due_hearing (g : Nat) (s x : Subscriber) : (hearing x).due g s = [] := rfl

theorem Episode.due_delivering (g : Nat) (s : Subscriber) (n g' : Nat) (e : Event)
    (audience : List Subscriber) (escaped : Option Raised) :
    (delivering n g' e audience escaped).due g s =
      if g' = g then List.replicate (audience.count s) e else [] := rfl

theorem Episode.due_cons (g : Nat) (s : Subscriber) (n g' : Nat) (e : Event) (x : Subscriber)
    (audience : List Subscriber) (escaped : Option Raised) :
    (delivering n g' e (x :: audience) escaped).due g s =
      (if g' = g ∧ x = s then [e] else []) ++ (delivering n g' e audience escaped).due g s := by
  rw [due_delivering, due_delivering]
  by_cases hg : g' = g
  · by_cases hx : x = s <;> simp [hg, hx, List.replicate_succ]
  · simp [hg]

variable {handle? : String → Option Nat} {episode : Episode} {history : List Happening}
  {g : Nat} {s : Subscriber}

/-! What the reading of an episode is made of. -/

section

variable (g : Nat) (s : Subscriber) (g' : Nat) (c : Call) (r : Reply) (lines : List Line) (n : Nat)
  (audience : List Subscriber) (told own rest : List Happening) (e : Event) (x : Subscriber)
  (name : String) (a : Act) (answer : ActAnswer)

theorem received_committed :
    received g s (called g' c (.ok r) :: (lines.map wrote ++
      announced n g' r.event audience :: told)) = received g s told :=
  filterMap_committed (fun _ => rfl) ..

theorem events_committed :
    events g (called g' c (.ok r) :: (lines.map wrote ++
      announced n g' r.event audience :: told)) =
        (if g' = g then [r.event] else []) ++ events g told := by
  refine (filterMap_committed (fun _ => rfl) ..).trans ?_
  by_cases h : g' = g <;> simp [event?, h, events]

theorem audiences_committed :
    audiences g (called g' c (.ok r) :: (lines.map wrote ++
      announced n g' r.event audience :: told)) =
        (if g' = g then [audience] else []) ++ audiences g told := by
  refine (filterMap_committed (fun _ => rfl) ..).trans ?_
  by_cases h : g' = g <;> simp [audience?, h, audiences]

theorem received_delivered :
    received g s (delivered n g' e x :: (own ++ rest)) =
      (if g' = g ∧ x = s then [e] else []) ++ (received g s own ++ received g s rest) := by
  rw [← received_append, received, List.filterMap_cons]
  by_cases h : g' = g ∧ x = s <;> simp [delivery?, h, received]

theorem received_reacted :
    received g s (own ++ acted name a answer :: rest) = received g s own ++ received g s rest :=
  received_append ..

theorem events_reacted :
    events g (own ++ acted name a answer :: rest) = events g own ++ events g rest :=
  events_append ..

theorem callbacks_committed :
    callbacks (called g' c (.ok r) :: (lines.map wrote ++
      announced n g' r.event audience :: told)) = callbacks told :=
  filterMap_committed (fun _ => rfl) ..

theorem callbacks_delivered :
    callbacks (delivered n g' e x :: (own ++ rest)) = callbacks own ++ callbacks rest :=
  callbacks_append ..

theorem callbacks_reacted :
    callbacks (own ++ acted name a answer :: rest) =
      callbacks own ++ ((callback? (acted name a answer)).toList ++ callbacks rest) := by
  rw [callbacks_append, callbacks, callbacks, List.filterMap_cons]
  cases callback? (acted name a answer) <;> rfl

theorem told_part : told <:+: called g' c (.ok r) :: (lines.map wrote ++
    announced n g' r.event audience :: told) :=
  ⟨called g' c (.ok r) :: (lines.map wrote ++ [announced n g' r.event audience]), [], by simp⟩

theorem own_part : own <:+: delivered n g' e x :: (own ++ rest) :=
  ⟨[_], rest, rfl⟩

theorem others_part : rest <:+: delivered n g' e x :: (own ++ rest) :=
  ⟨_ :: own, [], List.append_nil _⟩

theorem acts_part : own <:+: own ++ acted name a answer :: rest :=
  ⟨[], _, rfl⟩

theorem rest_part : rest <:+: own ++ acted name a answer :: rest :=
  ⟨own ++ [acted name a answer], [], by simp⟩

end

/-! ### Those in front of a subscriber -/

/-- A condition on what happens while somebody hears events that passes to every
part of a history. -/
def Inherited (P : Subscriber → List Happening → Prop) : Prop :=
  ∀ x part history, part <:+: history → P x history → P x part

/-- Every event of the manager is announced to a subscriber once, and all in front
of it keep to a condition. -/
def Orderly (P : Subscriber → List Happening → Prop) (g : Nat) (s : Subscriber)
    (history : List Happening) : Prop :=
  ∀ audience ∈ audiences g history,
    audience.count s = 1 ∧ ∀ x ∈ audience.takeWhile (· ≠ s), P x history

/-- What a delivery that is under way has to keep to. -/
def Episode.IsOrderly (P : Subscriber → List Happening → Prop) (g : Nat) (s : Subscriber)
    (history : List Happening) : Episode → Prop
  | delivering _ g' _ audience _ => g' = g → audience.count s ≤ 1 ∧
      (s ∈ audience → ∀ x ∈ audience.takeWhile (· ≠ s), P x history)
  | _ => True

section

variable {P : Subscriber → List Happening → Prop} {part : List Happening}

theorem Orderly.of_part (hP : Inherited P) (h : Orderly P g s history) (hpart : part <:+: history) :
    Orderly P g s part := by
  intro audience hmem
  obtain ⟨before, behind, rfl⟩ := hpart
  have hall : audience ∈ audiences g (before ++ part ++ behind) := by
    rw [audiences_append, audiences_append]
    exact List.mem_append_left _ (List.mem_append_right _ hmem)
  obtain ⟨hcount, hahead⟩ := h audience hall
  exact ⟨hcount, fun x hx => hP x _ _ ⟨before, behind, rfl⟩ (hahead x hx)⟩

variable {n g' : Nat} {e : Event} {x : Subscriber} {audience : List Subscriber}
  {escaped : Option Raised}

/-- The delivery of an event that was announced keeps to what its audience does. -/
theorem Orderly.delivering (hP : Inherited P) (h : Orderly P g s history)
    (hmem : g' = g → audience ∈ audiences g history) (hpart : part <:+: history) :
    (Episode.delivering n g' e audience escaped).IsOrderly P g s part := by
  intro hg
  obtain ⟨hcount, hahead⟩ := h audience (hmem hg)
  exact ⟨Nat.le_of_eq hcount, fun _ x hx => hP x _ _ hpart (hahead x hx)⟩

/-- A delivery that goes on with those behind has to keep to no more than before,
and whoever hears the event in front of the subscriber keeps to the condition. -/
theorem Episode.IsOrderly.of_cons (hP : Inherited P)
    (h : (delivering n g' e (x :: audience) escaped).IsOrderly P g s history)
    (hpart : part <:+: history) :
    (delivering n g' e audience escaped).IsOrderly P g s part ∧
      (g' = g → s ∈ audience → P x history) := by
  have hahead : g' = g → s ∈ audience → ∀ y ∈ x :: audience.takeWhile (· ≠ s), P y history := by
    intro hg hmem
    obtain ⟨hcount, hahead⟩ := h hg
    have hx : x ≠ s := by
      rintro rfl
      have hpos := List.count_pos_iff.2 hmem
      rw [List.count_cons_self] at hcount
      omega
    have htake : (x :: audience).takeWhile (· ≠ s) = x :: audience.takeWhile (· ≠ s) := by
      simp [hx]
    rw [← htake]
    exact hahead (List.mem_cons_of_mem _ hmem)
  constructor
  · intro hg
    refine ⟨Nat.le_trans List.count_le_count_cons (h hg).1, fun hmem y hy => ?_⟩
    exact hP y _ _ hpart (hahead hg hmem y (List.mem_cons_of_mem _ hy))
  · exact fun hg hmem => hahead hg hmem x List.mem_cons_self

/-- No delivery of the manager breaks off at a subscriber. -/
def Clear (g : Nat) (x : Subscriber) (history : List Happening) : Prop :=
  x ∉ breakers g history

theorem inherited_clear (g : Nat) : Inherited (Clear g) := by
  intro x part history hpart hclear hmem
  obtain ⟨n, escaped, hbroken⟩ := mem_breakers_iff.1 hmem
  exact hclear (mem_breakers_iff.2 ⟨n, escaped, hpart.subset hbroken⟩)

/-- A delivery that breaks off owes nothing to a subscriber behind. -/
theorem Episode.IsOrderly.due_eq_nil (hP : Inherited P) {own : List Happening} {r : Raised}
    (h : (delivering n g' e (x :: audience) (some r)).IsOrderly P g s
      (.delivered n g' e x :: (own ++ [.brokenOff n g' x r])))
    (hclear : ∀ history, P x history → Clear g x history) :
    (delivering n g' e audience (some r)).due g s = [] := by
  rw [due_delivering]
  by_cases hg : g' = g
  · subst hg
    have hmem : s ∉ audience := fun hmem =>
      hclear _ ((h.of_cons hP (List.infix_refl _)).2 rfl hmem)
        (mem_breakers_iff.2 ⟨n, r, by simp⟩)
    simp [List.count_eq_zero_of_not_mem hmem]
  · rw [if_neg hg]

end

/-- Who is in every audience once, with nobody in front at whom a delivery breaks
off, receives the event of every call once. -/
theorem Tells.received_perm (h : Tells handle? episode history)
    (horderly : Orderly (Clear g) g s history)
    (hepisode : episode.IsOrderly (Clear g) g s history) :
    (received g s history).Perm (episode.due g s ++ events g history) := by
  have hP := inherited_clear g
  induction h with
  | idle _ => exact .refl _
  | refused _ c e m lines =>
      have hreceived : received g s (lines.map wrote) = [] := received_wrote g s lines
      have hevents : events g (lines.map wrote) = [] := events_wrote g lines
      change (received g s (lines.map wrote)).Perm (events g (lines.map wrote))
      rw [hreceived, hevents]
  | @committed _ g' _ c r m lines n audience escaped told _ ih =>
      have hmem : g' = g → audience ∈ audiences g (called g' c (.ok r) :: (lines.map wrote ++
          announced n g' r.event audience :: told)) := by
        intro hg
        simp [audiences_committed, hg]
      have hpart := told_part g' c r lines n audience told
      rw [received_committed, events_committed]
      refine (ih (horderly.of_part hP hpart) (horderly.delivering hP hmem hpart)).trans ?_
      rw [Episode.due_delivering]
      by_cases hg : g' = g
      · rw [if_pos hg, if_pos hg, (horderly audience (hmem hg)).1]
        exact .refl _
      · rw [if_neg hg, if_neg hg]
        exact .refl _
  | nobody _ _ _ => simp [Episode.due, received, events]
  | @delivered n g' e x audience escaped own others _ _ ihown ihothers =>
      have hevents : events g (Happening.delivered n g' e x :: (own ++ others)) =
          events g own ++ events g others := events_append ..
      have hbehind := (hepisode.of_cons hP (others_part g' n own others e x)).1
      have hown := ihown (horderly.of_part hP (own_part g' n own others e x)) trivial
      have hothers := ihothers (horderly.of_part hP (others_part g' n own others e x)) hbehind
      rw [received_delivered, hevents, Episode.due_cons, List.append_assoc]
      refine List.Perm.append_left _ ((hown.append hothers).trans ?_)
      exact List.perm_append_comm_assoc ..
  | @brokenOff n g' e x audience escaped own _ ihown =>
      have hevents : events g (Happening.delivered n g' e x ::
          (own ++ [.brokenOff n g' x escaped])) = events g own ++ [] := events_append ..
      have hown := ihown (horderly.of_part hP (own_part g' n own _ e x)) trivial
      rw [received_delivered, hevents, Episode.due_cons,
        hepisode.due_eq_nil hP (fun _ => id), List.append_nil, List.append_nil]
      exact List.Perm.append_left _ ((List.append_nil _).symm ▸ hown)
  | quiet _ lines => simp [Episode.due]
  | @reacted name a answer own rest _ _ ihown ihrest =>
      rw [received_reacted, events_reacted]
      exact (ihown (horderly.of_part hP (acts_part own rest name a answer)) trivial).append
        (ihrest (horderly.of_part hP (rest_part own rest name a answer)) trivial)
  | still => exact .refl _
  | @settled lines _ rest _ ih =>
      rw [received_append, events_append, received_wrote, events_wrote]
      exact ih (horderly.of_part hP (List.suffix_append ..).isInfix) trivial
  | @moved _ _ _ own rest _ _ ihown ihrest =>
      rw [received_append, events_append]
      exact (ihown (horderly.of_part hP (List.prefix_append ..).isInfix) trivial).append
        (ihrest (horderly.of_part hP (List.suffix_append ..).isInfix) trivial)

/-! ### Calls from within a delivery -/

/-- A listener none of whose calls are committed announces nothing while it
hears an event. -/
theorem Tells.events_of_hearing (h : Tells handle? episode history) {x : Subscriber}
    (hx : episode = .hearing x)
    (hquiet : ∀ name manager, x = .listener name → (name, manager) ∉ callbacks history) :
    events g history = [] := by
  induction h with
  | quiet _ lines => exact events_wrote g lines
  | @reacted name a answer own rest hown _ _ ihrest =>
      obtain rfl := Episode.hearing.inj hx
      simp only [callbacks_reacted, List.mem_append, not_or] at hquiet
      rw [events_reacted, ihrest rfl fun name' manager hname => (hquiet name' manager hname).2.2,
        List.append_nil]
      cases hown with
      | idle _ => rfl
      | refused _ c e m lines => exact events_wrote g lines
      | @committed callee _ _ _ _ _ _ _ _ _ _ _ =>
          exact absurd (List.mem_singleton.2 rfl) (hquiet name callee rfl).2.1
  | _ => contradiction

/-- A call that an episode makes itself, as it stands in the history. -/
def MadeCall.happening (made : MadeCall) : Happening :=
  .called made.1 made.2.1 made.2.2

/-- If no call from within a delivery is committed by the manager, it announces
the events of the calls from outside only. -/
theorem Tells.events_eq_made (h : Tells handle? episode history)
    (hnone : ∀ name manager, (name, manager) ∈ callbacks history → handle? manager ≠ some g) :
    events g history = events g ((episode.made handle?).map MadeCall.happening) := by
  induction h with
  | idle a => cases a <;> rfl
  | refused hname c e m lines =>
      simp only [Episode.made, madeCall?, hname]
      exact events_wrote g lines
  | @committed _ g' hname c r m lines n audience escaped told _ ih =>
      rw [callbacks_committed] at hnone
      rw [events_committed, ih hnone]
      simp only [Episode.made, madeCall?, hname]
      by_cases hg : g' = g <;> simp [MadeCall.happening, events, event?, hg, Except.map]
  | nobody _ _ _ => rfl
  | @delivered n g' e x audience escaped own others _ _ ihown ihothers =>
      simp only [callbacks_delivered, List.mem_append] at hnone
      refine (events_append g own others).trans ?_
      rw [ihown fun name manager h => hnone name manager (.inl h),
        ihothers fun name manager h => hnone name manager (.inr h)]
      rfl
  | @brokenOff n g' e x audience escaped own _ ihown =>
      simp only [callbacks_delivered, List.mem_append] at hnone
      refine (events_append g own _).trans ?_
      rw [ihown fun name manager h => hnone name manager (.inl h)]
      rfl
  | quiet _ lines => exact events_wrote g lines
  | @reacted name a answer own rest hown _ ihown ihrest =>
      simp only [callbacks_reacted, List.mem_append] at hnone
      rw [events_reacted, ihown fun name manager h => hnone name manager (.inl h),
        ihrest fun name manager h => hnone name manager (.inr (.inr h))]
      refine (List.append_nil _).trans ?_
      cases hown with
      | idle _ => cases a <;> rfl
      | refused hname c e m lines => simp [Episode.made, madeCall?, hname, MadeCall.happening,
          events, event?, Except.map]
      | @committed callee g' hname c r m lines n audience escaped told _ =>
          have hg : g' ≠ g := by
            rintro rfl
            exact hnone name callee (.inr (.inl (List.mem_singleton.2 rfl))) hname
          simp [Episode.made, madeCall?, hname, MadeCall.happening, events, event?, hg, Except.map]
  | still => rfl
  | settled lines _ ih =>
      rw [callbacks_append] at hnone
      rw [events_append, events_wrote]
      exact ih fun name manager h => hnone name manager (List.mem_append_right _ h)
  | moved _ _ ihown ihrest =>
      simp only [callbacks_append, List.mem_append] at hnone
      rw [events_append, Episode.made_moves_cons, List.map_append, events_append,
        ihown fun name manager h => hnone name manager (.inl h),
        ihrest fun name manager h => hnone name manager (.inr h)]

/-! ### The order of deliveries -/

/-- No delivery of the manager breaks off at a subscriber, nor does the manager
commit a call while the subscriber hears an event. -/
def Calm (handle? : String → Option Nat) (g : Nat) (x : Subscriber)
    (history : List Happening) : Prop :=
  Clear g x history ∧
    ∀ own, own <:+: history → Tells handle? (.hearing x) own → events g own = []

theorem inherited_calm (handle? : String → Option Nat) (g : Nat) : Inherited (Calm handle? g) := by
  intro x part history hpart ⟨hclear, hquiet⟩
  exact ⟨inherited_clear g x part history hpart hclear,
    fun own hown => hquiet own (hown.trans hpart)⟩

/-- A subscriber receives the events in the order of the calls if nobody in
front of it lets the manager commit calls. -/
theorem Tells.received_eq (h : Tells handle? episode history)
    (horderly : Orderly (Calm handle? g) g s history)
    (hepisode : episode.IsOrderly (Calm handle? g) g s history) :
    received g s history = episode.due g s ++ events g history := by
  have hP := inherited_calm handle? g
  induction h with
  | idle _ => rfl
  | refused _ c e m lines =>
      exact (received_wrote g s lines).trans (events_wrote g lines).symm
  | @committed _ g' _ c r m lines n audience escaped told _ ih =>
      have hmem : g' = g → audience ∈ audiences g (called g' c (.ok r) :: (lines.map wrote ++
          announced n g' r.event audience :: told)) := by
        intro hg
        simp [audiences_committed, hg]
      have hpart := told_part g' c r lines n audience told
      rw [received_committed, events_committed,
        ih (horderly.of_part hP hpart) (horderly.delivering hP hmem hpart), Episode.due_delivering]
      by_cases hg : g' = g
      · rw [if_pos hg, if_pos hg, (horderly audience (hmem hg)).1]
        rfl
      · rw [if_neg hg, if_neg hg]
        rfl
  | nobody _ _ _ => simp [Episode.due, received, events]
  | @delivered n g' e x audience escaped own others hown _ ihown ihothers =>
      have hevents : events g (.delivered n g' e x :: (own ++ others)) =
          events g own ++ events g others := events_append ..
      have hownPart := own_part g' n own others e x
      have hothersPart := others_part g' n own others e x
      obtain ⟨hbehind, hcalm⟩ := hepisode.of_cons hP hothersPart
      -- What is still due may only come behind the calls made meanwhile if there are none.
      have hswap : (Episode.delivering n g' e audience escaped).due g s = [] ∨
          events g own = [] := by
        rw [Episode.due_delivering]
        by_cases hg : g' = g
        · by_cases hmem : s ∈ audience
          · exact .inr ((hcalm hg hmem).2 own hownPart hown)
          · simp [List.count_eq_zero_of_not_mem hmem]
        · simp [hg]
      rw [received_delivered, hevents, ihown (horderly.of_part hP hownPart) trivial,
        ihothers (horderly.of_part hP hothersPart) hbehind, Episode.due_cons]
      rcases hswap with hnone | hnone
      · simp [hnone]
      · simp [hnone]
  | @brokenOff n g' e x audience escaped own _ ihown =>
      have hevents : events g (Happening.delivered n g' e x ::
          (own ++ [.brokenOff n g' x escaped])) = events g own ++ [] := events_append ..
      rw [received_delivered, hevents, Episode.due_cons,
        hepisode.due_eq_nil hP (fun _ => And.left),
        ihown (horderly.of_part hP (own_part g' n own _ e x)) trivial, List.append_nil]
      rfl
  | quiet _ lines => simp [Episode.due]
  | @reacted name a answer own rest _ _ ihown ihrest =>
      rw [received_reacted, events_reacted,
        ihown (horderly.of_part hP (acts_part own rest name a answer)) trivial,
        ihrest (horderly.of_part hP (rest_part own rest name a answer)) trivial]
      rfl
  | still => rfl
  | @settled lines _ rest _ ih =>
      rw [received_append, events_append, received_wrote, events_wrote]
      exact ih (horderly.of_part hP (List.suffix_append ..).isInfix) trivial
  | @moved _ _ _ own rest _ _ ihown ihrest =>
      rw [received_append, events_append,
        ihown (horderly.of_part hP (List.prefix_append ..).isInfix) trivial,
        ihrest (horderly.of_part hP (List.suffix_append ..).isInfix) trivial]
      rfl

/-! ### What an indexer ingests -/

/-- An event is announced to a subscriber. -/
def AnnouncedTo (n g : Nat) (e : Event) (s : Subscriber) (history : List Happening) : Prop :=
  ∃ audience, .announced n g e audience ∈ history ∧ s ∈ audience

theorem AnnouncedTo.mono {n : Nat} {e : Event} {part : List Happening}
    (h : AnnouncedTo n g e s part) (hpart : part ⊆ history) : AnnouncedTo n g e s history :=
  h.imp fun _ ⟨hannounced, hs⟩ => ⟨hpart hannounced, hs⟩

/-- An episode itself delivers an event to a subscriber. -/
def Episode.Delivers (n g : Nat) (e : Event) (s : Subscriber) : Episode → Prop
  | delivering n' g' e' audience _ => n' = n ∧ g' = g ∧ e' = e ∧ s ∈ audience
  | _ => False

/-- Whoever receives an event is in an audience to which it was announced. -/
theorem Tells.announcedTo (h : Tells handle? episode history) {n : Nat} {e : Event}
    (hmem : .delivered n g e s ∈ history) :
    AnnouncedTo n g e s history ∨ episode.Delivers n g e s := by
  induction h with
  | idle _ => contradiction
  | refused _ _ _ _ _ => simp at hmem
  | @committed _ g' _ c r m lines n' audience escaped told _ ih =>
      rcases ih (by simpa using hmem) with hfound | ⟨rfl, rfl, rfl, hs⟩
      · exact .inl (hfound.mono fun x hx => by simp [hx])
      · exact .inl ⟨audience, by simp, hs⟩
  | nobody _ _ _ => contradiction
  | delivered _ _ ihown ihothers =>
      rcases List.mem_cons.1 hmem with heq | hrest
      · obtain ⟨rfl, rfl, rfl, rfl⟩ := Happening.delivered.inj heq
        exact .inr ⟨rfl, rfl, rfl, List.mem_cons_self⟩
      rcases List.mem_append.1 hrest with hown | hothers
      · have hfound := (ihown hown).resolve_right id
        exact .inl (hfound.mono fun x hx => by simp [hx])
      · rcases ihothers hothers with hfound | ⟨rfl, rfl, rfl, hs⟩
        · exact .inl (hfound.mono fun x hx => by simp [hx])
        · exact .inr ⟨rfl, rfl, rfl, List.mem_cons_of_mem _ hs⟩
  | brokenOff _ _ _ ihown =>
      rcases List.mem_cons.1 hmem with heq | hrest
      · obtain ⟨rfl, rfl, rfl, rfl⟩ := Happening.delivered.inj heq
        exact .inr ⟨rfl, rfl, rfl, List.mem_cons_self⟩
      · have hfound := (ihown (by simpa using hrest)).resolve_right id
        exact .inl (hfound.mono fun x hx => by simp [hx])
  | quiet _ _ => simp at hmem
  | reacted _ _ ihown ihrest =>
      rcases List.mem_append.1 hmem with hown | hrest
      · have hfound := (ihown hown).resolve_right id
        exact .inl (hfound.mono fun x hx => by simp [hx])
      · have hfound := (ihrest (by simpa using hrest)).resolve_right id
        exact .inl (hfound.mono fun x hx => by simp [hx])
  | still => contradiction
  | settled _ _ ih =>
      have hfound := (ih (by simpa using hmem)).resolve_right id
      exact .inl (hfound.mono fun x hx => by simp [hx])
  | moved _ _ ihown ihrest =>
      rcases List.mem_append.1 hmem with hown | hrest
      · have hfound := (ihown hown).resolve_right id
        exact .inl (hfound.mono (List.subset_append_left ..))
      · have hfound := (ihrest hrest).resolve_right id
        exact .inl (hfound.mono (List.subset_append_right ..))

/-- An indexer to whom the events of one manager are announced, and no others,
ingests the events that it receives from this manager. -/
theorem Tells.ingested_eq {done : List (Move × ActAnswer)} {i t : Nat}
    (h : Tells handle? (.moves done) history)
    (honly : ∀ n g' e t', AnnouncedTo n g' e (.indexer i t') history → g' = g ∧ t' = t) :
    ingested i history = received g (.indexer i t) history := by
  refine List.filterMap_congr fun x hx => ?_
  cases x with
  | delivered n g' e s =>
      have hannounced := (h.announcedTo hx).resolve_right id
      cases s with
      | indexer i' t' =>
          by_cases hi : i' = i
          · subst hi
            obtain ⟨rfl, rfl⟩ := honly n g' e t' hannounced
            simp [ingestion?, delivery?]
          · simp [ingestion?, delivery?, hi]
      | _ => simp [ingestion?, delivery?]
  | _ => rfl

end EpochClaims
