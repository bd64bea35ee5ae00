import EpochClaims.Network.Levels
import EpochClaims.Proofs.Network.Tidy

/-!
# The roll of subscribers

A roll says who subscribes to which manager. It is kept up by the acts alone,
`Roll.after`: a listener that starts to listen comes last, unless it is there
already, and one that stops is struck out. Deliveries do not come into it. Yet
at every moment of an act, however deep the calls of listeners nest, the
audiences of a network are those of the roll that the acts so far have led to
(`roll_act`), and every event is announced to all who are on this roll when it
is announced, in its order (`admits_act`).

Acts nest to a finite depth, and the deepest ones are left out of `perform`.
`nest` performs them there, except for calls, so that all acts in a history
count; `act_eq_nest` says that it makes no difference.
-/

namespace EpochClaims

/-- Who subscribes to the managers, by their handles, and where each listener
subscribed last. -/
@[ext]
structure Roll where
  audience : Nat → List Subscriber
  latest : String → Option Nat

namespace Roll

/-- A listener subscribes to a manager. -/
def join (r : Roll) (g : Nat) (listener : String) : Roll where
  audience g' :=
    if g' = g ∧ .listener listener ∉ r.audience g then r.audience g ++ [.listener listener]
    else r.audience g'
  latest name := if name = listener then some g else r.latest name

/-- A listener ends its latest subscription. -/
def leave (r : Roll) (listener : String) : Roll :=
  match r.latest listener with
  | none => r
  | some g =>
    { r with
      audience := fun g' =>
        if g' = g then (r.audience g).filter (· ≠ .listener listener) else r.audience g' }

/-- The roll after an act. -/
def after (handle? : String → Option Nat) (r : Roll) : Act → Roll
  | .call _ _ => r
  | .watch manager listener _ =>
    match handle? manager with
    | none => r
    | some g => r.join g listener
  | .unwatch listener => r.leave listener

def next (handle? : String → Option Nat) (r : Roll) : Happening → Roll
  | .acted _ a _ => r.after handle? a
  | _ => r

def replay (handle? : String → Option Nat) (r : Roll) (history : List Happening) : Roll :=
  history.foldl (next handle?) r

/-- What is announced is announced to all who are on the roll. -/
def Fits (r : Roll) : Happening → Prop
  | .announced _ g _ audience => audience = r.audience g
  | _ => True

/-- Whatever is announced in a history is announced to all who are on the roll
at that moment. -/
def Admits (handle? : String → Option Nat) : Roll → List Happening → Prop
  | _, [] => True
  | r, h :: history => r.Fits h ∧ Admits handle? (r.next handle? h) history

variable {handle? : String → Option Nat}

theorem replay_append (r : Roll) (history more : List Happening) :
    r.replay handle? (history ++ more) = (r.replay handle? history).replay handle? more :=
  List.foldl_append

theorem replay_wrote (r : Roll) (lines : List Line) :
    r.replay handle? (lines.map .wrote) = r := by
  induction lines with
  | nil => rfl
  | cons line lines ih => exact ih

theorem admits_append {history more : List Happening} {r : Roll} :
    Admits handle? r (history ++ more) ↔
      Admits handle? r history ∧ Admits handle? (r.replay handle? history) more := by
  induction history generalizing r with
  | nil => exact (iff_of_eq (true_and _)).symm
  | cons h history ih =>
      have htail : Admits handle? r ((h :: history) ++ more) ↔
          r.Fits h ∧ Admits handle? (r.next handle? h) (history ++ more) := Iff.rfl
      rw [htail, ih, ← and_assoc]
      rfl

theorem admits_wrote (r : Roll) (lines : List Line) : Admits handle? r (lines.map .wrote) := by
  induction lines with
  | nil => trivial
  | cons line lines ih => exact ⟨trivial, ih⟩

theorem Admits.audience_eq {r : Roll} {before behind : List Happening} {n g : Nat} {e : Event}
    {audience : List Subscriber}
    (h : Admits handle? r (before ++ .announced n g e audience :: behind)) :
    audience = (r.replay handle? before).audience g :=
  (admits_append.1 h).2.1

end Roll

namespace Registry.Tidy

variable {α : Type} {r : Registry α} (h : r.Tidy)

include h

theorem find?_update (name : String) (f : α → α) (other : String) :
    (r.update name f).find? other =
      if other = name then (r.find? name).map f else r.find? other := by
  rw [Registry.update]
  cases hname : r.handle? name with
  | none =>
      have hfind : r.find? name = none := by rw [find?, hname]; rfl
      by_cases hother : other = name
      · rw [if_pos hother, hother, hfind]
        rfl
      · rw [if_neg hother]
  | some i =>
      have hfind : ∀ other, (r.modify i f).find? other =
          (r.handle? other).bind (r.modify i f).get? := fun _ => rfl
      simp only [hfind]
      by_cases hother : other = name
      · rw [if_pos hother, hother, find?, hname, Option.bind_some, Option.bind_some,
          get?_modify_self]
      · rw [if_neg hother, find?]
        cases hj : r.handle? other with
        | none => rfl
        | some j =>
            have hne : i ≠ j := by
              intro hij
              exact hother (h.inj other name i (hij ▸ hj) hname)
            rw [Option.bind_some, Option.bind_some, get?_modify_of_ne r hne]

theorem find?_ensure (name : String) (a : α) (other : String) :
    (r.ensure name a).find? other =
      if other = name then some ((r.find? name).getD a) else r.find? other := by
  rw [Registry.ensure]
  cases hname : r.handle? name with
  | some i =>
      obtain ⟨b, hb⟩ := h.exists_get? hname
      have hfind : r.find? name = some b := by rw [find?, hname, Option.bind_some, hb]
      by_cases hother : other = name
      · rw [if_pos hother, hother, hfind]
        rfl
      · rw [if_neg hother]
  | none =>
      have hfind : r.find? name = none := by rw [find?, hname]; rfl
      by_cases hother : other = name
      · rw [if_pos hother, hother, hfind]
        exact r.find?_add_self name a
      · rw [if_neg hother, find?, handle?_add, if_neg hother, find?]
        cases hj : r.handle? other with
        | none => rfl
        | some j =>
            obtain ⟨b, hb⟩ := h.exists_get? hj
            rw [Option.bind_some, Option.bind_some, hb, r.get?_add name a hb]

end Registry.Tidy

namespace Network

def roll (net : Network) : Roll where
  audience := net.audience
  latest name := (net.listeners.find? name).map Listener.latest

variable {net net' : Network}

theorem roll_congr (hpublishers : net'.publishers = net.publishers)
    (hlisteners : net'.listeners = net.listeners) : net'.roll = net.roll := by
  have haudience : net'.audience = net.audience := funext (audience_congr hpublishers)
  rw [roll, haudience, hlisteners, roll]

theorem roll_commit (net : Network) (handle : Nat) (m : Manager) :
    (net.commit handle m).roll = net.roll := by
  have haudience : (net.commit handle m).audience = net.audience :=
    funext (audience_commit net handle m)
  rw [roll, haudience, roll]
  rfl

/-- A listener's plan may move on while its subscriptions stay. -/
theorem roll_plan (htidy : net.Tidy) (listener : String) (p : Plan) :
    (net.plan listener p).roll = net.roll := by
  have hlatest : ∀ name, ((net.plan listener p).listeners.find? name).map Listener.latest =
      (net.listeners.find? name).map Listener.latest := by
    intro name
    rw [plan, htidy.listeners.find?_update]
    by_cases hname : name = listener
    · rw [if_pos hname, hname, Option.map_map]
      rfl
    · rw [if_neg hname]
  rw [roll, roll, funext hlatest]
  rfl

theorem roll_watch (htidy : net.Tidy) (manager listener : String) (p : Plan) :
    (net.watch manager listener p).roll =
      net.roll.after net.publishers.handle? (.watch manager listener p) := by
  rw [watch, Roll.after]
  cases hg : net.publishers.handle? manager with
  | none => rfl
  | some g =>
      obtain ⟨q, hq⟩ := htidy.publishers.exists_get? hg
      have hensured := htidy.listeners.ensure listener ⟨p, g⟩
      refine Roll.ext ?_ ?_
      · funext g'
        exact audience_subscribe hq (.listener listener) g'
      · funext name
        change (Registry.find? ((net.listeners.ensure listener ⟨p, g⟩).update listener
            fun l => { l with latest := g }) name).map Listener.latest =
          if name = listener then some g else net.roll.latest name
        rw [hensured.find?_update, htidy.listeners.find?_ensure, htidy.listeners.find?_ensure,
          if_pos rfl]
        by_cases hname : name = listener
        · rw [if_pos hname, if_pos hname]
          rfl
        · rw [if_neg hname, if_neg hname, if_neg hname]
          rfl

theorem roll_unwatch (net : Network) (listener : String) :
    (net.unwatch listener).roll = net.roll.leave listener := by
  rw [unwatch, Roll.leave]
  cases hl : net.listeners.find? listener with
  | none =>
      have hlatest : net.roll.latest listener = none := congrArg (Option.map Listener.latest) hl
      rw [hlatest]
  | some l =>
      have hlatest : net.roll.latest listener = some l.latest :=
        congrArg (Option.map Listener.latest) hl
      rw [hlatest]
      have haudience : (net.unsubscribe l.latest (.listener listener)).audience = _ :=
        funext (audience_unsubscribe net l.latest (.listener listener))
      rw [roll, haudience]
      rfl

/-- A way from one network to another on which the roll is that of the acts, and
every audience is that of the roll. -/
structure Tracks (net : Network) (added : List Happening) (net' : Network) : Prop where
  path : Path net added net'
  roll_eq : net.Tidy → net'.roll = net.roll.replay net.publishers.handle? added
  admits : net.Tidy → net.roll.Admits net.publishers.handle? added

variable {added : List Happening}

theorem Tracks.refl (net : Network) : Tracks net [] net :=
  ⟨.refl net, fun _ => rfl, fun _ => trivial⟩

theorem Tracks.trans {last : Network} {more : List Happening} (h : Tracks net added net')
    (hmore : Tracks net' more last) : Tracks net (added ++ more) last where
  path := h.path.trans hmore.path
  roll_eq := by
    intro htidy
    rw [hmore.roll_eq (h.path.tidy htidy), h.roll_eq htidy, h.path.handle?_eq,
      Roll.replay_append]
  admits := by
    intro htidy
    have hrest := hmore.admits (h.path.tidy htidy)
    rw [h.roll_eq htidy, h.path.handle?_eq] at hrest
    exact Roll.admits_append.2 ⟨h.admits htidy, hrest⟩

theorem Tracks.wrote (net : Network) (lines : List Line) :
    Tracks net (lines.map .wrote) (net.write lines) where
  path := (Change.wrote net lines).path
  roll_eq := fun _ => (Roll.replay_wrote ..).symm
  admits := fun _ => Roll.admits_wrote ..

theorem Tracks.planned (net : Network) (listener : String) (p : Plan) :
    Tracks net [] (net.plan listener p) where
  path := (Change.planned net listener p).path
  roll_eq := fun htidy => roll_plan htidy listener p
  admits := fun _ => trivial

theorem Tracks.announced (net : Network) (g : Nat) (e : Event) :
    Tracks net [.announced net.emissions g e (net.audience g)]
      (net.countEmission.note (.announced net.emissions g e (net.audience g))) where
  path := (Change.announced net g e).path
  roll_eq := fun _ => rfl
  admits := fun _ => ⟨rfl, trivial⟩

/-- An act that is no call is noted when it has been performed. -/
theorem Tracks.acted {a : Act} (answer : ActAnswer) (hpath : Path net [] net')
    (hroll : net.Tidy → net'.roll = net.roll.after net.publishers.handle? a) (listener : String) :
    Tracks net [.acted listener a answer] (net'.note (.acted listener a answer)) where
  path := hpath.trans (Change.acted net' listener a answer).path
  roll_eq := hroll
  admits := fun _ => ⟨trivial, trivial⟩

theorem exists_tracks_watched (net : Network) (manager name : String) (p : Plan)
    (listener : String) :
    ∃ added, Tracks net added
      ((net.watch manager name p).note (.acted listener (.watch manager name p) .done)) :=
  ⟨_, .acted .done (Change.watched net manager name p).path
    (fun htidy => roll_watch htidy manager name p) listener⟩

theorem exists_tracks_unwatched (net : Network) (name listener : String) :
    ∃ added, Tracks net added
      ((net.unwatch name).note (.acted listener (.unwatch name) .done)) :=
  ⟨_, .acted (a := .unwatch name) .done (Change.unwatched net name).path
    (fun _ => roll_unwatch net name) listener⟩

/-- A meaning of acts under which the roll is kept up, once an act is noted. -/
def KeepsRoll (inner : Network → Act → Network × ActAnswer) : Prop :=
  ∀ (net : Network) (a : Act) (listener : String),
    ∃ added, Tracks net added ((inner net a).1.note (.acted listener a (inner net a).2))

variable {inner : Network → Act → Network × ActAnswer}

theorem exists_tracks_performAll (hinner : KeepsRoll inner) (listener : String)
    (acts : List Act) :
    ∀ net : Network, ∃ added, Tracks net added (net.performAll inner listener acts) := by
  induction acts with
  | nil => exact fun net => ⟨[], .refl net⟩
  | cons a acts ih =>
      intro net
      obtain ⟨own, hown⟩ := hinner net a listener
      obtain ⟨more, hmore⟩ := ih ((inner net a).1.note (.acted listener a (inner net a).2))
      exact ⟨own ++ more, hown.trans hmore⟩

theorem exists_tracks_react (hinner : KeepsRoll inner) (net : Network) (listener : String)
    (e : Event) : ∃ added, Tracks net added (net.react inner listener e).1 := by
  rw [react]
  cases net.listeners.find? listener with
  | none => exact ⟨[], .refl net⟩
  | some l =>
      obtain ⟨added, hacts⟩ := exists_tracks_performAll hinner listener l.plan.next.1.acts
        (net.plan listener l.plan.next.2)
      have htracks := (Tracks.planned net listener l.plan.next.2).trans hacts
      dsimp only
      cases l.plan.next.1.failure with
      | none => exact ⟨_, htracks⟩
      | some raised =>
          obtain ⟨lines, hlines⟩ := exists_lines_fail ((net.plan listener l.plan.next.2).performAll
            inner listener l.plan.next.1.acts) e raised
          have hfailed := htracks.trans (.wrote _ lines)
          rw [← hlines] at hfailed
          exact ⟨_, hfailed⟩

theorem exists_tracks_receive (hinner : KeepsRoll inner) (emission g : Nat) (e : Event)
    (net : Network) (s : Subscriber) :
    ∃ added, Tracks net added (receive inner emission g e net s).1 := by
  cases s with
  | listener name =>
      have hheard : Tracks net [.delivered emission g e (.listener name)]
          (net.note (.delivered emission g e (.listener name))) :=
        ⟨(Change.heard net emission g e name).path, fun _ => rfl, fun _ => ⟨trivial, trivial⟩⟩
      obtain ⟨added, hreact⟩ := exists_tracks_react hinner
        (net.note (.delivered emission g e (.listener name))) name e
      exact ⟨_, hheard.trans hreact⟩
  | indexer i t =>
      obtain ⟨lines, hchange⟩ := exists_change_ingest net emission g e i t
      refine ⟨_, hchange.path, fun _ => ?_, fun _ => ⟨trivial, Roll.admits_wrote ..⟩⟩
      exact (roll_congr (publishers_ingest ..) (listeners_ingest ..)).trans
        (Roll.replay_wrote ..).symm
  | recorder k =>
      obtain ⟨lines, hchange⟩ := exists_change_keepLog net emission g e k
      refine ⟨_, hchange.path, fun _ => ?_, fun _ => ⟨trivial, Roll.admits_wrote ..⟩⟩
      exact (roll_congr (publishers_keepLog ..) (listeners_keepLog ..)).trans
        (Roll.replay_wrote ..).symm

theorem exists_tracks_deliver (hinner : KeepsRoll inner) (emission g : Nat) (e : Event)
    (audience : List Subscriber) :
    ∀ net : Network, ∃ added, Tracks net added (deliver inner emission g e net audience).1 := by
  induction audience with
  | nil => exact fun net => ⟨[], .refl net⟩
  | cons s audience ih =>
      intro net
      obtain ⟨own, hown⟩ := exists_tracks_receive hinner emission g e net s
      rw [deliver]
      cases hreceived : receive inner emission g e net s with
      | mk after escaped =>
          rw [hreceived] at hown
          cases escaped with
          | none =>
              obtain ⟨others, hothers⟩ := ih after
              exact ⟨own ++ others, hown.trans hothers⟩
          | some escaped =>
              have hbroken : Tracks after [.brokenOff emission g s escaped]
                  (after.note (.brokenOff emission g s escaped)) :=
                ⟨(Change.brokenOff after emission g s escaped).path, fun _ => rfl,
                  fun _ => ⟨trivial, trivial⟩⟩
              exact ⟨_, hown.trans hbroken⟩

theorem exists_tracks_call (hinner : KeepsRoll inner) {g : Nat} {m : Manager}
    (hmanager : net.manager? g = some m) (c : Call) :
    ∃ added, Tracks net added (net.call inner g m c).1 := by
  rw [call]
  cases hperform : m.perform c with
  | error e =>
      have hrefused : Tracks net [.called g c (.error e)] (net.note (.called g c (.error e))) :=
        ⟨(Change.refused hmanager hperform).path, fun _ => rfl, fun _ => ⟨trivial, trivial⟩⟩
      exact ⟨_, hrefused.trans (.wrote _ (m.lines c))⟩
  | ok r =>
      obtain ⟨m', r⟩ := r
      have hcommitted : Tracks net [.called g c (.ok r)]
          ((net.commit g m').note (.called g c (.ok r))) :=
        ⟨(Change.committed hmanager hperform).path, fun _ => roll_commit net g m',
          fun _ => ⟨trivial, trivial⟩⟩
      obtain ⟨told, htold⟩ := exists_tracks_deliver hinner _ g r.event _ _
      exact ⟨_, ((hcommitted.trans (.wrote _ (m.lines c))).trans (.announced _ g r.event)).trans
        htold⟩

theorem keepsRoll_performWith (hinner : KeepsRoll inner) : KeepsRoll (performWith inner) := by
  intro net a listener
  cases a with
  | watch manager name p => exact exists_tracks_watched net manager name p listener
  | unwatch name => exact exists_tracks_unwatched net name listener
  | call name c =>
      -- The act itself is noted behind all that the call leads to.
      have hnoted : ∀ {last : Network} (answer : ActAnswer), (∃ added, Tracks net added last) →
          ∃ added, Tracks net added (last.note (.acted listener (.call name c) answer)) := by
        intro last answer hlast
        obtain ⟨added, htracks⟩ := hlast
        exact ⟨_, htracks.trans (.acted answer (.refl last) (fun _ => rfl) listener)⟩
      rw [performWith]
      cases net.publishers.handle? name with
      | none => exact hnoted .done ⟨_, .refl net⟩
      | some g =>
          cases hget : net.publishers.get? g with
          | none =>
              simp only [hget]
              exact hnoted .done ⟨_, .refl net⟩
          | some p =>
              simp only [hget]
              have hmanager : net.manager? g = some p.manager := by rw [manager?, hget]; rfl
              exact hnoted _ (exists_tracks_call hinner hmanager c)

/-! ### The deepest acts -/

/-- Performs an act unless it is a call. -/
def withoutCalls (net : Network) : Act → Network × ActAnswer
  | .call _ _ => (net, .done)
  | .watch manager listener p => (net.watch manager listener p, .done)
  | .unwatch listener => (net.unwatch listener, .done)

/-- Performs an act in which the calls of listeners nest up to a number of
levels. -/
def nest : Nat → Network → Act → Network × ActAnswer
  | 0 => withoutCalls
  | levels + 1 => performWith (nest levels)

theorem keepsRoll_withoutCalls : KeepsRoll withoutCalls := by
  intro net a listener
  cases a with
  | watch manager name p => exact exists_tracks_watched net manager name p listener
  | unwatch name => exact exists_tracks_unwatched net name listener
  | call name c => exact ⟨_, .acted .done (.refl net) (fun _ => rfl) listener⟩

theorem keepsRoll_nest (levels : Nat) : KeepsRoll (nest levels) := by
  induction levels with
  | zero => exact keepsRoll_withoutCalls
  | succ levels ih => exact keepsRoll_performWith ih

theorem perform_eq_nest (levels : Nat) :
    ∀ (net : Network) (a : Act), net.reactions + a.reactions ≤ levels →
      perform levels net a = nest (levels + 1) net a := by
  induction levels with
  | zero =>
      intro net a hle
      refine (performWith_congr net a (fun _ _ _ => Nat.le_add_right ..) ?_).1
      -- Without reactions nobody acts at all.
      exact fun _ _ hlt => absurd hlt (by omega)
  | succ levels ih =>
      intro net a hle
      refine (performWith_congr net a (fun net a _ => reactions_perform_le levels net a) ?_).1
      exact fun net a hlt => ih net a (by omega)

theorem act_eq_nest (net : Network) (a : Act) :
    net.act a = nest (net.reactions + a.reactions + 1) net a :=
  perform_eq_nest _ net a (Nat.le_refl _)

/-! ### The roll of an act -/

theorem tracks_act (net : Network) (a : Act) (listener : String) :
    Tracks net (net.happened [.act a] ++ [.acted listener a (net.act a).2])
      ((net.act a).1.note (.acted listener a (net.act a).2)) := by
  obtain ⟨added, htracks⟩ := keepsRoll_nest (net.reactions + a.reactions + 1) net a listener
  rw [← act_eq_nest] at htracks
  have hhappened : (net.act a).1.history = net.history ++ net.happened [.act a] :=
    (net.path_happened [.act a]).history_eq
  have hadded : net.happened [.act a] ++ [.acted listener a (net.act a).2] = added := by
    have hnote : ((net.act a).1.note (.acted listener a (net.act a).2)).history =
        (net.act a).1.history ++ [.acted listener a (net.act a).2] := rfl
    have hsame := htracks.path.history_eq
    rw [hnote, hhappened, List.append_assoc] at hsame
    exact List.append_cancel_left hsame
  rwa [hadded]

/-- The roll of a network after an act is that of the acts of listeners, as far
as they are in the history, and of the act itself. -/
theorem roll_act (htidy : net.Tidy) (a : Act) :
    (net.act a).1.roll =
      (net.roll.replay net.publishers.handle? (net.happened [.act a])).after
        net.publishers.handle? a := by
  have htracks := net.tracks_act a ""
  have hnote : ((net.act a).1.note (.acted "" a (net.act a).2)).roll = (net.act a).1.roll := rfl
  rw [← hnote, htracks.roll_eq htidy, Roll.replay_append]
  rfl

/-- All events are announced to those who are on the roll at that moment. -/
theorem admits_act (htidy : net.Tidy) (a : Act) :
    net.roll.Admits net.publishers.handle? (net.happened [.act a]) :=
  (Roll.admits_append.1 ((net.tracks_act a "").admits htidy)).1

end Network

end EpochClaims
