import EpochClaims.Proofs.Network.Nesting
import Mathlib.Data.List.Nodup

/-!
# Emissions and their copies

Every event is announced under a number of its own, the number of emissions
before it (`Path.numbers`), so a history tells which deliveries belong to
which announcement even if other events are announced in between. Announced are
the events of the committed calls, one for each (`Tells.announced_eq`), and, if no
delivery breaks off, the copies of an emission that are delivered are those that
it owes to its audience, in this order (`Tells.copies_eq`).
-/

namespace EpochClaims

namespace Happening

/-- The manager and the event of a committed call. -/
def commitment? : Happening → Option (Nat × Event)
  | called g _ (.ok r) => some (g, r.event)
  | _ => none

def announcement? : Happening → Option (Nat × Event)
  | announced _ g e _ => some (g, e)
  | _ => none

def emission? : Happening → Option Nat
  | announced n _ _ _ => some n
  | _ => none

/-- A delivery under a number: the manager, the event and the subscriber. -/
def copy? (n : Nat) : Happening → Option (Nat × Event × Subscriber)
  | delivered n' g e s => if n' = n then some (g, e, s) else none
  | _ => none

/-- What an announcement under a number owes: a copy for each of its audience. -/
def owes (n : Nat) : Happening → List (Nat × Event × Subscriber)
  | announced n' g e audience => if n' = n then audience.map fun s => (g, e, s) else []
  | _ => []

def emissions (history : List Happening) : List Nat :=
  history.filterMap emission?

/-- The deliveries under a number. -/
def copies (n : Nat) (history : List Happening) : List (Nat × Event × Subscriber) :=
  history.filterMap (copy? n)

/-- What is owed under a number. -/
def owed (n : Nat) (history : List Happening) : List (Nat × Event × Subscriber) :=
  history.flatMap (owes n)

variable {n : Nat} {history more : List Happening}

theorem emissions_append (history more : List Happening) :
    emissions (history ++ more) = emissions history ++ emissions more :=
  List.filterMap_append

theorem copies_append (n : Nat) (history more : List Happening) :
    copies n (history ++ more) = copies n history ++ copies n more :=
  List.filterMap_append

theorem owed_append (n : Nat) (history more : List Happening) :
    owed n (history ++ more) = owed n history ++ owed n more :=
  List.flatMap_append

@[simp] theorem emissions_wrote (lines : List Line) : emissions (lines.map wrote) = [] :=
  filterMap_wrote (fun _ => rfl) lines

@[simp] theorem copies_wrote (n : Nat) (lines : List Line) : copies n (lines.map wrote) = [] :=
  filterMap_wrote (fun _ => rfl) lines

@[simp] theorem owed_wrote (n : Nat) (lines : List Line) : owed n (lines.map wrote) = [] := by
  rw [owed, List.flatMap_map, List.flatMap_eq_nil_iff]
  intro line _
  rfl

theorem mem_emissions_iff : n ∈ emissions history ↔
    ∃ g e audience, .announced n g e audience ∈ history := by
  rw [emissions, List.mem_filterMap]
  constructor
  · rintro ⟨h, hmem, hn⟩
    cases h with
    | announced n' g e audience =>
        obtain rfl := Option.some.inj hn
        exact ⟨g, e, audience, hmem⟩
    | _ => contradiction
  · rintro ⟨g, e, audience, hmem⟩
    exact ⟨_, hmem, rfl⟩

theorem owed_eq_nil (hn : n ∉ emissions history) : owed n history = [] := by
  rw [owed, List.flatMap_eq_nil_iff]
  intro h hmem
  cases h with
  | announced n' g e audience =>
      rw [owes, if_neg]
      rintro rfl
      exact hn (mem_emissions_iff.2 ⟨g, e, audience, hmem⟩)
  | _ => rfl

/-- An emission owes a copy to each of its audience and to nobody else. -/
theorem owed_eq (hnodup : (emissions history).Nodup) {g : Nat} {e : Event}
    {audience : List Subscriber} (hmem : .announced n g e audience ∈ history) :
    owed n history = audience.map fun s => (g, e, s) := by
  obtain ⟨before, after, rfl⟩ := List.append_of_mem hmem
  have hsplit : emissions (before ++ announced n g e audience :: after) =
      emissions before ++ n :: emissions after := emissions_append ..
  rw [hsplit, List.nodup_middle, List.nodup_cons, List.mem_append, not_or] at hnodup
  have howed : owed n (announced n g e audience :: after) =
      (audience.map fun s => (g, e, s)) ++ owed n after := by
    rw [owed, List.flatMap_cons, owes, if_pos rfl]
    rfl
  rw [owed_append, howed, owed_eq_nil hnodup.1.1, owed_eq_nil hnodup.1.2, List.append_nil,
    List.nil_append]

end Happening

open Happening

/-! ### What is announced -/

variable {handle? : String → Option Nat} {episode : Episode} {history : List Happening}

/-- The events that are announced are those of the committed calls, one for each
and in their order. -/
theorem Tells.announced_eq (h : Tells handle? episode history) :
    history.filterMap announcement? = history.filterMap commitment? := by
  induction h with
  | idle _ => rfl
  | refused _ c e m lines =>
      exact (filterMap_wrote (fun _ => rfl) lines).trans
        (filterMap_wrote (fun _ => rfl) lines).symm
  | committed _ c m lines _ ih =>
      rw [filterMap_committed (fun _ => rfl), filterMap_committed (fun _ => rfl), ih]
      rfl
  | nobody _ _ _ => rfl
  | @delivered n g e s audience _ own others _ _ ihown ihothers =>
      change (own ++ others).filterMap announcement? = (own ++ others).filterMap commitment?
      rw [List.filterMap_append, List.filterMap_append, ihown, ihothers]
  | @brokenOff n g e s audience escaped own _ ihown =>
      change (own ++ [Happening.brokenOff n g s escaped]).filterMap announcement? =
        (own ++ [Happening.brokenOff n g s escaped]).filterMap commitment?
      rw [List.filterMap_append, List.filterMap_append, ihown]
      rfl
  | quiet _ lines =>
      exact (filterMap_wrote (fun _ => rfl) lines).trans
        (filterMap_wrote (fun _ => rfl) lines).symm
  | reacted _ _ ihown ihrest =>
      rw [List.filterMap_append, List.filterMap_append, ihown, List.filterMap_cons,
        List.filterMap_cons, ihrest]
      rfl
  | still => rfl
  | settled lines _ ih =>
      rw [filterMap_wrote_append (fun _ => rfl), filterMap_wrote_append (fun _ => rfl), ih]
  | moved _ _ ihown ihrest =>
      rw [List.filterMap_append, List.filterMap_append, ihown, ihrest]

/-! ### The numbers of emissions -/

namespace Network

variable {net net' : Network} {added : List Happening}

theorem emissions_ingest (net : Network) (i : Nat) (e : Event) :
    (net.ingest i e).emissions = net.emissions := by
  rw [ingest]
  split <;> rfl

theorem emissions_keepLog (net : Network) (k : Nat) (e : Event) :
    (net.keepLog k e).emissions = net.emissions := by
  rw [keepLog]
  split <;> rfl

theorem emissions_watch (net : Network) (manager listener : String) (p : Plan) :
    (net.watch manager listener p).emissions = net.emissions := by
  rw [watch]
  split <;> rfl

theorem emissions_unwatch (net : Network) (listener : String) :
    (net.unwatch listener).emissions = net.emissions := by
  rw [unwatch]
  split <;> rfl

theorem emissions_settleOne (net : Network) (i : Nat) :
    (net.settleOne i).emissions = net.emissions := by
  rw [settleOne]
  split
  · rfl
  · split <;> rfl

/-- The announcements of a path are numbered on from those before it. -/
structure Numbers (net : Network) (added : List Happening) (net' : Network) : Prop where
  emissions_eq : Happening.emissions added =
    List.range' net.emissions (Happening.emissions added).length
  next_eq : net'.emissions = net.emissions + (Happening.emissions added).length

theorem Numbers.of_silent (hadded : Happening.emissions added = [])
    (hnext : net'.emissions = net.emissions) : Numbers net added net' where
  emissions_eq := by rw [hadded]; rfl
  next_eq := by rw [hadded, hnext]; rfl

theorem Numbers.trans {last : Network} {more : List Happening} (h : Numbers net added net')
    (hmore : Numbers net' more last) : Numbers net (added ++ more) last where
  emissions_eq := by
    have hrange : List.range' net.emissions (Happening.emissions added).length ++
        List.range' (net.emissions + (Happening.emissions added).length)
          (Happening.emissions more).length =
            List.range' net.emissions
              ((Happening.emissions added).length + (Happening.emissions more).length) :=
      List.range'_append_1
    rw [← h.next_eq, ← hmore.emissions_eq, ← h.emissions_eq] at hrange
    rw [emissions_append, List.length_append, hrange]
  next_eq := by
    rw [hmore.next_eq, h.next_eq, emissions_append, List.length_append, Nat.add_assoc]

/-- No two events are announced under one number. -/
theorem Numbers.nodup (h : Numbers net added net') : (Happening.emissions added).Nodup := by
  rw [h.emissions_eq]
  exact List.nodup_range'

theorem Change.numbers (h : Change net added net') : Numbers net added net' := by
  cases h with
  | committed _ _ => exact .of_silent rfl rfl
  | refused _ _ => exact .of_silent rfl rfl
  | wrote lines => exact .of_silent (emissions_wrote lines) rfl
  | announced _ _ => exact ⟨rfl, rfl⟩
  | heard _ _ _ _ => exact .of_silent rfl rfl
  | ingested _ => exact .of_silent (emissions_wrote _) (emissions_ingest ..)
  | kept _ => exact .of_silent (emissions_wrote _) (emissions_keepLog ..)
  | planned _ _ => exact .of_silent rfl rfl
  | brokenOff _ _ _ _ => exact .of_silent rfl rfl
  | acted _ _ _ => exact .of_silent rfl rfl
  | watched manager listener p => exact .of_silent rfl (emissions_watch ..)
  | unwatched listener => exact .of_silent rfl (emissions_unwatch ..)
  | settled _ =>
      exact .of_silent (emissions_wrote _) (settle_keeps Network.emissions emissions_settleOne _)

theorem Path.numbers (h : Path net added net') : Numbers net added net' := by
  induction h with
  | refl _ => exact .of_silent rfl rfl
  | next hchange _ ih => exact hchange.numbers.trans ih

end Network

/-! ### What is delivered -/

/-- The copies that an episode itself still has to deliver under a number. -/
def Episode.owed (n : Nat) : Episode → List (Nat × Event × Subscriber)
  | delivering n' g e audience _ => if n' = n then audience.map fun s => (g, e, s) else []
  | _ => []

def Episode.emission : Episode → List Nat
  | delivering n _ _ _ _ => [n]
  | _ => []

/-- The copies that are delivered under a number are those that are owed, in
order, provided that no number is used twice and no delivery breaks off. -/
theorem Tells.copies_eq (h : Tells handle? episode history) (n : Nat) (hwhole : Whole history)
    (hnodup : (episode.emission ++ emissions history).Nodup) :
    copies n history = episode.owed n ++ owed n history := by
  induction h with
  | idle _ => rfl
  | refused _ c e m lines => exact (copies_wrote n lines).trans (owed_wrote n lines).symm
  | @committed _ g _ c r m lines n' audience escaped told _ ih =>
      have hcopies : copies n (called g c (.ok r) :: (lines.map wrote ++
          announced n' g r.event audience :: told)) = copies n told :=
        filterMap_committed (fun _ => rfl) ..
      have hemissions : emissions (called g c (.ok r) :: (lines.map wrote ++
          announced n' g r.event audience :: told)) = n' :: emissions told :=
        filterMap_committed (fun _ => rfl) ..
      have howed : owed n (called g c (.ok r) :: (lines.map wrote ++
          announced n' g r.event audience :: told)) =
            (Episode.delivering n' g r.event audience escaped).owed n ++ owed n told := by
        have hhead : owed n (called g c (.ok r) :: (lines.map wrote ++
            announced n' g r.event audience :: told)) =
              owed n (lines.map wrote ++ announced n' g r.event audience :: told) := rfl
        rw [hhead, owed_append, owed_wrote]
        rfl
      rw [hemissions] at hnodup
      rw [hcopies, howed]
      exact ih (hwhole.of_subset fun x hx => by simp [hx]) hnodup
  | nobody n' g e =>
      rw [Episode.owed, List.map_nil, ite_self]
      rfl
  | @delivered n' g e s audience escaped own others _ _ ihown ihothers =>
      have hemissions : emissions (Happening.delivered n' g e s :: (own ++ others)) =
          emissions own ++ emissions others := emissions_append ..
      rw [hemissions, Episode.emission, List.singleton_append, List.nodup_cons, List.mem_append,
        not_or] at hnodup
      obtain ⟨⟨hown, hothers⟩, hboth⟩ := hnodup
      have hcopies : copies n (Happening.delivered n' g e s :: (own ++ others)) =
          (if n' = n then [(g, e, s)] else []) ++ (copies n own ++ copies n others) := by
        rw [← copies_append, copies, List.filterMap_cons, copy?]
        by_cases hn : n' = n <;> simp [hn, copies]
      have howed : owed n (Happening.delivered n' g e s :: (own ++ others)) =
          owed n own ++ owed n others := owed_append ..
      rw [hcopies, howed, ihown (hwhole.of_subset fun x hx => by simp [hx]) hboth.of_append_left,
        ihothers (hwhole.of_subset fun x hx => by simp [hx])
          (List.nodup_cons.2 ⟨hothers, hboth.of_append_right⟩)]
      by_cases hn : n' = n
      · -- While a subscriber hears the event, nothing is announced under its number.
        subst hn
        simp [Episode.owed, owed_eq_nil hown]
      · simp [Episode.owed, hn]
  | @brokenOff n' g e s audience escaped own _ _ =>
      exact absurd (List.mem_cons_of_mem _ (List.mem_append_right own List.mem_cons_self))
        (hwhole n' g s escaped)
  | quiet _ lines => exact (copies_wrote n lines).trans (owed_wrote n lines).symm
  | @reacted name a answer own rest _ _ ihown ihrest =>
      have hcopies : copies n (own ++ acted name a answer :: rest) =
          copies n own ++ copies n rest := copies_append ..
      have howed : owed n (own ++ acted name a answer :: rest) = owed n own ++ owed n rest :=
        owed_append ..
      have hemissions : emissions (own ++ acted name a answer :: rest) =
          emissions own ++ emissions rest := emissions_append ..
      rw [hemissions] at hnodup
      have hboth : (emissions own ++ emissions rest).Nodup := hnodup
      rw [hcopies, howed, ihown (hwhole.of_subset fun x hx => by simp [hx]) hboth.of_append_left,
        ihrest (hwhole.of_subset fun x hx => by simp [hx]) hboth.of_append_right]
      rfl
  | still => rfl
  | settled lines _ ih =>
      rw [emissions_append, emissions_wrote] at hnodup
      rw [copies_append, owed_append, copies_wrote, owed_wrote]
      exact ih (hwhole.of_subset (List.subset_append_right ..)) hnodup
  | @moved _ _ _ own rest _ _ ihown ihrest =>
      rw [emissions_append] at hnodup
      have hboth : (emissions own ++ emissions rest).Nodup := hnodup
      rw [copies_append, owed_append,
        ihown (hwhole.of_subset (List.subset_append_left ..)) hboth.of_append_left,
        ihrest (hwhole.of_subset (List.subset_append_right ..)) hboth.of_append_right]
      rfl

end EpochClaims
