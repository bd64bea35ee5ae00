import EpochClaims.Proofs.Network.Effect
import Mathlib.Data.List.Nodup

/-!
# Tidy networks

In a tidy registry every name has the handle of an object, and no two names
have the same one. A network is tidy if its managers and its listeners are, and
if nobody is in an audience twice. Then a name can be looked up and changed
without touching another one. Every network that is reached by commands is tidy
(`IsReached.tidy`).
-/

namespace EpochClaims

namespace Registry

variable {α : Type} {r : Registry α} {name : String} {a : α}

theorem handle?_add (r : Registry α) (name : String) (a : α) (other : String) :
    (r.add name a).handle? other = if other = name then some r.size else r.handle? other := by
  rw [handle?, add, List.lookup_cons, handle?]
  by_cases h : other = name
  · simp [h]
  · simp [beq_eq_false_iff_ne.2 h, h]

@[simp] theorem size_add (r : Registry α) (name : String) (a : α) :
    (r.add name a).size = r.size + 1 := by
  simp [size, add]

@[simp] theorem size_modify (r : Registry α) (handle : Nat) (f : α → α) :
    (r.modify handle f).size = r.size := by
  simp [size, modify]

/-- Names have handles of objects, each its own. -/
structure Tidy (r : Registry α) : Prop where
  lt_size : ∀ name i, r.handle? name = some i → i < r.size
  inj : ∀ name other i, r.handle? name = some i → r.handle? other = some i → name = other

theorem tidy_empty : (empty : Registry α).Tidy := ⟨nofun, nofun⟩

theorem Tidy.add (h : r.Tidy) (name : String) (a : α) : (r.add name a).Tidy where
  lt_size := by
    intro other i hi
    rw [handle?_add] at hi
    rw [size_add]
    by_cases hother : other = name
    · rw [if_pos hother] at hi
      obtain rfl := Option.some.inj hi
      exact Nat.lt_succ_self _
    · rw [if_neg hother] at hi
      exact Nat.lt_succ_of_lt (h.lt_size other i hi)
  inj := by
    intro first second i hfirst hsecond
    rw [handle?_add] at hfirst hsecond
    -- The new handle is none of those that were given before.
    by_cases h₁ : first = name <;> by_cases h₂ : second = name
    · rw [h₁, h₂]
    · rw [if_pos h₁] at hfirst
      rw [if_neg h₂] at hsecond
      obtain rfl := Option.some.inj hfirst
      exact absurd (h.lt_size second _ hsecond) (Nat.lt_irrefl _)
    · rw [if_neg h₁] at hfirst
      rw [if_pos h₂] at hsecond
      obtain rfl := Option.some.inj hsecond
      exact absurd (h.lt_size first _ hfirst) (Nat.lt_irrefl _)
    · rw [if_neg h₁] at hfirst
      rw [if_neg h₂] at hsecond
      exact h.inj first second i hfirst hsecond

theorem Tidy.modify (h : r.Tidy) (handle : Nat) (f : α → α) : (r.modify handle f).Tidy where
  lt_size := by
    intro name i hi
    rw [size_modify]
    exact h.lt_size name i hi
  inj := h.inj

theorem Tidy.update (h : r.Tidy) (name : String) (f : α → α) : (r.update name f).Tidy := by
  rw [Registry.update]
  split
  · exact h.modify _ f
  · exact h

theorem Tidy.ensure (h : r.Tidy) (name : String) (a : α) : (r.ensure name a).Tidy := by
  rw [Registry.ensure]
  split
  · exact h
  · exact h.add name a

/-- A name of a tidy registry finds an object. -/
theorem Tidy.exists_get? (h : r.Tidy) {i : Nat} (hi : r.handle? name = some i) :
    ∃ a, r.get? i = some a :=
  ⟨_, List.getElem?_eq_getElem (h.lt_size name i hi)⟩

end Registry

namespace Network

variable {net net' : Network}

/-- Managers and listeners are found by their names, and nobody subscribes to a
manager twice. -/
structure Tidy (net : Network) : Prop where
  publishers : net.publishers.Tidy
  listeners : net.listeners.Tidy
  nodup : ∀ g, (net.audience g).Nodup

theorem Tidy.congr (h : net.Tidy) (hpublishers : net'.publishers = net.publishers)
    (hlisteners : net'.listeners = net.listeners) : net'.Tidy where
  publishers := by rw [hpublishers]; exact h.publishers
  listeners := by rw [hlisteners]; exact h.listeners
  nodup := by
    intro g
    rw [audience_congr hpublishers]
    exact h.nodup g

theorem tidy_empty : empty.Tidy where
  publishers := Registry.tidy_empty
  listeners := Registry.tidy_empty
  nodup := fun _ => List.nodup_nil

theorem Tidy.subscribe (h : net.Tidy) {handle : Nat} {p : Publisher}
    (hp : net.publishers.get? handle = some p) (s : Subscriber) :
    (net.subscribe handle s).Tidy where
  publishers := h.publishers.modify handle _
  listeners := h.listeners
  nodup := by
    intro g
    rw [audience_subscribe hp]
    split
    · next hnew =>
      exact (h.nodup handle).append (List.nodup_singleton s) (List.disjoint_singleton.2 hnew.2)
    · exact h.nodup g

theorem Tidy.unsubscribe (h : net.Tidy) (handle : Nat) (s : Subscriber) :
    (net.unsubscribe handle s).Tidy where
  publishers := h.publishers.modify handle _
  listeners := h.listeners
  nodup := by
    intro g
    rw [audience_unsubscribe]
    split
    · exact (h.nodup handle).filter _
    · exact h.nodup g

theorem Tidy.watch (h : net.Tidy) (manager listener : String) (p : Plan) :
    (net.watch manager listener p).Tidy := by
  rw [Network.watch]
  split
  · exact h
  · next handle hhandle =>
    obtain ⟨q, hq⟩ := h.publishers.exists_get? hhandle
    have hlisteners := (h.listeners.ensure listener ⟨p, handle⟩).update listener
      fun l => { l with latest := handle }
    have hentered : Tidy { net with
        listeners := (net.listeners.ensure listener ⟨p, handle⟩).update listener
          fun l => { l with latest := handle } } := ⟨h.publishers, hlisteners, h.nodup⟩
    exact hentered.subscribe hq (.listener listener)

theorem Tidy.unwatch (h : net.Tidy) (listener : String) : (net.unwatch listener).Tidy := by
  rw [Network.unwatch]
  split
  · exact h
  · next l _ => exact h.unsubscribe l.latest (.listener listener)

theorem Tidy.addManager (h : net.Tidy) (name : String) (m : Manager) :
    (net.addManager name m).Tidy where
  publishers := h.publishers.add name ⟨m, []⟩
  listeners := h.listeners
  nodup := by
    intro g
    cases hp : net.publishers.get? g with
    | some p =>
        rw [audience_of_get? (net.publishers.get?_add name ⟨m, []⟩ hp), ← audience_of_get? hp]
        exact h.nodup g
    | none =>
        -- The handle is that of the new manager or of no manager at all.
        cases hq : (net.addManager name m).publishers.get? g with
        | none =>
            rw [audience, hq]
            exact List.nodup_nil
        | some q =>
            have hlast : g = net.publishers.objects.length := by
              have hlt := (List.getElem?_eq_some_iff.1 hq).1
              have hge := List.getElem?_eq_none_iff.1 hp
              simp only [Network.addManager, Registry.add, List.length_append,
                List.length_singleton] at hlt
              omega
            have hnew : (net.addManager name m).publishers.get? g = some ⟨m, []⟩ := by
              rw [hlast]
              exact net.publishers.get?_add_size name ⟨m, []⟩
            rw [audience_of_get? hnew]
            exact List.nodup_nil

/-! ### Changes and commands -/

theorem Change.tidy {added : List Happening} (h : Change net added net') (htidy : net.Tidy) :
    net'.Tidy := by
  cases h with
  | @committed handle _ m' c r _ _ =>
      refine ⟨htidy.publishers.modify handle _, htidy.listeners, fun g => ?_⟩
      have haudience : ((net.commit handle m').note (.called handle c (.ok r))).audience g =
          net.audience g := audience_commit net handle m' g
      rw [haudience]
      exact htidy.nodup g
  | refused _ _ => exact htidy.congr rfl rfl
  | wrote _ => exact htidy.congr rfl rfl
  | announced _ _ => exact htidy.congr rfl rfl
  | heard _ _ _ _ => exact htidy.congr rfl rfl
  | ingested _ => exact htidy.congr (by rw [publishers_ingest]; rfl) (by rw [listeners_ingest]; rfl)
  | kept _ => exact htidy.congr (by rw [publishers_keepLog]; rfl) (by rw [listeners_keepLog]; rfl)
  | planned listener p =>
      exact ⟨htidy.publishers, htidy.listeners.update listener _, htidy.nodup⟩
  | brokenOff _ _ _ _ => exact htidy.congr rfl rfl
  | acted _ _ _ => exact htidy.congr rfl rfl
  | watched manager listener p => exact htidy.watch manager listener p
  | unwatched listener => exact htidy.unwatch listener
  | settled _ => exact htidy.congr (still_settle net).publishers_eq (still_settle net).listeners_eq

theorem Path.tidy {added : List Happening} (h : Path net added net') (htidy : net.Tidy) :
    net'.Tidy := by
  induction h with
  | refl _ => exact htidy
  | next hchange _ ih => exact ih (hchange.tidy htidy)

theorem Still.tidy (h : net.Still net') (htidy : net.Tidy) : net'.Tidy :=
  htidy.congr h.publishers_eq h.listeners_eq

theorem Effect.tidy {c : Command} (h : net.Effect c net') (htidy : net.Tidy) : net'.Tidy := by
  cases h with
  | still hstill => exact hstill.tidy htidy
  | introduced name m => exact htidy.addManager name m
  | @acted a _ =>
      obtain ⟨_, -, hpath⟩ := net.relates_act a
      exact hpath.tidy htidy
  | subscribed hstill hg s =>
      obtain ⟨p, hp⟩ := htidy.publishers.exists_get? hg
      rw [← hstill.publishers_eq] at hp
      exact (hstill.tidy htidy).subscribe hp s
  | unsubscribed g s => exact htidy.unsubscribe g s

/-- Whatever is done from outside and inside, names and audiences stay in
order. -/
theorem IsReached.tidy {allowed : Command → Prop} (h : net.IsReached allowed) : net.Tidy := by
  induction h with
  | empty => exact tidy_empty
  | @step net _ c _ ih => exact (still_settle _).tidy ((net.effect_execute c).tidy ih)

end Network

end EpochClaims
