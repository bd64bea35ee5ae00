import EpochClaims.Cache
import Mathlib.Data.List.Induction

/-!
# A cache is a flat map

A cache keeps a shelf for every epoch, but what it replies does not show this: an
entry reads as the last value that was put under its epoch and name, unless it was
removed since. `Request.Concerns` says which requests have to do with an entry. One
that does decides what the entry reads as, whatever was there before, and one that
does not leaves it alone (`get_perform`); `cache_is_flat_map` follows for requests in
any sequence. Epochs name the same entry if they are the same number, and NaN is an
epoch like any other.
-/

namespace EpochClaims

namespace Binary64

/-- Two numbers are the same key if they are equal, and NaN is one key. -/
theorem sameKey_iff {x y : Binary64} :
    x.sameKey y = true ↔ x.sameNumber y = true ∨ (x = nan ∧ y = nan) := by
  rw [sameKey, beq_iff_eq]
  cases x with
  | nan => cases y <;> simp [key, sameNumber]
  | infinity s => cases y <;> simp [key, sameNumber]
  | finite s m =>
      cases y with
      | nan => simp [key, sameNumber]
      | infinity t => simp [key, sameNumber]
      | finite t n =>
          -- The sign of a number counts only if it is not zero.
          rw [key, key, finite.injEq, sameNumber, beq_iff_eq, signed, signed]
          cases s <;> cases t <;> grind

/-- Only NaN is the same key as something that is not the same number. -/
theorem sameKey_eq_sameNumber {x : Binary64} (hx : x ≠ nan) (y : Binary64) :
    y.sameKey x = x.sameNumber y := by
  rw [sameKey_comm, Bool.eq_iff_iff, sameKey_iff]
  exact or_iff_left fun h => hx h.1

end Binary64

theorem Shelves.get_empty (epoch name : Argument) : empty.get epoch name = none := by
  rw [get]
  split <;> rfl

namespace Cache

theorem get_of_faults_eq_nil {c : Cache} (hc : c.faults = []) (epoch name : Argument) :
    c.get epoch name = .ok (c.content.get epoch name) := by
  rw [get, refusal?, hc]
  rfl

theorem set_of_faults_eq_nil {c : Cache} (hc : c.faults = []) (epoch name : Argument)
    (d : Document) : c.set epoch name d = .ok { c with content := c.content.set epoch name d } := by
  rw [set, refusal?, hc]
  rfl

/-- What is asked of a cache. A value that is missing is put as well. -/
inductive Request where
  | get (epoch : Binary64) (name : String)
  | set (epoch : Binary64) (name : String) (value : Argument)
  | delete (epoch : Binary64) (name : String)
  | clear (epoch : Binary64)
  deriving DecidableEq, Repr

/-- The document that is kept for a value: null for a missing one. -/
def kept (value : Argument) : Document :=
  value.toOption.getD .null

/-- A cache after a request, and its reply. -/
def perform (c : Cache) : Request → Cache × Except Raised (Option Document)
  | .get epoch name => (c, c.get (.number epoch) (.text name))
  | .set epoch name value =>
    match c.set (.number epoch) (.text name) (kept value) with
    | .ok c' => (c', .ok none)
    | .error r => (c, .error r)
  | .delete epoch name => (c.delete (.number epoch) (.text name), .ok none)
  | .clear epoch => (c.clear (.number epoch), .ok none)

/-- A cache after requests in sequence. -/
def run (c : Cache) (requests : List Request) : Cache :=
  requests.foldl (fun c request => (c.perform request).1) c

variable {c : Cache} {request : Request} {requests : List Request} {epoch : Binary64}
  {name : String} {value : Argument}

theorem run_concat (c : Cache) (requests : List Request) (request : Request) :
    c.run (requests ++ [request]) = ((c.run requests).perform request).1 :=
  List.foldl_append ..

/-- Whether a request has to do with an entry. -/
def Request.Concerns (epoch : Binary64) (name : String) : Request → Prop
  | .get _ _ => False
  | .set e n _ => epoch.sameKey e = true ∧ name = n
  | .delete e n => epoch.sameKey e = true ∧ name = n
  | .clear e => epoch.sameKey e = true

instance (request : Request) : Decidable (request.Concerns epoch name) :=
  match request with
  | .get _ _ => inferInstanceAs (Decidable False)
  | .set e n _ => inferInstanceAs (Decidable (epoch.sameKey e = true ∧ name = n))
  | .delete e n => inferInstanceAs (Decidable (epoch.sameKey e = true ∧ name = n))
  | .clear e => inferInstanceAs (Decidable (epoch.sameKey e = true))

/-- The value that a request puts, if it is one that does. -/
def Request.value? : Request → Option Argument
  | .set _ _ value => some value
  | _ => none

/-- What a value reads as; none if it is null or missing. -/
def present? (value : Argument) : Option Document :=
  value.toOption.filter fun d => d ≠ .null

theorem present?_kept (value : Argument) : Shelves.present? (kept value) = present? value := by
  cases value with
  | missing => rfl
  | given d => cases d <;> rfl

/-- A value was put in an entry, and no request concerned the entry since. -/
def LastSet (requests : List Request) (epoch : Binary64) (name : String) (value : Argument) :
    Prop :=
  ∃ before e after, requests = before ++ .set e name value :: after ∧ epoch.sameKey e = true ∧
    ∀ request ∈ after, ¬ request.Concerns epoch name

theorem not_lastSet_nil : ¬ LastSet [] epoch name value := by
  rintro ⟨before, e, after, h, -⟩
  simp at h

/-- A sequence with one more request at its end is cut before this request, or
somewhere in front of it. -/
theorem concat_eq_append_cons_iff {before after : List Request} {cut : Request} :
    requests ++ [request] = before ++ cut :: after ↔
      (after = [] ∧ before = requests ∧ cut = request) ∨
        ∃ rest, after = rest ++ [request] ∧ requests = before ++ cut :: rest := by
  constructor
  · intro h
    cases after using List.reverseRecOn with
    | nil =>
        obtain ⟨rfl, hlast⟩ := List.append_inj' h rfl
        exact .inl ⟨rfl, rfl, (List.singleton_inj.1 hlast).symm⟩
    | append_singleton rest last =>
        rw [← List.cons_append, ← List.append_assoc] at h
        obtain ⟨hrest, hlast⟩ := List.append_inj' h rfl
        exact .inr ⟨rest, by rw [hlast], hrest⟩
  · rintro (⟨rfl, rfl, rfl⟩ | ⟨rest, rfl, rfl⟩)
    · rfl
    · rw [List.append_assoc, List.cons_append]

/-- A request that does not concern an entry leaves the last value there the last,
and one that does takes its place. -/
theorem lastSet_concat_iff :
    LastSet (requests ++ [request]) epoch name value ↔
      if request.Concerns epoch name then request.value? = some value
      else LastSet requests epoch name value := by
  simp only [LastSet, concat_eq_append_cons_iff]
  split
  · next hrequest =>
    constructor
    · rintro ⟨before, e, after, ⟨-, -, rfl⟩ | ⟨rest, rfl, -⟩, -, hafter⟩
      · rfl
      · exact absurd hrequest (hafter _ (List.mem_append_right _ List.mem_cons_self))
    · intro hvalue
      cases request with
      | set e n v =>
          obtain rfl := Option.some.inj hvalue
          obtain ⟨he, rfl⟩ := hrequest
          exact ⟨requests, e, [], .inl ⟨rfl, rfl, rfl⟩, he, fun _ h => absurd h List.not_mem_nil⟩
      | _ => contradiction
  · next hrequest =>
    constructor
    · rintro ⟨before, e, after, ⟨-, -, rfl⟩ | ⟨rest, rfl, rfl⟩, he, hafter⟩
      · exact absurd ⟨he, rfl⟩ hrequest
      · exact ⟨before, e, rest, rfl, he, fun other hother =>
          hafter other (List.mem_append_left _ hother)⟩
    · rintro ⟨before, e, after, hcut, he, hafter⟩
      refine ⟨before, e, after ++ [request], .inr ⟨after, rfl, hcut⟩, he, fun other hother => ?_⟩
      rcases List.mem_append.1 hother with hother | hother
      · exact hafter other hother
      · exact List.mem_singleton.1 hother ▸ hrequest

/-! ### What one request does -/

theorem perform_set (hc : c.faults = []) (e : Binary64) (n : String) (v : Argument) :
    (c.perform (.set e n v)).1 =
      { c with content := c.content.set (.number e) (.text n) (kept v) } := by
  rw [perform, set_of_faults_eq_nil hc]

theorem faults_perform (hc : c.faults = []) (request : Request) :
    (c.perform request).1.faults = [] := by
  cases request with
  | set e n v =>
      rw [perform_set hc]
      exact hc
  | _ => exact hc

/-- A request decides what the entries that it concerns read as, and leaves all others
alone. -/
theorem get_perform (hc : c.faults = []) (request : Request) :
    (c.perform request).1.content.get (.number epoch) (.text name) =
      if request.Concerns epoch name then request.value?.bind present?
      else c.content.get (.number epoch) (.text name) := by
  cases request with
  | get e n => rfl
  | set e n v =>
      rw [perform_set hc, Shelves.get_set, Argument.sameKey_number, Argument.sameKey_text]
      simp only [Request.Concerns, beq_iff_eq, present?_kept]
      rfl
  | delete e n =>
      rw [perform, delete, Shelves.get_delete, Argument.sameKey_number, Argument.sameKey_text]
      simp only [Request.Concerns, beq_iff_eq]
      rfl
  | clear e =>
      rw [perform, clear, Shelves.get_clear, Argument.sameKey_number]
      rfl

/-! ### What requests in sequence do -/

theorem faults_run (hc : c.faults = []) (requests : List Request) :
    (c.run requests).faults = [] := by
  induction requests using List.reverseRecOn with
  | nil => exact hc
  | append_singleton requests request ih =>
      rw [run_concat]
      exact faults_perform ih request

/-- An entry reads as the last value that was put there. -/
theorem get_run_of_lastSet (hc : c.faults = []) (h : LastSet requests epoch name value) :
    (c.run requests).content.get (.number epoch) (.text name) = present? value := by
  induction requests using List.reverseRecOn with
  | nil => exact absurd h not_lastSet_nil
  | append_singleton requests request ih =>
      rw [lastSet_concat_iff] at h
      rw [run_concat, get_perform (faults_run hc requests)]
      split at h
      · next hrequest => rw [if_pos hrequest, h, Option.bind_some]
      · next hrequest => rw [if_neg hrequest, ih h]

/-- An entry where no value is left reads as none, if it was none at first. -/
theorem get_run_of_not_lastSet (hc : c.faults = [])
    (h : ∀ value, ¬ LastSet requests epoch name value)
    (hnone : c.content.get (.number epoch) (.text name) = none) :
    (c.run requests).content.get (.number epoch) (.text name) = none := by
  induction requests using List.reverseRecOn with
  | nil => exact hnone
  | append_singleton requests request ih =>
      simp only [lastSet_concat_iff] at h
      rw [run_concat, get_perform (faults_run hc requests)]
      by_cases hrequest : request.Concerns epoch name
      · simp only [if_pos hrequest] at h ⊢
        rw [Option.eq_none_iff_forall_ne_some.2 h, Option.bind_none]
      · simp only [if_neg hrequest] at h ⊢
        exact ih h

theorem perform_get (hc : c.faults = []) :
    (c.perform (.get epoch name)).2 = .ok (c.content.get (.number epoch) (.text name)) :=
  get_of_faults_eq_nil hc ..

/-- What a new cache replies to a request after others. -/
def replyAfter (requests : List Request) (request : Request) : Except Raised (Option Document) :=
  (((empty []).run requests).perform request).2

theorem replyAfter_get (requests : List Request) (epoch : Binary64) (name : String) :
    replyAfter requests (.get epoch name) =
      .ok (((empty []).run requests).content.get (.number epoch) (.text name)) :=
  perform_get (faults_run rfl requests)

/-- After any requests, an entry of a new cache reads as the last value that was put
there and not removed since, and as none if there is no such value or it is null or
missing. A request for another epoch or another name leaves it alone. Epochs are the
same if they are the same number, the two zeros among them, and NaN is the same as
itself. -/
theorem cache_is_flat_map (requests : List Request) (epoch : Binary64) (name : String) :
    (∀ value, LastSet requests epoch name value →
        replyAfter requests (.get epoch name) =
          .ok (value.toOption.filter fun d => d ≠ .null)) ∧
      ((∀ value, ¬ LastSet requests epoch name value) →
        replyAfter requests (.get epoch name) = .ok none) ∧
      (∀ request, ¬ request.Concerns epoch name →
        replyAfter (requests ++ [request]) (.get epoch name) =
          replyAfter requests (.get epoch name)) ∧
      ∀ other, epoch.sameKey other = true ↔
        epoch.sameNumber other = true ∨ (epoch = .nan ∧ other = .nan) := by
  refine ⟨fun value h => ?_, fun h => ?_, fun request h => ?_, fun other => Binary64.sameKey_iff⟩
  · rw [replyAfter_get, get_run_of_lastSet rfl h]
    rfl
  · rw [replyAfter_get, get_run_of_not_lastSet rfl h (Shelves.get_empty ..)]
  · rw [replyAfter_get, replyAfter_get, run_concat, get_perform (faults_run rfl requests),
      if_neg h]

/-! The two zeros are one epoch, NaN and infinity are others. -/

def Request.threeEpochs : List Request :=
  [.set .nan "claim" (.bool true), .set (.infinity false) "claim" .null,
    .set (.finite true 0) "claim" (.text "first"), .clear 0, .set 0 "claim" (.text "second"),
    .delete (.finite true 0) "other"]

theorem cache_is_flat_map_threeEpochs :
    replyAfter Request.threeEpochs (.get (.finite true 0) "claim") = .ok (some (.text "second")) ∧
      replyAfter Request.threeEpochs (.get .nan "claim") = .ok (some (.bool true)) ∧
      replyAfter Request.threeEpochs (.get (.infinity false) "claim") = .ok none ∧
      replyAfter Request.threeEpochs (.get 0 "other") = .ok none := by
  refine ⟨?_, ?_, ?_, ?_⟩
  · exact (cache_is_flat_map _ _ _).1 (.text "second")
      ⟨Request.threeEpochs.take 4, 0, Request.threeEpochs.drop 5, rfl, by decide, by decide⟩
  · exact (cache_is_flat_map _ _ _).1 (.bool true)
      ⟨[], .nan, Request.threeEpochs.drop 1, rfl, by decide, by decide⟩
  · exact (cache_is_flat_map _ _ _).1 .null
      ⟨Request.threeEpochs.take 1, .infinity false, Request.threeEpochs.drop 2, rfl, by decide,
        by decide⟩
  · refine (cache_is_flat_map _ _ _).2.1 fun value h => ?_
    have hlast : Request.threeEpochs =
        Request.threeEpochs.take 5 ++ [.delete (.finite true 0) "other"] := rfl
    rw [hlast, lastSet_concat_iff, if_pos (by decide)] at h
    contradiction

end Cache

end EpochClaims
