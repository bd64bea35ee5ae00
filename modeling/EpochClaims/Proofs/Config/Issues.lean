import EpochClaims.Proofs.Config.Acceptance

/-!
# The issues of a document

`holdings d` lists the places of a configuration in the order in which they are
checked, each with what the document has there: the document as a whole and, if it is
an object, the orchestrator, the list of validators as such, the validators one by one
and the policy. `Place.Allows` says what may stand at a place. One issue is told for
each place that holds something else, so the places of all issues are those at fault,
in order: `places_of_issues`. A refusal tells at least one (`read_ne_error_nil`).
-/

namespace EpochClaims

namespace Document

/-- The text that a document is. -/
def text? : Option Document → Option String
  | some (.text s) => some s
  | _ => none

/-- The members of the list that a document is. -/
def items? : Option Document → Option (List Document)
  | some (.list ds) => some ds
  | _ => none

theorem text?_eq_some_iff {d : Option Document} {s : String} :
    text? d = some s ↔ d = some (.text s) := by
  rw [text?.eq_def]
  split
  · simp
  · next hd => exact iff_of_false (by simp) (hd s)

end Document

namespace Config

/-- A document that is the text of an address. -/
def IsAddress (d : Option Document) : Prop :=
  ∃ s ∈ Document.text? d, Hex.HasDigits 40 s

instance (d : Option Document) : Decidable (IsAddress d) :=
  inferInstanceAs (Decidable (∃ s ∈ Document.text? d, Hex.HasDigits 40 s))

/-- What may stand at a place. The list of validators as such is a place where only its
length matters. -/
def Place.Allows : Place → Option Document → Prop
  | root, d => d.map Document.kind = some "object"
  | orchestrator, d => IsAddress d
  | validators, d => ∃ ds ∈ Document.items? d, 1 ≤ ds.length ∧ ds.length ≤ 32
  | validator _, d => IsAddress d
  | unknownLoserPolicy, d => d = none ∨ d = some (.text "skip") ∨ d = some (.text "reject")

instance : (place : Place) → (d : Option Document) → Decidable (place.Allows d)
  | .root, d => inferInstanceAs (Decidable (d.map Document.kind = some "object"))
  | .orchestrator, d => inferInstanceAs (Decidable (IsAddress d))
  | .validators, d =>
    inferInstanceAs (Decidable (∃ ds ∈ Document.items? d, 1 ≤ ds.length ∧ ds.length ≤ 32))
  | .validator _, d => inferInstanceAs (Decidable (IsAddress d))
  | .unknownLoserPolicy, d =>
    inferInstanceAs
      (Decidable (d = none ∨ d = some (.text "skip") ∨ d = some (.text "reject")))

/-- What stands at the places of the validators, from the given index on. -/
def entryHoldings (index : Nat) (ds : List Document) : List (Place × Option Document) :=
  (ds.zipIdx index).map fun entry => (.validator entry.2, some entry.1)

/-- The places of a configuration in the order in which they are checked, each with what
stands there. -/
def holdings (d : Option Document) : List (Place × Option Document) :=
  (.root, d) :: match d with
    | some (.object fields) =>
      (.orchestrator, Document.field? fields "orchestrator") ::
        (.validators, Document.field? fields "validators") ::
          entryHoldings 0 ((Document.items? (Document.field? fields "validators")).getD []) ++
            [(.unknownLoserPolicy, Document.field? fields "unknownLoserPolicy")]
    | _ => []

/-- The places that hold what they do not allow. -/
def faults (held : List (Place × Option Document)) : List Place :=
  (held.filter fun h => ¬ h.1.Allows h.2).map Prod.fst

@[simp] theorem faults_nil : faults [] = [] := rfl

theorem faults_append (held more : List (Place × Option Document)) :
    faults (held ++ more) = faults held ++ faults more := by
  rw [faults, List.filter_append, List.map_append, faults, faults]

theorem faults_cons (place : Place) (d : Option Document)
    (held : List (Place × Option Document)) :
    faults ((place, d) :: held) = (if place.Allows d then [] else [place]) ++ faults held := by
  by_cases h : place.Allows d <;> simp [faults, h]

/-- The places of the issues that a reading tells. -/
def toldPlaces {α : Type} (x : Except (List Issue) α) : List Place :=
  (issuesOf x).map Issue.place

/-! ### One reader after the other -/

theorem exists_readAddress_iff {place : Place} {d : Option Document} :
    (∃ a, readAddress place d = .ok a) ↔ IsAddress d := by
  simp only [readAddress_eq_ok_iff]
  constructor
  · rintro ⟨a, s, rfl, hs, -⟩
    exact ⟨s, rfl, hs⟩
  · rintro ⟨s, hd, hs⟩
    obtain ⟨a, ha⟩ := Address.exists_ofText? hs
    exact ⟨a, s, Document.text?_eq_some_iff.1 hd, Address.ofText?_eq_some_iff.1 ha⟩

/-- A place without an address has one issue. -/
theorem exists_of_readAddress_eq_error {place : Place} {d : Option Document}
    {issues : List Issue} (h : readAddress place d = .error issues) :
    ∃ defect, issues = [⟨place, defect⟩] := by
  rw [readAddress.eq_def] at h
  split at h
  · exact ⟨_, (Except.error.inj h).symm⟩
  · split at h
    · contradiction
    · exact ⟨_, (Except.error.inj h).symm⟩
  · exact ⟨_, (Except.error.inj h).symm⟩

theorem toldPlaces_readAddress (place : Place) (d : Option Document) :
    toldPlaces (readAddress place d) = if IsAddress d then [] else [place] := by
  cases hread : readAddress place d with
  | ok a => rw [if_pos (exists_readAddress_iff.1 ⟨a, hread⟩)]; rfl
  | error issues =>
      obtain ⟨defect, rfl⟩ := exists_of_readAddress_eq_error hread
      have hno : ¬ IsAddress d := by
        rw [← @exists_readAddress_iff place, hread]
        exact nofun
      rw [if_neg hno]
      rfl

theorem issuesOf_readEntries_cons (index : Nat) (d : Document) (ds : List Document) :
    issuesOf (readEntries index (d :: ds)) =
      issuesOf (readAddress (.validator index) (some d)) ++
        issuesOf (readEntries (index + 1) ds) := by
  rw [readEntries]
  cases readAddress (.validator index) (some d) with
  | error issues => rfl
  | ok a => cases readEntries (index + 1) ds <;> rfl

theorem toldPlaces_readEntries (index : Nat) (ds : List Document) :
    toldPlaces (readEntries index ds) = faults (entryHoldings index ds) := by
  induction ds generalizing index with
  | nil => rfl
  | cons d ds ih =>
      have hhold : entryHoldings index (d :: ds) =
          (.validator index, some d) :: entryHoldings (index + 1) ds := rfl
      rw [toldPlaces, issuesOf_readEntries_cons, List.map_append, hhold, faults_cons, ← ih]
      exact congrArg (· ++ toldPlaces (readEntries (index + 1) ds))
        (toldPlaces_readAddress (.validator index) (some d))

theorem issuesOf_readValidators_list (ds : List Document) :
    issuesOf (readValidators (some (.list ds))) =
      lengthIssues ds.length ++ issuesOf (readEntries 0 ds) := by
  rw [readValidators]
  cases lengthIssues ds.length with
  | nil => rfl
  | cons issue issues => rfl

theorem map_place_lengthIssues (count : Nat) :
    (lengthIssues count).map Issue.place =
      if 1 ≤ count ∧ count ≤ 32 then [] else [.validators] := by
  by_cases hbounds : 1 ≤ count ∧ count ≤ 32
  · rw [if_pos hbounds, lengthIssues_eq_nil_iff.2 hbounds]
    rfl
  · rw [if_neg hbounds, lengthIssues]
    split
    · rfl
    · next hfew =>
        split
        · rfl
        · next hmany =>
            exact absurd ⟨Nat.le_of_not_lt hfew, Nat.le_of_not_lt hmany⟩ hbounds

theorem toldPlaces_readValidators (d : Option Document) :
    toldPlaces (readValidators d) =
      faults ((.validators, d) :: entryHoldings 0 ((Document.items? d).getD [])) := by
  -- Only a list has entries. The other documents are at fault as such, by computation.
  rcases d with _ | (_ | _ | _ | _ | ds | _)
  case some.list =>
    have hallows : Place.Allows .validators (some (.list ds)) ↔
        1 ≤ ds.length ∧ ds.length ≤ 32 :=
      ⟨fun ⟨_, hds, hbounds⟩ => Option.some.inj hds ▸ hbounds, fun hbounds => ⟨ds, rfl, hbounds⟩⟩
    rw [toldPlaces, issuesOf_readValidators_list, List.map_append, map_place_lengthIssues,
      faults_cons, if_congr hallows rfl rfl]
    exact congrArg _ (toldPlaces_readEntries 0 ds)
  all_goals rfl

theorem toldPlaces_readPolicy (d : Option Document) :
    toldPlaces (readPolicy d) = faults [(.unknownLoserPolicy, d)] := by
  rcases d with _ | (_ | _ | _ | s | _ | _)
  case some.text =>
    have hallows : Place.Allows .unknownLoserPolicy (some (.text s)) ↔
        s = "skip" ∨ s = "reject" := by
      simp [Place.Allows]
    rw [faults_cons, faults_nil, List.append_nil, if_congr hallows rfl rfl, readPolicy,
      UnknownLoserPolicy.ofText?]
    by_cases hskip : s = "skip"
    · rw [if_pos hskip, if_pos (.inl hskip)]
      rfl
    · by_cases hreject : s = "reject"
      · rw [if_neg hskip, if_pos hreject, if_pos (.inr hreject)]
        rfl
      · rw [if_neg hskip, if_neg hreject, if_neg (not_or.2 ⟨hskip, hreject⟩)]
        rfl
  all_goals rfl

theorem issuesOf_readFields (orchestrator validators policy : Option Document) :
    issuesOf (readFields orchestrator validators policy) =
      issuesOf (readAddress .orchestrator orchestrator) ++ issuesOf (readValidators validators) ++
        issuesOf (readPolicy policy) := by
  rw [readFields]
  cases readAddress .orchestrator orchestrator with
  | error issues => rfl
  | ok o =>
      cases readValidators validators with
      | error issues => rfl
      | ok vs => cases readPolicy policy <;> rfl

theorem toldPlaces_readFields (orchestrator validators policy : Option Document) :
    toldPlaces (readFields orchestrator validators policy) =
      faults ((.orchestrator, orchestrator) :: (.validators, validators) ::
        entryHoldings 0 ((Document.items? validators).getD []) ++
          [(.unknownLoserPolicy, policy)]) := by
  rw [faults_append, faults_cons, ← toldPlaces_readValidators, ← toldPlaces_readPolicy,
    toldPlaces, issuesOf_readFields, List.map_append, List.map_append]
  exact congrArg (· ++ toldPlaces (readValidators validators) ++ toldPlaces (readPolicy policy))
    (toldPlaces_readAddress .orchestrator orchestrator)

/-- The places of the issues of a document are those that hold what they do not allow,
each of them once and in the order in which they are checked. -/
theorem places_of_issues (d : Option Document) : toldPlaces (read d) = faults (holdings d) := by
  rcases d with _ | (_ | _ | _ | _ | _ | fields)
  case some.object =>
    have hroot : Place.Allows .root (some (.object fields)) := rfl
    rw [read, toldPlaces_readFields, holdings, faults_cons, if_pos hroot, List.nil_append]
  all_goals rfl

/-! ### A refusal has issues -/

theorem eq_ok_of_issuesOf_eq_nil {α : Type} {x : Except (List Issue) α} (h : issuesOf x = [])
    (hx : x ≠ .error []) : ∃ a, x = .ok a := by
  cases x with
  | ok a => exact ⟨a, rfl⟩
  | error issues =>
      obtain rfl : issues = [] := h
      contradiction

theorem error_cons_ne_error_nil {α : Type} (issue : Issue) (issues : List Issue) :
    (.error (issue :: issues) : Except (List Issue) α) ≠ .error [] :=
  fun h => List.cons_ne_nil _ _ (Except.error.inj h)

theorem readAddress_ne_error_nil (place : Place) (d : Option Document) :
    readAddress place d ≠ .error [] := by
  intro h
  obtain ⟨defect, hissues⟩ := exists_of_readAddress_eq_error h
  contradiction

theorem readEntries_ne_error_nil (index : Nat) (ds : List Document) :
    readEntries index ds ≠ .error [] := by
  induction ds generalizing index with
  | nil => exact nofun
  | cons d ds ih =>
      intro h
      have hissues := issuesOf_readEntries_cons index d ds
      rw [h] at hissues
      obtain ⟨hfirst, hrest⟩ := List.append_eq_nil_iff.1 hissues.symm
      obtain ⟨a, ha⟩ := eq_ok_of_issuesOf_eq_nil hfirst (readAddress_ne_error_nil _ _)
      obtain ⟨rest, hok⟩ := eq_ok_of_issuesOf_eq_nil hrest (ih (index + 1))
      rw [readEntries, ha, hok] at h
      contradiction

theorem readValidators_ne_error_nil (d : Option Document) : readValidators d ≠ .error [] := by
  rcases d with _ | (_ | _ | _ | _ | ds | _)
  case some.list =>
    intro h
    have hissues := issuesOf_readValidators_list ds
    rw [h] at hissues
    obtain ⟨hlength, hentries⟩ := List.append_eq_nil_iff.1 hissues.symm
    rw [readValidators, hlength] at h
    exact readEntries_ne_error_nil 0 ds h
  all_goals exact error_cons_ne_error_nil _ _

theorem readPolicy_ne_error_nil (d : Option Document) : readPolicy d ≠ .error [] := by
  rw [readPolicy.eq_def]
  split
  · simp
  · split
    · simp
    · exact error_cons_ne_error_nil _ _
  · exact error_cons_ne_error_nil _ _

theorem readFields_ne_error_nil (orchestrator validators policy : Option Document) :
    readFields orchestrator validators policy ≠ .error [] := by
  intro h
  have hissues := issuesOf_readFields orchestrator validators policy
  rw [h] at hissues
  obtain ⟨hfront, hpolicy⟩ := List.append_eq_nil_iff.1 hissues.symm
  obtain ⟨horchestrator, hvalidators⟩ := List.append_eq_nil_iff.1 hfront
  obtain ⟨o, ho⟩ := eq_ok_of_issuesOf_eq_nil horchestrator (readAddress_ne_error_nil _ _)
  obtain ⟨vs, hvs⟩ := eq_ok_of_issuesOf_eq_nil hvalidators (readValidators_ne_error_nil _)
  obtain ⟨p, hp⟩ := eq_ok_of_issuesOf_eq_nil hpolicy (readPolicy_ne_error_nil _)
  rw [readFields, ho, hvs, hp] at h
  contradiction

theorem read_ne_error_nil (d : Option Document) : read d ≠ .error [] := by
  rcases d with _ | (_ | _ | _ | _ | _ | fields)
  case some.object => exact readFields_ne_error_nil _ _ _
  all_goals exact error_cons_ne_error_nil _ _

/-- A document is read if all places hold what they allow. -/
theorem exists_read_iff_faults {d : Option Document} :
    (∃ c, read d = .ok c) ↔ faults (holdings d) = [] := by
  rw [← places_of_issues, toldPlaces, List.map_eq_nil_iff]
  constructor
  · rintro ⟨c, h⟩
    rw [h]
    rfl
  · exact fun h => eq_ok_of_issuesOf_eq_nil h (read_ne_error_nil d)

end Config

end EpochClaims
