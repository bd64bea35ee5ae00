import EpochClaims.Proofs.Config.RoundTrip
import EpochClaims.Proofs.Hex.Lowering
import EpochClaims.Proofs.Hex.Number

/-!
# Which documents are configurations

A configuration is read from texts: the text of the orchestrator, the texts of
the validators in order and the word of the policy, which may be missing.
`Texts.IsOf` says that an object has these texts in its fields and `Texts.IsValid`
that they are the texts of a configuration. `read_eq_ok_iff` tells that exactly
such objects are read, and what is read from them. What was read is read again
unchanged (`read_toDocument_of_read`).
-/

namespace EpochClaims

namespace Address

theorem exists_ofText? {s : String} (h : Hex.HasDigits 40 s) : ∃ a, ofText? s.toList = some a := by
  obtain ⟨ds, hds, hlength⟩ := Hex.hasDigits_iff.1 h
  exact ⟨⟨ds, hlength⟩, by rw [ofText?, hds, Option.bind_some, ofDigits?, dif_pos hlength]⟩

/-- A text spells an address if it is the marker and forty digits, and the address is
written as the checksummed form of the text. -/
theorem ofText?_eq_some_iff {s : String} {a : Address} :
    ofText? s.toList = some a ↔ Hex.HasDigits 40 s ∧ a.text = checksummed s := by
  constructor
  · intro h
    refine ⟨Hex.hasDigits_iff.2 ⟨a.digits, read?_of_ofText? h, a.length_digits⟩, ?_⟩
    rw [checksummed_of_ofText? h]
  · rintro ⟨hs, ha⟩
    obtain ⟨b, hb⟩ := exists_ofText? hs
    rw [checksummed_of_ofText? hb] at ha
    rw [hb, ← ofText?_text, ← ha, ofText?_text]

end Address

theorem UnknownLoserPolicy.ofText?_eq_some_iff {s : String} {p : UnknownLoserPolicy} :
    ofText? s = some p ↔ s = p.text := by
  constructor
  · intro h
    rw [ofText?] at h
    split at h
    · next hs => rw [hs, ← Option.some.inj h]; rfl
    · split at h
      · next hs => rw [hs, ← Option.some.inj h]; rfl
      · contradiction
  · rintro rfl
    exact ofText?_text p

theorem UnknownLoserPolicy.text_injective {p q : UnknownLoserPolicy} (h : p.text = q.text) :
    p = q := by
  have hpq := congrArg ofText? h
  simpa using hpq

namespace Config

/-- The texts that a configuration is read from. -/
structure Texts where
  orchestrator : String
  validators : List String
  unknownLoserPolicy : Option String
  deriving DecidableEq, Repr

namespace Texts

/-- The document is an object whose fields hold the texts. It may have other fields. -/
def IsOf (t : Texts) (raw : Document) : Prop :=
  ∃ fields, raw = .object fields ∧
    Document.field? fields "orchestrator" = some (.text t.orchestrator) ∧
    Document.field? fields "validators" = some (.list (t.validators.map .text)) ∧
    Document.field? fields "unknownLoserPolicy" = t.unknownLoserPolicy.map .text

/-- Addresses in any letter case, one to 32 of them as validators, and a policy that is
missing or one of the two words. -/
structure IsValid (t : Texts) : Prop where
  orchestrator : Hex.HasDigits 40 t.orchestrator
  validators : ∀ s ∈ t.validators, Hex.HasDigits 40 s
  length_pos : 1 ≤ t.validators.length
  length_le : t.validators.length ≤ 32
  unknownLoserPolicy : ∀ s ∈ t.unknownLoserPolicy, s = "skip" ∨ s = "reject"

/-- The configuration has the addresses in their checksummed spelling and in order, and
the policy, which is to skip if none is given. -/
structure ReadsAs (t : Texts) (c : Config) : Prop where
  orchestrator : c.orchestrator.text = Address.checksummed t.orchestrator
  validators : c.validators.map Address.text = t.validators.map Address.checksummed
  unknownLoserPolicy : c.unknownLoserPolicy.text = t.unknownLoserPolicy.getD "skip"

theorem ReadsAs.length_eq {t : Texts} {c : Config} (h : t.ReadsAs c) :
    c.validators.length = t.validators.length := by
  simpa using congrArg List.length h.validators

end Texts

/-! ### The three readers -/

theorem readAddress_eq_ok_iff {place : Place} {d : Option Document} {a : Address} :
    readAddress place d = .ok a ↔ ∃ s, d = some (.text s) ∧ Hex.HasDigits 40 s ∧
      a.text = Address.checksummed s := by
  simp only [← Address.ofText?_eq_some_iff]
  rw [readAddress.eq_def]
  split
  · simp
  · next s =>
      cases hs : Address.ofText? s.toList <;> simp [hs]
  · next d hd =>
      simp only [reduceCtorEq, false_iff]
      rintro ⟨s, h, -⟩
      exact hd s (Option.some.inj h)

theorem readEntries_cons_eq_ok_iff {index : Nat} {d : Document} {ds : List Document}
    {addresses : List Address} :
    readEntries index (d :: ds) = .ok addresses ↔ ∃ a rest, addresses = a :: rest ∧
      readAddress (.validator index) (some d) = .ok a ∧ readEntries (index + 1) ds = .ok rest := by
  rw [readEntries]
  cases readAddress (.validator index) (some d) with
  | error issues => simp
  | ok a => cases readEntries (index + 1) ds <;> simp [eq_comm]

theorem readEntries_eq_ok_iff {index : Nat} {ds : List Document} {addresses : List Address} :
    readEntries index ds = .ok addresses ↔ ∃ texts : List String, ds = texts.map .text ∧
      (∀ s ∈ texts, Hex.HasDigits 40 s) ∧
      addresses.map Address.text = texts.map Address.checksummed := by
  -- The index moves on with each entry. It is told in issues only, so no address depends on it.
  induction ds generalizing index addresses with
  | nil =>
      rw [readEntries, Except.ok.injEq]
      constructor
      · rintro rfl
        exact ⟨[], rfl, List.forall_mem_nil _, rfl⟩
      · rintro ⟨texts, htexts, -, haddresses⟩
        obtain rfl := List.map_eq_nil_iff.1 htexts.symm
        exact (List.map_eq_nil_iff.1 haddresses).symm
  | cons d ds ih =>
      simp only [readEntries_cons_eq_ok_iff, readAddress_eq_ok_iff, ih, Option.some.injEq]
      constructor
      · rintro ⟨a, rest, rfl, ⟨s, rfl, hs, ha⟩, texts, rfl, htexts, hrest⟩
        refine ⟨s :: texts, rfl, List.forall_mem_cons.2 ⟨hs, htexts⟩, ?_⟩
        rw [List.map_cons, List.map_cons, ha, hrest]
      · rintro ⟨texts, hds, htexts, haddresses⟩
        obtain ⟨s, texts, rfl, hd, hrest⟩ := List.map_eq_cons_iff.1 hds.symm
        obtain ⟨a, rest, rfl, ha, haddresses⟩ := List.map_eq_cons_iff.1 haddresses
        obtain ⟨hs, htexts⟩ := List.forall_mem_cons.1 htexts
        exact ⟨a, rest, rfl, ⟨s, hd.symm, hs, ha⟩, texts, hrest.symm, htexts, haddresses⟩

theorem readValidators_eq_ok_iff {d : Option Document} {addresses : List Address} :
    readValidators d = .ok addresses ↔ ∃ texts : List String,
      d = some (.list (texts.map .text)) ∧ (1 ≤ texts.length ∧ texts.length ≤ 32) ∧
        (∀ s ∈ texts, Hex.HasDigits 40 s) ∧
        addresses.map Address.text = texts.map Address.checksummed := by
  rw [readValidators.eq_def]
  split
  · simp
  · next ds =>
      split
      · next entries hlength =>
          -- The length is in bounds here, so the bounds go without saying on the right.
          rw [readEntries_eq_ok_iff]
          refine exists_congr fun texts => ?_
          rw [Option.some.injEq, Document.list.injEq]
          refine and_congr_right fun hds => (and_iff_right ?_).symm
          rw [hds, List.length_map] at hlength
          exact lengthIssues_eq_nil_iff.1 hlength
      · next wrongLength entries hlength =>
          simp only [reduceCtorEq, false_iff]
          rintro ⟨texts, hds, hbounds, -⟩
          rw [Document.list.inj (Option.some.inj hds), List.length_map] at hlength
          exact hlength (lengthIssues_eq_nil_iff.2 hbounds)
  · next d hd =>
      simp only [reduceCtorEq, false_iff]
      rintro ⟨texts, h, -⟩
      exact hd _ (Option.some.inj h)

theorem readPolicy_eq_ok_iff {d : Option Document} {p : UnknownLoserPolicy} :
    readPolicy d = .ok p ↔ ∃ text : Option String, d = text.map .text ∧
      (∀ s ∈ text, s = "skip" ∨ s = "reject") ∧ p.text = text.getD "skip" := by
  rw [readPolicy.eq_def]
  split
  · constructor
    · intro h
      obtain rfl := Except.ok.inj h
      exact ⟨none, rfl, nofun, rfl⟩
    · rintro ⟨text, htext, -, hp⟩
      obtain rfl := Option.map_eq_none_iff.1 htext.symm
      exact congrArg Except.ok (UnknownLoserPolicy.text_injective hp).symm
  · next s =>
      have hread : (∃ text : Option String, some (.text s) = text.map Document.text ∧
          (∀ w ∈ text, w = "skip" ∨ w = "reject") ∧ p.text = text.getD "skip") ↔
            UnknownLoserPolicy.ofText? s = some p := by
        rw [UnknownLoserPolicy.ofText?_eq_some_iff]
        constructor
        · rintro ⟨text, htext, -, hp⟩
          obtain ⟨_, rfl, hs⟩ := Option.map_eq_some_iff.1 htext.symm
          rw [hp, ← Document.text.inj hs, Option.getD_some]
        · rintro rfl
          refine ⟨some p.text, rfl, ?_, rfl⟩
          rintro _ ⟨⟩
          cases p
          · exact .inl rfl
          · exact .inr rfl
      rw [hread]
      cases UnknownLoserPolicy.ofText? s <;> simp
  · next d hd =>
      simp only [reduceCtorEq, false_iff]
      rintro ⟨text, h, -⟩
      obtain ⟨s, -, hs⟩ := Option.map_eq_some_iff.1 h.symm
      exact hd s hs.symm

/-! ### All of it -/

theorem readFields_eq_ok_iff {orchestrator validators policy : Option Document} {c : Config} :
    readFields orchestrator validators policy = .ok c ↔
      readAddress .orchestrator orchestrator = .ok c.orchestrator ∧
        readValidators validators = .ok c.validators ∧
        readPolicy policy = .ok c.unknownLoserPolicy := by
  rw [readFields]
  cases c with
  | mk o vs p =>
      cases readAddress .orchestrator orchestrator with
      | error issues => simp
      | ok o' =>
          cases readValidators validators with
          | error issues => simp
          | ok vs' => cases readPolicy policy <;> simp

theorem read_eq_ok_iff {raw : Document} {c : Config} :
    read (some raw) = .ok c ↔ ∃ t : Texts, t.IsOf raw ∧ t.IsValid ∧ t.ReadsAs c := by
  cases raw with
  | object fields =>
      rw [read, readFields_eq_ok_iff, readAddress_eq_ok_iff, readValidators_eq_ok_iff,
        readPolicy_eq_ok_iff]
      constructor
      · rintro ⟨⟨o, ho, hdigits, hchecksummed⟩, ⟨vs, hvs, ⟨hpos, hle⟩, hall, hmap⟩, p, hp, hword,
          hpolicy⟩
        exact ⟨⟨o, vs, p⟩, ⟨fields, rfl, ho, hvs, hp⟩, ⟨hdigits, hall, hpos, hle, hword⟩,
          ⟨hchecksummed, hmap, hpolicy⟩⟩
      · rintro ⟨t, ⟨_, hraw, ho, hvs, hp⟩, hvalid, hreads⟩
        obtain rfl := Document.object.inj hraw
        exact ⟨⟨_, ho, hvalid.orchestrator, hreads.orchestrator⟩,
          ⟨_, hvs, ⟨hvalid.length_pos, hvalid.length_le⟩, hvalid.validators, hreads.validators⟩,
          _, hp, hvalid.unknownLoserPolicy, hreads.unknownLoserPolicy⟩
  | null | bool b | number x | text s | list ds =>
      simp [read, Texts.IsOf]

/-- What was read from a document is, as a document, read again unchanged. -/
theorem read_toDocument_of_read {d : Option Document} {c : Config} (h : read d = .ok c) :
    read (some c.toDocument) = .ok c := by
  cases d with
  | none => contradiction
  | some raw =>
      obtain ⟨t, -, hvalid, hreads⟩ := read_eq_ok_iff.1 h
      exact read_toDocument (hreads.length_eq ▸ hvalid.length_pos)
        (hreads.length_eq ▸ hvalid.length_le)

end Config

end EpochClaims
