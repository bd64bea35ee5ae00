import EpochClaims.Config.Environment
import EpochClaims.Proofs.Config.Acceptance
import EpochClaims.Proofs.Text.Entries

/-!
# What the environment form of a configuration reads as

The environment gives the validators as one text. However the entries are written
in it, the variables are read as the document that lists these entries, trimmed and
without the blank ones, so the issues are those of that document. The addresses of a
configuration are entries themselves, so a configuration is loaded unchanged from
every way of writing it: `environment_reads_entries`.
-/

namespace EpochClaims

/-- Texts of digits have neither blank characters nor commas. -/
theorem Hex.HasDigits.isBlank_eq_false {n : Nat} {s : String} (h : HasDigits n s) :
    ∀ c ∈ s.toList, Text.isBlank c = false ∧ c ≠ ',' := by
  have hdigit : ∀ d : Digit, (Text.isBlank d.lower = false ∧ d.lower ≠ ',') ∧
      Text.isBlank d.upper = false ∧ d.upper ≠ ',' := by
    decide
  obtain ⟨body, hbody, -, hall⟩ := h
  rw [hbody, List.forall_mem_cons, List.forall_mem_cons]
  refine ⟨by decide, by decide, fun c hc => ?_⟩
  obtain ⟨d, hd⟩ := Option.isSome_iff_exists.1 (hall c hc)
  rcases Digit.ofChar?_eq_some_iff.1 hd with rfl | rfl
  · exact (hdigit d).1
  · exact (hdigit d).2

theorem Hex.HasDigits.isEntry {n : Nat} {s : String} (h : HasDigits n s) : Text.IsEntry s := by
  refine .of_forall (fun hempty => ?_) fun c hc => (h.isBlank_eq_false c hc).1
  obtain ⟨body, hbody, -⟩ := h
  rw [hempty] at hbody
  contradiction

theorem Address.hasDigits_text (a : Address) : Hex.HasDigits 40 a.text :=
  (ofText?_eq_some_iff.1 a.ofText?_text).1

namespace Config

/-- The variables of a process hold an orchestrator, a list of validators and a policy. -/
structure Gives (values : List (String × String)) (orchestrator validators policy : String) :
    Prop where
  orchestrator : values.lookup orchestratorVariable = some orchestrator
  validators : values.lookup validatorsVariable = some validators
  policy : values.lookup policyVariable = some policy

/-- The document of an orchestrator, a list of validators and a policy. -/
def documentOf (orchestrator : String) (validators : List String) (policy : String) : Document :=
  .object [("orchestrator", .text orchestrator), ("validators", .list (validators.map .text)),
    ("unknownLoserPolicy", .text policy)]

theorem toDocument_eq_documentOf (c : Config) :
    c.toDocument = documentOf c.orchestrator.text (c.validators.map Address.text)
      c.unknownLoserPolicy.text := by
  rw [toDocument, documentOf, List.map_map]
  rfl

theorem load_of_gives {values : List (String × String)} {orchestrator validators policy : String}
    (h : Gives values orchestrator validators policy) (hpolicy : policy ≠ "") {texts : List String}
    (hvalidators : Text.entries validators.toList = texts.map String.toList) :
    load (.ofVariables values) = read (some (documentOf orchestrator texts policy)) := by
  have hlist : listDocument validators = .list (texts.map .text) := by
    rw [listDocument, hvalidators, List.map_map]
    exact congrArg Document.list (List.map_congr_left fun s _ => by simp)
  have hkept : (some (Document.text policy)).filter (fun d => !d.isVoid) = some (.text policy) := by
    simp [Document.isVoid, hpolicy]
  rw [load, Environment.ofVariables, h.orchestrator, h.validators, h.policy, Option.map_some,
    Option.map_some, Option.map_some, hlist, hkept]
  rfl

/-- Whatever the pieces between the commas of the list of validators are, the entries
that they write down are read, with the orchestrator and the policy, as the document
that lists them. A configuration is loaded unchanged from its own orchestrator and
policy and from every list of pieces that writes its validators down. -/
theorem environment_reads_entries {values : List (String × String)} {orchestrator policy : String}
    {pieces : List String}
    (h : Gives values orchestrator (String.intercalate "," pieces) policy) :
    (∀ raw c, read raw = .ok c → orchestrator = c.orchestrator.text →
        policy = c.unknownLoserPolicy.text →
        Text.Writes (c.validators.map Address.text) pieces →
          load (.ofVariables values) = .ok c) ∧
      ((∀ piece ∈ pieces, ',' ∉ piece.toList) → policy ≠ "" →
        (∃ texts, Text.Writes texts pieces ∧ ∀ text ∈ texts, Text.IsEntry text) ∧
          ∀ texts, Text.Writes texts pieces → (∀ text ∈ texts, Text.IsEntry text) →
            load (.ofVariables values) =
              read (some (.object [("orchestrator", .text orchestrator),
                ("validators", .list (texts.map .text)),
                ("unknownLoserPolicy", .text policy)]))) := by
  constructor
  · rintro raw c hread rfl rfl hwrites
    have hcommas := hwrites.comma_notMem
      (List.forall_mem_map.2 fun a _ hc => (a.hasDigits_text.isBlank_eq_false _ hc).2 rfl)
    have hentries := Text.entries_of_writes hwrites
      (List.forall_mem_map.2 fun a _ => a.hasDigits_text.isEntry) hcommas
    have hpolicy : c.unknownLoserPolicy.text ≠ "" := by
      cases c.unknownLoserPolicy <;> decide
    rw [load_of_gives h hpolicy hentries, ← toDocument_eq_documentOf,
      read_toDocument_of_read hread]
  · intro hcommas hpolicy
    refine ⟨Text.exists_writes pieces, fun texts hwrites hentries => ?_⟩
    exact load_of_gives h hpolicy (Text.entries_of_writes hwrites hentries hcommas)

/-- Two entries with blank characters around them and blank entries between. -/
def scattered (s t : String) : List String :=
  [" ", "\t" ++ s ++ "  ", "", "\n" ++ t ++ " "]

theorem writes_scattered (s t : String) : Text.Writes [s, t] (scattered s t) :=
  .blank (by decide) (.entry (by decide) (by decide)
    (.blank (by decide) (.entry (by decide) (by decide) .nil)))

/-- The variables of a process, one of which is none of the three. -/
def scatteredVariables (orchestrator s t policy : String) : List (String × String) :=
  [("PATH", ""), (policyVariable, policy), (orchestratorVariable, orchestrator),
    (validatorsVariable, String.intercalate "," (scattered s t))]

theorem gives_scatteredVariables (orchestrator s t policy : String) :
    Gives (scatteredVariables orchestrator s t policy) orchestrator
      (String.intercalate "," (scattered s t)) policy where
  orchestrator := rfl
  validators := rfl
  policy := rfl

/-- Two validators are loaded from the second and the fourth entry of a list, and two
entries there that are no addresses are told as those of the indices 0 and 1. -/
theorem environment_reads_entries_scattered :
    (∀ o a b : Address,
        load (.ofVariables (scatteredVariables o.text a.text b.text "reject")) =
          .ok ⟨o, [a, b], .reject⟩) ∧
      load (.ofVariables (scatteredVariables "" "0x1" "0x2" "drop")) =
        .error [⟨.orchestrator, .notAddress⟩, ⟨.validator 0, .notAddress⟩,
          ⟨.validator 1, .notAddress⟩, ⟨.unknownLoserPolicy, .unknownWord "drop"⟩] := by
  constructor
  · intro o a b
    obtain ⟨hconfig, -⟩ := environment_reads_entries
      (gives_scatteredVariables o.text a.text b.text "reject")
    have hread : read (some (toDocument ⟨o, [a, b], .reject⟩)) = .ok ⟨o, [a, b], .reject⟩ :=
      read_toDocument (Nat.le_add_left 1 1) (show 2 ≤ maxSlots by decide)
    exact hconfig _ _ hread rfl rfl (writes_scattered a.text b.text)
  · obtain ⟨-, htexts⟩ := environment_reads_entries
      (gives_scatteredVariables "" "0x1" "0x2" "drop")
    obtain ⟨-, hload⟩ := htexts (by decide) (by decide)
    rw [hload _ (writes_scattered "0x1" "0x2") ?_]
    · rfl
    · have hfirst : Hex.HasDigits 1 "0x1" := by decide
      have hsecond : Hex.HasDigits 1 "0x2" := by decide
      exact List.forall_mem_cons.2 ⟨hfirst.isEntry, List.forall_mem_singleton.2 hsecond.isEntry⟩

end Config

end EpochClaims
