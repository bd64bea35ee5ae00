import EpochClaims.Proofs.EventLog.Payload
import Mathlib.Data.List.Forall2

/-!
# Batches of logs

A log is unrelated, malformed or read as an event. Which of the three is told
without reading it: an unrelated log has a first topic that is no selector
(`isUnrelated`), and `IsMalformed` lists what can be wrong with all others.
`decode_cases` says that the fault of a log is the one of its kind. A batch is
read log by log, the unrelated ones skipped, up to the first malformed one
(`decodeAll_eq_ok_iff`, `decodeAll_eq_error_iff`).
-/

namespace EpochClaims

namespace EventLog

/-- A log whose first topic is something that is no known selector. -/
def isUnrelated (log : EventLog) : Bool :=
  match log.topics with
  | [] => false
  | topic :: _ => !topic.isVoid && !selectors.any fun s => topic = .text s

theorem isUnrelated_cons {topic : Document} {rest : List Document} {data : Argument} :
    isUnrelated ⟨topic :: rest, data⟩ = true ↔
      topic.isVoid = false ∧ ∀ s ∈ selectors, topic ≠ .text s := by
  simp [isUnrelated]

/-- A first topic that is a text belongs to an unrelated log if it is neither
empty nor a selector. -/
theorem isUnrelated_text {s : String} {rest : List Document} {data : Argument} :
    isUnrelated ⟨.text s :: rest, data⟩ = true ↔ s ≠ "" ∧ s ∉ selectors := by
  rw [isUnrelated_cons]
  refine and_congr (by simp [Document.isVoid]) ?_
  simp only [ne_eq, Document.text.injEq]
  exact ⟨fun h hs => h s hs rfl, fun h t ht hst => h (hst ▸ ht)⟩

/-- A log that is at fault itself: it has no topic, or nothing for one, or data
that is not legible for its selector. -/
inductive IsMalformed : EventLog → Prop
  | noTopic (data : Argument) : IsMalformed ⟨[], data⟩
  | emptyTopic {topic : Document} (h : topic.isVoid = true) (rest : List Document)
      (data : Argument) : IsMalformed ⟨topic :: rest, data⟩
  | undecodable {selector : String} {n : Nat} (h : Needs selector n) (rest : List Document)
      {data : Argument} (hshort : ∀ ds, Carries data ds → ds.length < wordLength * n) :
      IsMalformed ⟨.text selector :: rest, data⟩
  | unknownCode {selector : String} {n : Nat} (h : Needs selector n)
      (houtcome : selector ≠ newEpochSelector) (rest : List Document) {data : Argument}
      {ds : List Hex.Digit} (hdata : Carries data ds) (hlength : wordLength * n ≤ ds.length)
      (hcode : 2 < Hex.value (wordAt ds 0)) : IsMalformed ⟨.text selector :: rest, data⟩

theorem mem_selectors_iff {selector : String} : selector ∈ selectors ↔ ∃ n, Needs selector n := by
  constructor
  · intro h
    simp only [selectors, List.mem_cons, List.not_mem_nil, or_false] at h
    rcases h with rfl | rfl | rfl
    · exact ⟨5, .claimReceived⟩
    · exact ⟨5, .disputeEnded⟩
    · exact ⟨1, .newEpoch⟩
  · rintro ⟨n, h⟩
    cases h <;> simp [selectors]

/-- Only an unknown selector is reported as such. -/
theorem DecodingFault.kind_report (f : DecodingFault) :
    f.report.kind = match f with
      | .unknownSelector _ => "AbiEventSignatureNotFoundError"
      | _ => "InvalidEventLogError" := by
  cases f <;> rfl

theorem DecodingFault.kind_of_ne {f : DecodingFault} (h : ∀ topic, f ≠ .unknownSelector topic) :
    f.report.kind = "InvalidEventLogError" := by
  cases f with
  | unknownSelector topic => exact absurd rfl (h topic)
  | noSelector => rfl
  | malformed _ => rfl
  | unknownCode _ => rfl

theorem decodeOutcome_ne_unknownSelector {data : Argument} {topic : Document} :
    decodeOutcome data ≠ .error (.unknownSelector topic) := by
  intro h
  rw [decodeOutcome] at h
  split at h
  · simp at h
  · rw [OutcomeRecord.outcome] at h
    split at h <;> simp at h

theorem decodeClaim_ne_unknownSelector {data : Argument} {topic : Document} :
    decodeClaim data ≠ .error (.unknownSelector topic) := by
  intro h
  rw [decodeClaim] at h
  split at h <;> simp at h

theorem Needs.decode_ne_unknownSelector {selector : String} {n : Nat} (h : Needs selector n)
    {rest : List Document} {data : Argument} {topic : Document} :
    decode ⟨.text selector :: rest, data⟩ ≠ .error (.unknownSelector topic) := by
  intro hdecode
  cases h with
  | claimReceived =>
      rw [decode_claimReceived, map_eq_error_iff] at hdecode
      exact decodeOutcome_ne_unknownSelector hdecode
  | disputeEnded =>
      rw [decode_disputeEnded, map_eq_error_iff] at hdecode
      exact decodeOutcome_ne_unknownSelector hdecode
  | newEpoch =>
      rw [decode_newEpoch, map_eq_error_iff] at hdecode
      exact decodeClaim_ne_unknownSelector hdecode

theorem decode_of_isUnrelated {log : EventLog} (h : log.isUnrelated = true) :
    ∃ topic, decode log = .error (.unknownSelector topic) := by
  obtain ⟨topics, data⟩ := log
  cases topics with
  | nil => contradiction
  | cons topic rest =>
      obtain ⟨hvoid, hselectors⟩ := isUnrelated_cons.1 h
      simp only [selectors, List.forall_mem_cons] at hselectors
      have hrecord : decodeRecord topic data = .error (.unknownSelector topic) := by
        simp [decodeRecord, hvoid, hselectors]
      exact ⟨topic, decode_of_decodeRecord hrecord⟩

/-- A log of a known selector is malformed or carries legible digits. -/
theorem Needs.isMalformed_or {selector : String} {n : Nat} (h : Needs selector n)
    (rest : List Document) (data : Argument) :
    IsMalformed ⟨.text selector :: rest, data⟩ ∨ ∃ ds, Carries data ds ∧ Legible selector n ds := by
  by_cases hdata : ∃ ds, Carries data ds ∧ wordLength * n ≤ ds.length
  · obtain ⟨ds, hcarries, hlength⟩ := hdata
    by_cases hcode : selector ≠ newEpochSelector ∧ 2 < Hex.value (wordAt ds 0)
    · exact .inl (.unknownCode h hcode.1 rest hcarries hlength hcode.2)
    · exact .inr ⟨ds, hcarries, hlength,
        fun hne => Nat.le_of_not_lt fun hlt => hcode ⟨hne, hlt⟩⟩
  · exact .inl (.undecodable h rest fun ds hcarries =>
      Nat.lt_of_not_le fun hle => hdata ⟨ds, hcarries, hle⟩)

theorem IsMalformed.exists_decode {log : EventLog} (h : log.IsMalformed) :
    ∃ f, decode log = .error f ∧ ∀ topic, f ≠ .unknownSelector topic := by
  have hknown : ∀ {selector n rest data}, Needs selector n →
      (¬ ∃ ds, Carries data ds ∧ Legible selector n ds) →
        ∃ f, decode ⟨.text selector :: rest, data⟩ = .error f ∧
          ∀ topic, f ≠ .unknownSelector topic := by
    intro selector n rest data hneeds hno
    rw [← exists_decode_iff hneeds rest] at hno
    cases hdecode : decode ⟨.text selector :: rest, data⟩ with
    | ok e => exact absurd ⟨e, hdecode⟩ hno
    | error f =>
        refine ⟨f, rfl, ?_⟩
        rintro topic rfl
        exact hneeds.decode_ne_unknownSelector hdecode
  cases h with
  | noTopic data => exact ⟨.noSelector, rfl, nofun⟩
  | emptyTopic hvoid rest data =>
      have hrecord : decodeRecord _ data = .error (.unreadable .emptySelector) := if_pos hvoid
      exact ⟨.malformed .emptySelector, decode_of_decodeRecord hrecord, nofun⟩
  | undecodable hneeds rest hshort =>
      refine hknown hneeds ?_
      rintro ⟨ds, hcarries, hlegible⟩
      exact absurd hlegible.length_le (Nat.not_le_of_lt (hshort ds hcarries))
  | unknownCode hneeds houtcome rest hdata _ hcode =>
      refine hknown hneeds ?_
      rintro ⟨ds, hcarries, hlegible⟩
      obtain rfl := hcarries.unique hdata
      exact absurd (hlegible.code_le houtcome) (Nat.not_le_of_lt hcode)

theorem IsMalformed.isUnrelated_eq {log : EventLog} (h : log.IsMalformed) :
    log.isUnrelated = false := by
  obtain ⟨f, hdecode, hf⟩ := h.exists_decode
  rw [← Bool.not_eq_true]
  intro hunrelated
  obtain ⟨topic, htopic⟩ := decode_of_isUnrelated hunrelated
  exact hf topic (Except.error.inj (hdecode.symm.trans htopic))

/-- Every log is unrelated, malformed or read, and the fault says which. -/
theorem decode_cases (log : EventLog) :
    (log.isUnrelated = true ∧ ∃ topic, decode log = .error (.unknownSelector topic)) ∨
      (log.IsMalformed ∧ ∃ f, decode log = .error f ∧ ∀ topic, f ≠ .unknownSelector topic) ∨
        ∃ e, decode log = .ok e := by
  cases hunrelated : log.isUnrelated with
  | true => exact .inl ⟨rfl, decode_of_isUnrelated hunrelated⟩
  | false =>
      obtain ⟨topics, data⟩ := log
      cases topics with
      | nil =>
          have h := IsMalformed.noTopic data
          exact .inr (.inl ⟨h, h.exists_decode⟩)
      | cons topic rest =>
          cases hvoid : topic.isVoid with
          | true =>
              have h := IsMalformed.emptyTopic hvoid rest data
              exact .inr (.inl ⟨h, h.exists_decode⟩)
          | false =>
              have hknown : ∃ s ∈ selectors, topic = .text s := by
                by_contra hno
                have hall : ∀ s ∈ selectors, topic ≠ .text s :=
                  fun s hs heq => hno ⟨s, hs, heq⟩
                rw [isUnrelated_cons.2 ⟨hvoid, hall⟩] at hunrelated
                contradiction
              obtain ⟨selector, hmem, rfl⟩ := hknown
              obtain ⟨n, hneeds⟩ := mem_selectors_iff.1 hmem
              rcases hneeds.isMalformed_or rest data with h | h
              · exact .inr (.inl ⟨h, h.exists_decode⟩)
              · exact .inr (.inr ((exists_decode_iff hneeds rest).2 h))

/-! ### Reading a batch -/

section

variable {log : EventLog} {logs : List EventLog} {e : Event} {f : DecodingFault}

theorem decodeAll_cons_of_ok (h : decode log = .ok e) :
    decodeAll (log :: logs) = (decodeAll logs).map (e :: ·) := by
  rw [decodeAll, h]

theorem decodeAll_cons_of_unrelated {topic : Document}
    (h : decode log = .error (.unknownSelector topic)) :
    decodeAll (log :: logs) = decodeAll logs := by
  rw [decodeAll, h]

theorem decodeAll_cons_of_malformed (h : decode log = .error f)
    (hf : ∀ topic, f ≠ .unknownSelector topic) : decodeAll (log :: logs) = .error f := by
  rw [decodeAll, h]
  split
  · contradiction
  · next topic heq => exact absurd (Except.error.inj heq) (hf topic)
  · next heq => exact congrArg Except.error (Except.error.inj heq).symm

end

/-- A batch is read part by part, and the first part that fails is the one that
is reported. -/
theorem decodeAll_append (xs ys : List EventLog) :
    decodeAll (xs ++ ys) = (decodeAll xs >>= fun events => (decodeAll ys).map (events ++ ·)) := by
  induction xs with
  | nil =>
      rw [List.nil_append, decodeAll]
      cases decodeAll ys <;> rfl
  | cons log xs ih =>
      rw [List.cons_append]
      rcases decode_cases log with ⟨-, topic, h⟩ | ⟨-, f, h, hf⟩ | ⟨e, h⟩
      · rw [decodeAll_cons_of_unrelated h, decodeAll_cons_of_unrelated h, ih]
      · rw [decodeAll_cons_of_malformed h hf, decodeAll_cons_of_malformed h hf]
        rfl
      · rw [decodeAll_cons_of_ok h, decodeAll_cons_of_ok h, ih]
        cases decodeAll xs with
        | error f => rfl
        | ok events => cases decodeAll ys <;> rfl

theorem isUnrelated_iff {log : EventLog} :
    log.isUnrelated = true ↔
      ∃ f, decode log = .error f ∧ f.report.kind = "AbiEventSignatureNotFoundError" := by
  constructor
  · intro h
    obtain ⟨topic, hdecode⟩ := decode_of_isUnrelated h
    exact ⟨_, hdecode, rfl⟩
  · rintro ⟨f, hdecode, hkind⟩
    rcases decode_cases log with ⟨h, -⟩ | ⟨-, f', h, hf⟩ | ⟨e, h⟩
    · exact h
    · obtain rfl := Except.error.inj (hdecode.symm.trans h)
      rw [f.kind_of_ne hf] at hkind
      contradiction
    · rw [hdecode] at h
      contradiction

theorem isMalformed_iff {log : EventLog} :
    log.IsMalformed ↔
      ∃ f, decode log = .error f ∧ f.report.kind = "InvalidEventLogError" := by
  constructor
  · intro h
    obtain ⟨f, hdecode, hf⟩ := h.exists_decode
    exact ⟨f, hdecode, f.kind_of_ne hf⟩
  · rintro ⟨f, hdecode, hkind⟩
    rcases decode_cases log with ⟨-, topic, h⟩ | ⟨h, -⟩ | ⟨e, h⟩
    · obtain rfl := Except.error.inj (hdecode.symm.trans h)
      simp [DecodingFault.kind_report] at hkind
    · exact h
    · rw [hdecode] at h
      contradiction

theorem exists_decode_ok_iff {log : EventLog} :
    (∃ e, decode log = .ok e) ↔ log.isUnrelated = false ∧ ¬ log.IsMalformed := by
  constructor
  · rintro ⟨e, h⟩
    constructor
    · rw [← Bool.not_eq_true, isUnrelated_iff]
      rintro ⟨f, hf, -⟩
      rw [h] at hf
      contradiction
    · rw [isMalformed_iff]
      rintro ⟨f, hf, -⟩
      rw [h] at hf
      contradiction
  · rintro ⟨hrelated, hwell⟩
    rcases decode_cases log with ⟨h, -⟩ | ⟨h, -⟩ | h
    · rw [hrelated] at h
      contradiction
    · exact absurd h hwell
    · exact h

/-- The logs of known selectors, those without a selector among them. -/
def related (logs : List EventLog) : List EventLog :=
  logs.filter fun log => !log.isUnrelated

theorem related_cons_of_unrelated {log : EventLog} {logs : List EventLog}
    (h : log.isUnrelated = true) : related (log :: logs) = related logs := by
  rw [related, List.filter_cons_of_neg (by simp [h]), related]

theorem related_cons_of_related {log : EventLog} {logs : List EventLog}
    (h : log.isUnrelated = false) : related (log :: logs) = log :: related logs := by
  rw [related, List.filter_cons_of_pos (by simp [h]), related]

/-- Unrelated logs do not change what a batch is read as, or why it is refused. -/
theorem decodeAll_related (logs : List EventLog) : decodeAll (related logs) = decodeAll logs := by
  induction logs with
  | nil => rfl
  | cons log logs ih =>
      cases hunrelated : log.isUnrelated with
      | true =>
          obtain ⟨topic, h⟩ := decode_of_isUnrelated hunrelated
          rw [related_cons_of_unrelated hunrelated, decodeAll_cons_of_unrelated h, ih]
      | false =>
          rw [related_cons_of_related hunrelated]
          rcases decode_cases log with ⟨h, -⟩ | ⟨-, f, h, hf⟩ | ⟨e, h⟩
          · rw [hunrelated] at h
            contradiction
          · rw [decodeAll_cons_of_malformed h hf, decodeAll_cons_of_malformed h hf]
          · rw [decodeAll_cons_of_ok h, decodeAll_cons_of_ok h, ih]

/-- A log that is read as an event. -/
def ReadAs (log : EventLog) (e : Event) : Prop :=
  decode log = .ok e

theorem decodeAll_eq_ok_iff {logs : List EventLog} {events : List Event} :
    decodeAll logs = .ok events ↔ List.Forall₂ ReadAs (related logs) events := by
  induction logs generalizing events with
  | nil =>
      rw [decodeAll, related, List.filter_nil, List.forall₂_nil_left_iff, Except.ok.injEq, eq_comm]
  | cons log logs ih =>
      rcases decode_cases log with ⟨hunrelated, topic, h⟩ | ⟨hbad, f, h, hf⟩ | ⟨e, h⟩
      · rw [decodeAll_cons_of_unrelated h, related_cons_of_unrelated hunrelated, ih]
      · rw [decodeAll_cons_of_malformed h hf, related_cons_of_related hbad.isUnrelated_eq,
          List.forall₂_cons_left_iff]
        simp [ReadAs, h]
      · rw [decodeAll_cons_of_ok h, related_cons_of_related (exists_decode_ok_iff.1 ⟨e, h⟩).1,
          List.forall₂_cons_left_iff, map_eq_ok_iff]
        simp [ReadAs, h, ih, eq_comm]

/-- A batch is refused for its first malformed log, with the fault of that log. -/
theorem decodeAll_eq_error_iff {logs : List EventLog} {f : DecodingFault} :
    decodeAll logs = .error f ↔
      ∃ before log after, logs = before ++ log :: after ∧ (∀ l ∈ before, ¬ l.IsMalformed) ∧
        log.IsMalformed ∧ decode log = .error f := by
  constructor
  · intro h
    induction logs with
    | nil => contradiction
    | cons log logs ih =>
        by_cases hbad : log.IsMalformed
        · obtain ⟨f', hlog, hf⟩ := hbad.exists_decode
          rw [decodeAll_cons_of_malformed hlog hf] at h
          refine ⟨[], log, logs, rfl, nofun, hbad, ?_⟩
          rw [hlog, Except.error.inj h]
        · have hrest : decodeAll logs = .error f := by
            rcases decode_cases log with ⟨-, topic, hlog⟩ | ⟨hlog, -⟩ | ⟨e, hlog⟩
            · rwa [decodeAll_cons_of_unrelated hlog] at h
            · exact absurd hlog hbad
            · rwa [decodeAll_cons_of_ok hlog, map_eq_error_iff] at h
          obtain ⟨before, bad, after, rfl, hbefore, hrest⟩ := ih hrest
          exact ⟨log :: before, bad, after, rfl, List.forall_mem_cons.2 ⟨hbad, hbefore⟩, hrest⟩
  · rintro ⟨before, log, after, rfl, hbefore, hbad, hlog⟩
    obtain ⟨f', hlog', hf⟩ := hbad.exists_decode
    obtain rfl := Except.error.inj (hlog.symm.trans hlog')
    induction before with
    | nil => exact decodeAll_cons_of_malformed hlog hf
    | cons l before ih =>
        obtain ⟨hl, hbefore⟩ := List.forall_mem_cons.1 hbefore
        rw [List.cons_append]
        rcases decode_cases l with ⟨-, topic, h⟩ | ⟨h, -⟩ | ⟨e, h⟩
        · rw [decodeAll_cons_of_unrelated h, ih hbefore]
        · exact absurd h hl
        · rw [decodeAll_cons_of_ok h, ih hbefore]
          rfl

/-- A batch skips exactly its unrelated logs and fails on exactly the malformed
ones. Whatever its topics and its data are, a log is refused as one of an unknown
selector if and only if it has a first topic that stands for something and is no
selector (a text that is not empty and no selector), is refused as an invalid log
if and only if it is malformed, and is read otherwise. A batch is refused if and
only if a log of it is malformed, for the first such log and with its fault. If
it is read, its events are those of its related logs, one for each and in order;
what is read of two batches is read of the one behind the other; and unrelated
logs never make a difference. -/
theorem batches_skip_unrelated_logs :
    (∀ log : EventLog,
      (log.isUnrelated = true ↔
        ∃ f, decode log = .error f ∧ f.report.kind = "AbiEventSignatureNotFoundError") ∧
      (log.IsMalformed ↔
        ∃ f, decode log = .error f ∧ f.report.kind = "InvalidEventLogError") ∧
      ((∃ e, decode log = .ok e) ↔ log.isUnrelated = false ∧ ¬ log.IsMalformed)) ∧
      (∀ s rest data, isUnrelated ⟨.text s :: rest, data⟩ = true ↔ s ≠ "" ∧ s ∉ selectors) ∧
      (∀ logs f, decodeAll logs = .error f ↔
        ∃ before log after, logs = before ++ log :: after ∧ (∀ l ∈ before, ¬ l.IsMalformed) ∧
          log.IsMalformed ∧ decode log = .error f) ∧
      (∀ logs events, decodeAll logs = .ok events ↔ List.Forall₂ ReadAs (related logs) events) ∧
      (∀ xs ys, decodeAll (xs ++ ys) =
        (decodeAll xs >>= fun events => (decodeAll ys).map (events ++ ·))) ∧
      ∀ xs ys, related xs = related ys → decodeAll xs = decodeAll ys := by
  refine ⟨fun log => ⟨isUnrelated_iff, isMalformed_iff, exists_decode_ok_iff⟩,
    fun _ _ _ => isUnrelated_text, fun _ _ => decodeAll_eq_error_iff,
    fun _ _ => decodeAll_eq_ok_iff, decodeAll_append, fun xs ys h => ?_⟩
  rw [← decodeAll_related xs, h, decodeAll_related]

theorem notMem_selectors {s : String} (h : ¬ Hex.IsMarked s) : s ∉ selectors := by
  have hmarked : ∀ d : Description, s ≠ d.selector := by
    rintro d rfl
    rw [Hex.isMarked_iff, Description.selector, String.toList_ofList] at h
    exact h ⟨_, rfl⟩
  intro hs
  simp only [selectors, List.mem_cons, List.not_mem_nil, or_false] at hs
  rcases hs with hs | hs | hs
  · exact hmarked _ hs
  · exact hmarked _ hs
  · exact hmarked _ hs

/-- A log of another origin. -/
def stray : EventLog :=
  ⟨[.text "Transfer"], .missing⟩

theorem isForeign_stray : stray.IsForeign :=
  ⟨"Transfer", [], rfl, by decide, notMem_selectors (by decide)⟩

theorem not_isMalformed_stray : ¬ stray.IsMalformed := by
  intro h
  have hunrelated : stray.isUnrelated = true :=
    isUnrelated_text.2 ⟨by decide, notMem_selectors (by decide)⟩
  exact Bool.false_ne_true (h.isUnrelated_eq.symm.trans hunrelated)

/-- Between two stray logs, one with an empty topic is the one that is named. -/
theorem batches_skip_unrelated_logs_stray :
    decodeAll [stray, ⟨[.text ""], .missing⟩, stray] = .error (.malformed .emptySelector) := by
  obtain ⟨-, -, herror, -⟩ := batches_skip_unrelated_logs
  refine (herror _ _).2 ⟨[stray], ⟨[.text ""], .missing⟩, [stray], rfl, ?_, ?_, rfl⟩
  · simpa using not_isMalformed_stray
  · exact .emptyTopic rfl [] .missing

end EventLog

end EpochClaims
