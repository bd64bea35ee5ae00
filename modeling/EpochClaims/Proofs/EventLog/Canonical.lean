import EpochClaims.Proofs.Event.Spelling
import EpochClaims.Proofs.EventLog.RoundTrip
import EpochClaims.Proofs.Hex.Number

/-!
# Canonical events and canonical logs

`Written` are the events that a caller may spell, with the selector and the
words of their logs: five words for an outcome, one for the end of an epoch. A
log does not keep how they were spelled, so what reads back is the canonical
event, its claims in lower case and its validators checksummed. Conversely a log
that has the form of a written one, its digits in lower case, its result a code
and its addresses behind twelve bytes of zeros, reads as an event whose log it
is. So reading and writing are each other's inverses between canonical events
and canonical logs.
-/

namespace EpochClaims

namespace EventLog

namespace FullOutcome

variable {o : FullOutcome} {outcome : Outcome}

/-- The words of an outcome: the code of its result, its claims, and its
validators behind twelve bytes of zeros. -/
def words (o : FullOutcome) : List (List Hex.Digit) :=
  [codeDigits o.result, o.claims.1, o.claims.2, addressDigits o.validators.1,
    addressDigits o.validators.2]

theorem length_of_mem_words (o : FullOutcome) : ∀ w ∈ o.words, w.length = wordLength := by
  simp [words, length_codeDigits, length_addressDigits, o.length_first, o.length_second]

/-- However an outcome is spelled, its canonical form is the one that a manager
announces. -/
theorem Spelled.mapTexts_eq (h : o.Spelled outcome) :
    outcome.mapTexts Hex.lowered Address.checksummed = o.outcome := by
  cases h with
  | intro hc₁ hc₂ ha₁ ha₂ =>
      have hvalidator : ∀ {s a}, Address.ofExact? (String.toList s) = some a →
          Address.checksummed s = a.text :=
        fun h => Address.checksummed_of_ofText? (Address.ofText?_of_ofExact? h)
      simp only [Outcome.mapTexts, Outcome.of, Argument.mapMembers, Document.mapMembers,
        List.map_cons, List.map_nil, Document.mapText, Hex.lowered_of_read? hc₁,
        Hex.lowered_of_read? hc₂, hvalidator ha₁, hvalidator ha₂]
      rfl

end FullOutcome

/-- Events as a caller may spell them, with the selector and the words of their
logs. -/
inductive Written : Event → String → List (List Hex.Digit) → Prop where
  | claimReceived {o : FullOutcome} {outcome : Outcome} (h : o.Spelled outcome) :
      Written (.claimReceived outcome) claimReceivedSelector o.words
  | disputeEnded {o : FullOutcome} {outcome : Outcome} (h : o.Spelled outcome) :
      Written (.disputeEnded outcome) disputeEndedSelector o.words
  | newEpoch {s : String} {w : List Hex.Digit} (hs : Hex.read? s.toList = some w)
      (h : w.length = wordLength) : Written (.newEpoch (.text s)) newEpochSelector [w]

namespace Written

variable {e e' : Event} {selector selector' : String} {ws ws' : List (List Hex.Digit)}

theorem length_of_mem (h : Written e selector ws) : ∀ w ∈ ws, w.length = wordLength := by
  cases h with
  | claimReceived _ => exact FullOutcome.length_of_mem_words _
  | disputeEnded _ => exact FullOutcome.length_of_mem_words _
  | newEpoch _ h => simpa using h

/-- An event has a log of its words, and its canonical form reads back. -/
theorem exists_encode (h : Written e selector ws) :
    ∃ s, encode e = .ok (some ⟨[.text selector], .text s⟩) ∧
      Hex.read? s.toList = some ws.flatten ∧
      decode ⟨[.text selector], .text s⟩ = .ok e.canonical := by
  have hread : ∀ {body ds}, Hex.digits? body = some ds →
      Hex.read? (String.ofList ('0' :: 'x' :: body)).toList = some ds := by
    intro body ds hdigits
    rw [String.toList_ofList, Hex.read?, Hex.unmark?_cons, Option.bind_some, hdigits]
  cases h with
  | @claimReceived o outcome h =>
      obtain ⟨body, hbody, hdigits⟩ := h.exists_words
      refine ⟨String.ofList ('0' :: 'x' :: body), ?_, hread hdigits, ?_⟩
      · rw [encode, hbody]
        rfl
      · rw [decode_claimReceived, o.decodeOutcome_of_read? (hread hdigits), ← h.mapTexts_eq]
        rfl
  | @disputeEnded o outcome h =>
      obtain ⟨body, hbody, hdigits⟩ := h.exists_words
      refine ⟨String.ofList ('0' :: 'x' :: body), ?_, hread hdigits, ?_⟩
      · rw [encode, hbody]
        rfl
      · rw [decode_disputeEnded, o.decodeOutcome_of_read? (hread hdigits), ← h.mapTexts_eq]
        rfl
  | @newEpoch s w hs h =>
      have hdigits := Hex.digits?_drop hs
      refine ⟨String.ofList ('0' :: 'x' :: s.toList.drop 2), ?_, ?_, ?_⟩
      · rw [encode, claimWord_of_read? hs h]
        rfl
      · rw [hread hdigits, List.flatten_singleton]
      · rw [decode_newEpoch, decodeClaim_of_read? (hread hdigits) h, claimOfWord,
          ← Hex.lowered_of_read? hs]
        rfl

/-- Events with one log agree up to the case of letters. -/
theorem lowered_eq (h : Written e selector ws) (h' : Written e' selector' ws')
    (hsame : encode e = encode e') : e.lowered = e'.lowered := by
  obtain ⟨s, hencode, -, hdecode⟩ := h.exists_encode
  obtain ⟨s', hencode', -, hdecode'⟩ := h'.exists_encode
  have hlog := Option.some.inj (Except.ok.inj (hencode.symm.trans (hsame.trans hencode')))
  rw [hlog] at hdecode
  have hcanonical := Except.ok.inj (hdecode.symm.trans hdecode')
  rw [← e.lowered_canonical, hcanonical, e'.lowered_canonical]

end Written

/-! ### Canonical logs -/

theorem exists_code : ∀ n ≤ 2, ∃ r : ClaimResult, r.code = n
  | 0, _ => ⟨.noConflict, rfl⟩
  | 1, _ => ⟨.consensus, rfl⟩
  | 2, _ => ⟨.conflict, rfl⟩

theorem exists_codeDigits {w : List Hex.Digit} (hlength : w.length = wordLength)
    (hcode : Hex.value w ≤ 2) : ∃ r, codeDigits r = w := by
  obtain ⟨r, hr⟩ := exists_code _ hcode
  refine ⟨r, Hex.value_injective ?_ ?_⟩
  · rw [length_codeDigits, hlength]
  · rw [value_codeDigits, hr]

theorem exists_addressDigits {w : List Hex.Digit} (hlength : w.length = wordLength)
    (hzeros : w.take 24 = List.replicate 24 0) : ∃ a, addressDigits a = w := by
  have hdigits : (w.drop 24).length = 40 := by
    rw [List.length_drop, hlength]
    rfl
  refine ⟨⟨w.drop 24, hdigits⟩, ?_⟩
  rw [addressDigits, Hex.padLeft, hdigits]
  exact (congrArg (· ++ w.drop 24) hzeros.symm).trans (List.take_append_drop 24 w)

/-- Five words, the first with the value of a code, the last two with twelve
bytes of zeros in front. -/
inductive IsOutcome : List (List Hex.Digit) → Prop where
  | intro {code claim₁ claim₂ validator₁ validator₂ : List Hex.Digit}
      (length_eq : ∀ w ∈ [code, claim₁, claim₂, validator₁, validator₂], w.length = wordLength)
      (code_le : Hex.value code ≤ 2) (first_zeros : validator₁.take 24 = List.replicate 24 0)
      (second_zeros : validator₂.take 24 = List.replicate 24 0) :
      IsOutcome [code, claim₁, claim₂, validator₁, validator₂]

theorem IsOutcome.exists_fullOutcome {ws : List (List Hex.Digit)} (h : IsOutcome ws) :
    ∃ o : FullOutcome, o.words = ws := by
  cases h with
  | @intro code claim₁ claim₂ validator₁ validator₂ hlength hcode hfirst hsecond =>
      simp only [List.forall_mem_cons, List.not_mem_nil, false_imp_iff, implies_true,
        and_true] at hlength
      obtain ⟨hlcode, hl₁, hl₂, hlv₁, hlv₂⟩ := hlength
      obtain ⟨r, rfl⟩ := exists_codeDigits hlcode hcode
      obtain ⟨a, rfl⟩ := exists_addressDigits hlv₁ hfirst
      obtain ⟨b, rfl⟩ := exists_addressDigits hlv₂ hsecond
      exact ⟨⟨r, (claim₁, claim₂), (a, b), hl₁, hl₂⟩, rfl⟩

/-- Logs of one topic, a selector, whose data is the text of the words of that
selector in lower case. -/
inductive IsCanonical : EventLog → Prop where
  | outcome {selector s : String} {ws : List (List Hex.Digit)}
      (hselector : selector = claimReceivedSelector ∨ selector = disputeEndedSelector)
      (hlower : Hex.lowered s = s) (hread : Hex.read? s.toList = some ws.flatten)
      (hwords : IsOutcome ws) : IsCanonical ⟨[.text selector], .text s⟩
  | newEpoch {s : String} {w : List Hex.Digit} (hlower : Hex.lowered s = s)
      (hread : Hex.read? s.toList = some w) (hlength : w.length = wordLength) :
      IsCanonical ⟨[.text newEpochSelector], .text s⟩

theorem isOutcome_words (o : FullOutcome) : IsOutcome o.words := by
  have hzeros : ∀ a : Address, (addressDigits a).take 24 = List.replicate 24 0 := by
    intro a
    rw [addressDigits, Hex.padLeft, a.length_digits]
    rfl
  refine .intro o.length_of_mem_words ?_ (hzeros _) (hzeros _)
  rw [value_codeDigits]
  cases o.result <;> decide

/-- A canonical log reads as a canonical event, whose log it is. -/
theorem IsCanonical.exists_decode {log : EventLog} (h : IsCanonical log) :
    ∃ e selector ws, decode log = .ok e ∧ encode e = .ok (some log) ∧ Written e selector ws ∧
      e.canonical = e := by
  cases h with
  | @outcome selector s ws hselector hlower hread hwords =>
      obtain ⟨o, rfl⟩ := hwords.exists_fullOutcome
      have hdecode := o.decodeOutcome_of_read? hread
      have htext : String.ofList (Hex.write o.digits) = s :=
        (Hex.lowered_of_read? hread).symm.trans hlower
      have hcanonical := o.spelled_outcome.mapTexts_eq
      rcases hselector with rfl | rfl
      · refine ⟨.claimReceived o.outcome, _, _, ?_, ?_, .claimReceived o.spelled_outcome,
          congrArg Event.claimReceived hcanonical⟩
        · rw [decode_claimReceived, hdecode]
          rfl
        · rw [encode, o.outcomeWords_outcome, ← htext]
          rfl
      · refine ⟨.disputeEnded o.outcome, _, _, ?_, ?_, .disputeEnded o.spelled_outcome,
          congrArg Event.disputeEnded hcanonical⟩
        · rw [decode_disputeEnded, hdecode]
          rfl
        · rw [encode, o.outcomeWords_outcome, ← htext]
          rfl
  | @newEpoch s w hlower hread hlength =>
      have htext : claimOfWord w = s := (Hex.lowered_of_read? hread).symm.trans hlower
      refine ⟨.newEpoch (.text s), _, _, ?_, ?_, .newEpoch hread hlength, ?_⟩
      · rw [decode_newEpoch, decodeClaim_of_read? hread hlength, htext]
        rfl
      · rw [encode, claimWord_of_read? hread hlength, ← htext, claimOfWord,
          String.toList_ofList]
        rfl
      · exact congrArg (fun s => Event.newEpoch (.text s)) hlower

/-- The log of a canonical event is canonical. -/
theorem Written.isCanonical {e : Event} {selector : String} {ws : List (List Hex.Digit)}
    (h : Written e selector ws) (hcanonical : e.canonical = e) {log : EventLog}
    (hlog : encode e = .ok (some log)) : IsCanonical log := by
  have hwritten : ∀ (o : FullOutcome) {selector : String},
      selector = claimReceivedSelector ∨ selector = disputeEndedSelector →
        IsCanonical (ofWords selector (Hex.lower o.digits)) :=
    fun o _ hselector => .outcome hselector (Hex.lowered_write o.digits)
      (read?_claimOfWord o.words.flatten) (isOutcome_words o)
  cases h with
  | @claimReceived o outcome h =>
      obtain rfl : o.outcome = outcome :=
        h.mapTexts_eq.symm.trans (Event.claimReceived.inj hcanonical)
      rw [encode, o.outcomeWords_outcome] at hlog
      exact Option.some.inj (Except.ok.inj hlog) ▸ hwritten o (.inl rfl)
  | @disputeEnded o outcome h =>
      obtain rfl : o.outcome = outcome :=
        h.mapTexts_eq.symm.trans (Event.disputeEnded.inj hcanonical)
      rw [encode, o.outcomeWords_outcome] at hlog
      exact Option.some.inj (Except.ok.inj hlog) ▸ hwritten o (.inr rfl)
  | @newEpoch s w hs h =>
      have hclaim := Event.newEpoch.inj hcanonical
      have hlower : Hex.lowered s = s := Document.text.inj (Argument.given.inj hclaim)
      have htext : claimOfWord w = s := (Hex.lowered_of_read? hs).symm.trans hlower
      subst htext
      rw [encode, claimWord_of_read? hs h, claimOfWord, String.toList_ofList] at hlog
      exact Option.some.inj (Except.ok.inj hlog) ▸ .newEpoch hlower hs h

/-- Writing and reading logs are each other's inverses between canonical events
and canonical logs. Every event whose claims have 64 digits in any case, and
whose validators are spelled in lower case or checksummed, has a log with one
topic, its selector, and with the words of its values as data; it reads back
with its claims in lower case and its validators checksummed. So two such events
with one log agree up to letter case. Conversely every canonical log reads as a
canonical event, of which it is the log, and a canonical event has a canonical
log. -/
theorem codec_is_bijective :
    (∀ e selector ws, Written e selector ws → (∀ w ∈ ws, w.length = wordLength) ∧
        ∃ s, encode e = .ok (some ⟨[.text selector], .text s⟩) ∧
          Hex.read? s.toList = some ws.flatten ∧
          decode ⟨[.text selector], .text s⟩ = .ok e.canonical) ∧
      (∀ e e' selector selector' ws ws', Written e selector ws → Written e' selector' ws' →
        encode e = encode e' → e.lowered = e'.lowered) ∧
      (∀ log, IsCanonical log → ∃ e selector ws, decode log = .ok e ∧
        encode e = .ok (some log) ∧ Written e selector ws ∧ e.canonical = e) ∧
      ∀ e selector ws log, Written e selector ws → e.canonical = e →
        encode e = .ok (some log) → IsCanonical log :=
  ⟨fun _ _ _ h => ⟨h.length_of_mem, h.exists_encode⟩,
    fun _ _ _ _ _ _ h h' hsame => h.lowered_eq h' hsame,
    fun _ h => h.exists_decode, fun _ _ _ _ h hcanonical hlog => h.isCanonical hcanonical hlog⟩

/-- A claim in upper case reads back in lower case. -/
theorem codec_is_bijective_upper :
    ∃ s, encode (.newEpoch (.text (String.ofList ('0' :: 'x' :: List.replicate 64 'A')))) =
        .ok (some ⟨[.text newEpochSelector], .text s⟩) ∧
      decode ⟨[.text newEpochSelector], .text s⟩ =
        .ok (.newEpoch (.text (claimOfWord (List.replicate 64 10)))) := by
  have hread : Hex.read? (String.ofList ('0' :: 'x' :: List.replicate 64 'A')).toList =
      some (List.replicate 64 10) := by
    decide +kernel
  obtain ⟨-, s, hencode, -, hdecode⟩ :=
    codec_is_bijective.1 _ _ _ (.newEpoch hread List.length_replicate)
  refine ⟨s, hencode, hdecode.trans ?_⟩
  rw [claimOfWord, ← Hex.lowered_of_read? hread]
  rfl

end EventLog

end EpochClaims
