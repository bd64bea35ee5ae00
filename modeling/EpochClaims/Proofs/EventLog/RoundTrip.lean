import EpochClaims.EventLog.Decoding
import EpochClaims.EventLog.Encoding
import EpochClaims.Proofs.Hex.Bytes

/-!
# Logs read back

What is written as words of 64 digits is read back word by word: digits that
make up whole words are read as they are, in whatever case their letters stand
(`readDigits_of_read?`), a claim of 64 digits is a word of its own, and an
address is behind 24 zeros. `FullOutcome.Spelled` are the ways in which a caller
may spell an outcome of such claims. All of them are written with the same
digits, and read back as the outcome that a manager announces. So does every
event whose claims have 64 digits (`exists_log`).
-/

namespace EpochClaims

namespace EventLog

/-! ### Words -/

theorem digitOfUnit?_of_ofChar? {c : Char} {d : Hex.Digit} (h : Hex.Digit.ofChar? c = some d) :
    digitOfUnit? c.toNat = some d := by
  rw [digitOfUnit?, if_pos (Hex.Digit.lt_of_ofChar? h), Char.ofNat_toNat, h]

theorem payload_of_digits? {body : List Char} {ds : List Hex.Digit}
    (h : Hex.digits? body = some ds) (heven : ds.length % 2 = 0) :
    payload ('0' :: 'x' :: body) = body.map Char.toNat := by
  have hdrop : (Text.units ('0' :: 'x' :: body)).drop 2 = body.map Char.toNat := by
    rw [← Text.units_of_digits? h]
    rfl
  rw [payload, hdrop]
  simp [← Hex.length_of_digits? h, heven]

theorem readPairs_of_digits? (n : Nat) :
    ∀ {s : List Char} {ds : List Hex.Digit}, Hex.digits? s = some ds → ds.length = 2 * n →
      readPairs (s.map Char.toNat) = .ok ds := by
  -- Digits are read in pairs, so the induction is on the number of pairs.
  induction n with
  | zero =>
      intro s ds hs h
      rw [List.length_eq_zero_iff.1 ((Hex.length_of_digits? hs).symm.trans h),
        List.length_eq_zero_iff.1 h]
      rfl
  | succ n ih =>
      intro s ds hs h
      have hlength := (Hex.length_of_digits? hs).symm.trans h
      match s, hs, hlength with
      | c :: b :: s, hs, _ =>
        simp only [Hex.digits?_cons, Option.bind_eq_some_iff, Option.map_eq_some_iff] at hs
        obtain ⟨d, hd, -, ⟨e, he, es, hes, rfl⟩, rfl⟩ := hs
        have hrest : es.length = 2 * n := by
          rw [List.length_cons, List.length_cons] at h
          omega
        have hcons : (c :: b :: s).map Char.toNat =
            c.toNat :: b.toNat :: s.map Char.toNat := rfl
        rw [hcons, readPairs, digitOfUnit?_of_ofChar? hd, digitOfUnit?_of_ofChar? he, ih hes hrest]
        rfl

/-- Whole words of digits are read as they are, whatever the case of their
letters. -/
theorem readDigits_of_read? {n : Nat} {s : List Char} {ds : List Hex.Digit}
    (hs : Hex.read? s = some ds) (h : ds.length = wordLength * (n + 1)) :
    readDigits s = .ok ds := by
  rw [wordLength] at h
  have hsome : ds ≠ [] := List.ne_nil_of_length_pos (by omega)
  have hsize := Hex.byteSize_of_read? hs
  obtain ⟨body, rfl, hdigits⟩ := Hex.read?_eq_some_iff.1 hs
  rw [readDigits, hsize, payload_of_digits? hdigits (by omega),
    readPairs_of_digits? (32 * (n + 1)) hdigits (by omega)]
  simp only [if_neg hsome]
  rw [if_neg (by omega)]

theorem readText_of_read? {s : String} {ds : List Hex.Digit} (hs : Hex.read? s.toList = some ds)
    (h : ds ≠ []) : readText (.text s) = .ok s.toList := by
  have hempty : s ≠ "" := by
    rintro rfl
    contradiction
  have hmarker : s ≠ "0x" := by
    rintro rfl
    exact h (Option.some.inj hs).symm
  rw [readText, if_neg (not_or.2 ⟨hempty, hmarker⟩)]

theorem nextWord_append (size : Nat) {w rest : List Hex.Digit} (h : w.length = wordLength) :
    nextWord size (w ++ rest) = .ok (w, rest) := by
  have hle : 64 ≤ (w ++ rest).length := by
    rw [List.length_append, h, wordLength]
    omega
  rw [wordLength] at h
  rw [nextWord, nextWord?, if_pos hle, ← h, List.take_left, List.drop_left]

/-! ### Claims, addresses and results -/

theorem read?_claimOfWord (w : List Hex.Digit) : Hex.read? (claimOfWord w).toList = some w := by
  rw [claimOfWord, String.toList_ofList, Hex.read?_write]

/-- A claim of 64 digits is written as it is spelled. -/
theorem claimWord_of_read? {s : String} {w : List Hex.Digit} (hs : Hex.read? s.toList = some w)
    (h : w.length = wordLength) : claimWord (.text s) = .ok (s.toList.drop 2) := by
  have hsize : Hex.byteSize s.toList = 32 := by
    rw [Hex.byteSize_of_read? hs, h]
    rfl
  obtain ⟨body, hbody, hdigits⟩ := Hex.read?_eq_some_iff.1 hs
  rw [claimWord, hsize, if_pos rfl, hbody, dropMarker, fillRight, Text.length16_of_digits? hdigits,
    h, Nat.sub_self, List.replicate_zero, List.append_nil]
  rfl

def addressDigits (a : Address) : List Hex.Digit :=
  Hex.padLeft wordLength a.digits

theorem length_addressDigits (a : Address) : (addressDigits a).length = wordLength := by
  rw [addressDigits, Hex.padLeft, List.length_append, List.length_replicate, a.length_digits]
  rfl

theorem addressWord_of_ofExact? {s : String} {a : Address}
    (h : Address.ofExact? s.toList = some a) :
    addressWord (.text s) = .ok (Hex.lower (addressDigits a)) := by
  rw [addressWord, Argument.chars?_text, Option.bind_some, h]
  rfl

theorem ofExact?_text (a : Address) : Address.ofExact? a.text.toList = some a := by
  rw [Address.text, String.toList_ofList, Address.ofExact?, Address.ofText?_chars]
  simp

theorem addressOfWord_addressDigits (a : Address) : addressOfWord (addressDigits a) = a.text := by
  have hdrop : (addressDigits a).drop 24 = a.digits := by
    rw [addressDigits, Hex.padLeft, a.length_digits]
    rfl
  rw [addressOfWord, hdrop, Address.ofDigits?_digits]

def codeDigits (r : ClaimResult) : List Hex.Digit :=
  Hex.padLeft wordLength [Fin.ofNat 16 r.code]

theorem length_codeDigits (r : ClaimResult) : (codeDigits r).length = wordLength := by
  cases r <;> rfl

theorem value_codeDigits (r : ClaimResult) : Hex.value (codeDigits r) = r.code := by
  cases r <;> rfl

/-! ### Outcomes -/

/-- The outcome in the data of a log. -/
def decodeOutcome (data : Argument) : Except DecodingFault Outcome :=
  match readData readOutcome data with
  | .error f => .error (.malformed f)
  | .ok record => record.outcome

/-- The claim in the data of a log. -/
def decodeClaim (data : Argument) : Except DecodingFault String :=
  match readData readClaim data with
  | .error f => .error (.malformed f)
  | .ok claim => .ok claim

/-- An outcome of two claims of 64 digits and two validators. -/
structure FullOutcome where
  result : ClaimResult
  claims : List Hex.Digit × List Hex.Digit
  validators : Address × Address
  length_first : claims.1.length = wordLength
  length_second : claims.2.length = wordLength

namespace FullOutcome

def outcome (o : FullOutcome) : Outcome :=
  .of o.result [claimOfWord o.claims.1, claimOfWord o.claims.2]
    [o.validators.1.text, o.validators.2.text]

def digits (o : FullOutcome) : List Hex.Digit :=
  codeDigits o.result ++ (o.claims.1 ++ (o.claims.2 ++
    (addressDigits o.validators.1 ++ (addressDigits o.validators.2 ++ []))))

theorem length_digits (o : FullOutcome) : o.digits.length = wordLength * (4 + 1) := by
  simp only [digits, List.length_append, length_codeDigits, o.length_first, o.length_second,
    length_addressDigits, List.length_nil]
  rfl

/-- A full outcome as a caller may spell it: the claims in any case, the
validators in lower case or checksummed. -/
inductive Spelled (o : FullOutcome) : Outcome → Prop where
  | intro {c₁ c₂ a₁ a₂ : String} (first_claim : Hex.read? c₁.toList = some o.claims.1)
      (second_claim : Hex.read? c₂.toList = some o.claims.2)
      (first_validator : Address.ofExact? a₁.toList = some o.validators.1)
      (second_validator : Address.ofExact? a₂.toList = some o.validators.2) :
      Spelled o (.of o.result [c₁, c₂] [a₁, a₂])

theorem spelled_outcome (o : FullOutcome) : o.Spelled o.outcome :=
  .intro (read?_claimOfWord _) (read?_claimOfWord _) (ofExact?_text _) (ofExact?_text _)

theorem outcomeWords_of_read? (o : FullOutcome) {c₁ c₂ a₁ a₂ : String}
    (hc₁ : Hex.read? c₁.toList = some o.claims.1) (hc₂ : Hex.read? c₂.toList = some o.claims.2)
    (ha₁ : Address.ofExact? a₁.toList = some o.validators.1)
    (ha₂ : Address.ofExact? a₂.toList = some o.validators.2) :
    outcomeWords (.of o.result [c₁, c₂] [a₁, a₂]) =
      .ok (Hex.lower (codeDigits o.result) ++ (c₁.toList.drop 2 ++ c₂.toList.drop 2) ++
        (Hex.lower (addressDigits o.validators.1) ++
          Hex.lower (addressDigits o.validators.2))) := by
  have hclaims : pairWords "bytes32[2]" (fun d => claimWord (.given d))
      (.list ([c₁, c₂].map .text)) = .ok (c₁.toList.drop 2 ++ c₂.toList.drop 2) := by
    have hfirst := claimWord_of_read? hc₁ o.length_first
    have hsecond := claimWord_of_read? hc₂ o.length_second
    simp only [List.map_cons, List.map_nil, pairWords, hfirst, hsecond]
    rfl
  have hvalidators : pairWords "address[2]" addressWord (.list ([a₁, a₂].map .text)) =
      .ok (Hex.lower (addressDigits o.validators.1) ++
        Hex.lower (addressDigits o.validators.2)) := by
    simp only [List.map_cons, List.map_nil, pairWords, addressWord_of_ofExact? ha₁,
      addressWord_of_ofExact? ha₂]
    rfl
  have hcode : codeWord o.result = Hex.lower (codeDigits o.result) := rfl
  rw [outcomeWords, Outcome.result?_of, Outcome.of, hclaims, hvalidators]
  simp only [bind, Except.bind, pure, Except.pure, hcode]

/-- However an outcome is spelled, its words have the same digits. -/
theorem Spelled.exists_words {o : FullOutcome} {outcome : Outcome} (h : o.Spelled outcome) :
    ∃ ws, outcomeWords outcome = .ok ws ∧ Hex.digits? ws = some o.digits := by
  cases h with
  | intro hc₁ hc₂ ha₁ ha₂ =>
      refine ⟨_, o.outcomeWords_of_read? hc₁ hc₂ ha₁ ha₂, ?_⟩
      rw [Hex.digits?_append, Hex.digits?_append, Hex.digits?_append, Hex.digits?_append,
        Hex.digits?_drop hc₁, Hex.digits?_drop hc₂]
      simp [digits]

theorem outcomeWords_outcome (o : FullOutcome) :
    outcomeWords o.outcome = .ok (Hex.lower o.digits) := by
  rw [outcome, o.outcomeWords_of_read? (read?_claimOfWord _) (read?_claimOfWord _)
    (ofExact?_text _) (ofExact?_text _)]
  simp [claimOfWord, Hex.write, digits, Hex.lower]

theorem readOutcome_digits (o : FullOutcome) (size : Nat) :
    readOutcome size o.digits = .ok ⟨o.result.code,
      [claimOfWord o.claims.1, claimOfWord o.claims.2],
      [o.validators.1.text, o.validators.2.text]⟩ := by
  have hexact : ¬ greatestExact < o.result.code := by
    cases o.result <;> decide
  simp only [readOutcome, digits, nextWord_append size (length_codeDigits o.result),
    nextWord_append size o.length_first, nextWord_append size o.length_second,
    nextWord_append size (length_addressDigits _), bind, Except.bind, pure, Except.pure,
    value_codeDigits, if_neg hexact, addressOfWord_addressDigits]

/-- Text with the digits of an outcome is read as the outcome. -/
theorem decodeOutcome_of_read? (o : FullOutcome) {s : String}
    (hs : Hex.read? s.toList = some o.digits) : decodeOutcome (.text s) = .ok o.outcome := by
  have hsome : o.digits ≠ [] :=
    List.ne_nil_of_length_pos (by rw [o.length_digits]; decide)
  have hread : readData readOutcome (.text s) = .ok ⟨o.result.code,
      [claimOfWord o.claims.1, claimOfWord o.claims.2],
      [o.validators.1.text, o.validators.2.text]⟩ := by
    rw [readData, readText_of_read? hs hsome]
    simp only [bind, Except.bind, readDigits_of_read? hs o.length_digits, readOutcome_digits]
  simp only [decodeOutcome, hread, OutcomeRecord.outcome, ClaimResult.ofCode?_code]
  rfl

end FullOutcome

/-! ### Events -/

def selectors : List String :=
  [claimReceivedSelector, disputeEndedSelector, newEpochSelector]

theorem selectors_nodup : selectors.Nodup := by
  decide +kernel

theorem selectors_ne : disputeEndedSelector ≠ claimReceivedSelector ∧
    newEpochSelector ≠ claimReceivedSelector ∧ newEpochSelector ≠ disputeEndedSelector := by
  have hnodup := selectors_nodup
  simp only [selectors, List.nodup_cons, List.mem_cons, not_or] at hnodup
  exact ⟨Ne.symm hnodup.1.1, Ne.symm hnodup.1.2.1, Ne.symm hnodup.2.1.1⟩

theorem isVoid_selector (d : Description) : (Document.text d.selector).isVoid = false := by
  have hne : d.selector ≠ "" := by
    intro h
    have hlist := congrArg String.toList h
    rw [Description.selector, String.toList_ofList] at hlist
    contradiction
  simpa [Document.isVoid] using hne

section

variable (data : Argument) (rest : List Document)

/-- The decoder has the last word on a log that has a selector. -/
theorem decode_cons (selector : Document) :
    decode ⟨selector :: rest, data⟩ = match decodeRecord selector data with
      | .error f => .error f.decodingFault
      | .ok record => record.event := rfl

variable {data rest} in
/-- A fault of the decoder is passed on or makes the log malformed. -/
theorem decode_of_decodeRecord {selector : Document} {f : RecordFault}
    (h : decodeRecord selector data = .error f) :
    decode ⟨selector :: rest, data⟩ = .error f.decodingFault := by
  rw [decode_cons, h]

theorem decode_claimReceived :
    decode ⟨.text claimReceivedSelector :: rest, data⟩ =
      (decodeOutcome data).map .claimReceived := by
  have hvoid : (Document.text claimReceivedSelector).isVoid ≠ true :=
    ne_true_of_eq_false (isVoid_selector _)
  have hrecord : decodeRecord (.text claimReceivedSelector) data =
      ((readData readOutcome data).map .claimReceived).mapError .unreadable := by
    rw [decodeRecord, if_neg hvoid, if_pos rfl]
  rw [decode_cons, hrecord, decodeOutcome]
  cases readData readOutcome data <;> rfl

theorem decode_disputeEnded :
    decode ⟨.text disputeEndedSelector :: rest, data⟩ =
      (decodeOutcome data).map .disputeEnded := by
  have hvoid : (Document.text disputeEndedSelector).isVoid ≠ true :=
    ne_true_of_eq_false (isVoid_selector _)
  have hne : Document.text disputeEndedSelector ≠ .text claimReceivedSelector :=
    fun h => selectors_ne.1 (Document.text.inj h)
  have hrecord : decodeRecord (.text disputeEndedSelector) data =
      ((readData readOutcome data).map .disputeEnded).mapError .unreadable := by
    rw [decodeRecord, if_neg hvoid, if_neg hne, if_pos rfl]
  rw [decode_cons, hrecord, decodeOutcome]
  cases readData readOutcome data <;> rfl

theorem decode_newEpoch :
    decode ⟨.text newEpochSelector :: rest, data⟩ =
      (decodeClaim data).map fun claim => .newEpoch (.text claim) := by
  have hvoid : (Document.text newEpochSelector).isVoid ≠ true :=
    ne_true_of_eq_false (isVoid_selector _)
  have hclaim : Document.text newEpochSelector ≠ .text claimReceivedSelector :=
    fun h => selectors_ne.2.1 (Document.text.inj h)
  have hdispute : Document.text newEpochSelector ≠ .text disputeEndedSelector :=
    fun h => selectors_ne.2.2 (Document.text.inj h)
  have hrecord : decodeRecord (.text newEpochSelector) data =
      ((readData readClaim data).map .newEpoch).mapError .unreadable := by
    rw [decodeRecord, if_neg hvoid, if_neg hclaim, if_neg hdispute, if_pos rfl]
  rw [decode_cons, hrecord, decodeClaim]
  cases readData readClaim data <;> rfl

end

/-- A log whose first topic is some text that is no selector. -/
def IsForeign (log : EventLog) : Prop :=
  ∃ s rest, log.topics = .text s :: rest ∧ s ≠ "" ∧ s ∉ selectors

theorem decode_of_isForeign {log : EventLog} (h : log.IsForeign) :
    ∃ selector, decode log = .error (.unknownSelector selector) := by
  obtain ⟨topics, data⟩ := log
  obtain ⟨s, rest, htopics, hs, hselectors⟩ := h
  obtain rfl : topics = .text s :: rest := htopics
  simp only [selectors, List.mem_cons, List.not_mem_nil, or_false, not_or] at hselectors
  obtain ⟨hclaim, hdispute, hepoch⟩ := hselectors
  have hrecord : decodeRecord (.text s) data = .error (.unknownSelector (.text s)) := by
    simp [decodeRecord, Document.isVoid, hs, hclaim, hdispute, hepoch]
  exact ⟨.text s, decode_of_decodeRecord hrecord⟩

/-- Events whose claims have 64 digits. -/
inductive IsFull : Event → Prop
  | claimReceived (o : FullOutcome) : IsFull (.claimReceived o.outcome)
  | disputeEnded (o : FullOutcome) : IsFull (.disputeEnded o.outcome)
  | newEpoch {w : List Hex.Digit} (h : w.length = wordLength) :
      IsFull (.newEpoch (.text (claimOfWord w)))

/-- Text with the digits of a claim is read as the claim in lower case. -/
theorem decodeClaim_of_read? {s : String} {w : List Hex.Digit} (hs : Hex.read? s.toList = some w)
    (h : w.length = wordLength) : decodeClaim (.text s) = .ok (claimOfWord w) := by
  have hsome : w ≠ [] := List.ne_nil_of_length_pos (by rw [h]; decide)
  have hdigits : readDigits s.toList = .ok w := readDigits_of_read? (n := 0) hs h
  have hword : nextWord (Hex.byteSize s.toList) w = .ok (w, []) := by
    rw [← List.append_nil w, nextWord_append _ h, List.append_nil]
  rw [decodeClaim, readData, readText_of_read? hs hsome]
  simp only [bind, Except.bind, hdigits, readClaim, hword]
  rfl

/-- An event whose claims have 64 digits has a log, and reads back from it. -/
theorem exists_log {e : Event} (h : IsFull e) :
    ∃ log, encode e = .ok (some log) ∧ decode log = .ok e := by
  cases h with
  | claimReceived o =>
      refine ⟨⟨[.text claimReceivedSelector], .text (String.ofList (Hex.write o.digits))⟩, ?_, ?_⟩
      · rw [encode, o.outcomeWords_outcome]
        rfl
      · rw [decode_claimReceived]
        exact congrArg _ (o.decodeOutcome_of_read? (read?_claimOfWord o.digits))
  | disputeEnded o =>
      refine ⟨⟨[.text disputeEndedSelector], .text (String.ofList (Hex.write o.digits))⟩, ?_, ?_⟩
      · rw [encode, o.outcomeWords_outcome]
        rfl
      · rw [decode_disputeEnded]
        exact congrArg _ (o.decodeOutcome_of_read? (read?_claimOfWord o.digits))
  | @newEpoch w hw =>
      refine ⟨⟨[.text newEpochSelector], .text (String.ofList (Hex.write w))⟩, ?_, ?_⟩
      · rw [encode, claimWord_of_read? (read?_claimOfWord w) hw, claimOfWord, String.toList_ofList]
        rfl
      · rw [decode_newEpoch]
        exact congrArg _ (decodeClaim_of_read? (read?_claimOfWord w) hw)

end EventLog

end EpochClaims
