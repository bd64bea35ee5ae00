import EpochClaims.Proofs.EventLog.RoundTrip
import EpochClaims.Proofs.Hex.Number
import EpochClaims.Proofs.Sequence

/-!
# What the data of a log carries

Data is read in stages, and some of them look at its text, some at its digits.
What they have in common is the digits that the data carries (`Carries`): behind
the first two units, in pairs, whatever the rest of the text is. The faults of
the stages in front matter only where no whole word is carried
(`exists_read_eq`). So an event can be read if and only if the digits are
`Legible` for the selector, that is if they make up the words it needs and the
word of a result is a code (`exists_decode_iff`), and it depends on these words
only (`decode_eq_of_take`).
-/

namespace EpochClaims

theorem ClaimResult.exists_ofCode?_iff {n : Nat} : (∃ r, ofCode? n = some r) ↔ n ≤ 2 := by
  rw [ofCode?, ← Option.isSome_iff_exists, isSome_getElem?]
  exact Nat.lt_succ_iff

namespace EventLog

/-! ### The digits of some data -/

theorem length_payload (s : List Char) :
    (payload s).length = 2 * ((Text.length16 s - 2 + 1) / 2) := by
  rw [payload, Text.length16]
  by_cases h : ((Text.units s).drop 2).length % 2 = 1
  · rw [if_pos h, List.length_cons]
    rw [List.length_drop] at h ⊢
    omega
  · rw [if_neg h]
    rw [List.length_drop] at h ⊢
    omega

theorem length_of_readPairs {us : List Nat} {ds : List Hex.Digit} (h : readPairs us = .ok ds) :
    ds.length = 2 * (us.length / 2) := by
  fun_induction readPairs us generalizing ds with
  | case1 u v us d e hd he ih =>
      obtain ⟨es, hes, rfl⟩ := map_eq_ok_iff.1 h
      rw [List.length_cons, List.length_cons, ih hes, List.length_cons, List.length_cons]
      omega
  | case2 u v us hno => contradiction
  | case3 us hshort =>
      obtain rfl := Except.ok.inj h
      match us, hshort with
      | [], _ => rfl
      | [_], _ => simp
      | u :: v :: us, hshort => exact absurd rfl (hshort u v us)

/-- Data in which the given digits stand, in pairs behind the first two units of
a text. -/
def Carries (data : Argument) (ds : List Hex.Digit) : Prop :=
  ∃ s, data = .text s ∧ readPairs (payload s.toList) = .ok ds

theorem Carries.unique {data : Argument} {ds es : List Hex.Digit} (h : Carries data ds)
    (h' : Carries data es) : ds = es := by
  obtain ⟨s, rfl, hs⟩ := h
  obtain ⟨t, ht, hes⟩ := h'
  cases ht
  exact Except.ok.inj (hs.symm.trans hes)

/-- Hexadecimal text of whole bytes carries its digits. -/
theorem carries_of_read? {s : String} {ds : List Hex.Digit} {size : Nat}
    (hs : Hex.read? s.toList = some ds) (h : ds.length = 2 * size) : Carries (.text s) ds := by
  obtain ⟨body, hbody, hdigits⟩ := Hex.read?_eq_some_iff.1 hs
  refine ⟨s, rfl, ?_⟩
  rw [hbody, payload_of_digits? hdigits (by omega), readPairs_of_digits? size hdigits h]

/-- No text carries more bytes than its size. -/
theorem length_le_byteSize {s : List Char} {ds : List Hex.Digit}
    (h : readPairs (payload s) = .ok ds) : ds.length ≤ 2 * Hex.byteSize s := by
  rw [length_of_readPairs h, length_payload, Hex.byteSize]
  cases hmark : Hex.unmark? s with
  | none => simp only; omega
  | some body =>
      obtain rfl := Hex.unmark?_eq_some_iff.1 hmark
      have hlength : Text.length16 ('0' :: 'x' :: body) = Text.length16 body + 2 := rfl
      simp only [hlength]
      omega

theorem readText_eq_ok_iff {data : Argument} {cs : List Char} :
    readText data = .ok cs ↔ ∃ s, data = .text s ∧ s ≠ "" ∧ s ≠ "0x" ∧ s.toList = cs := by
  unfold readText
  split
  · next s =>
    by_cases hs : s = "" ∨ s = "0x"
    · rw [if_pos hs]
      simp only [reduceCtorEq, false_iff]
      rintro ⟨t, ht, hempty, hmarker, -⟩
      cases ht
      exact hs.elim hempty hmarker
    · rw [if_neg hs]
      rw [not_or] at hs
      constructor
      · intro h
        exact ⟨s, rfl, hs.1, hs.2, Except.ok.inj h⟩
      · rintro ⟨t, ht, -, -, rfl⟩
        cases ht
        rfl
  · next hother =>
    simp only [reduceCtorEq, false_iff]
    rintro ⟨s, rfl, -⟩
    exact hother s rfl

theorem readDigits_eq_ok_iff {s : List Char} {ds : List Hex.Digit} :
    readDigits s = .ok ds ↔ readPairs (payload s) = .ok ds ∧ ds ≠ [] ∧ 32 ≤ Hex.byteSize s := by
  rw [readDigits]
  cases readPairs (payload s) with
  | error pair => simp
  | ok es =>
      simp only [Except.ok.injEq]
      by_cases hsome : es = []
      · rw [if_pos hsome]
        simp only [reduceCtorEq, false_iff]
        rintro ⟨rfl, hne, -⟩
        exact hne hsome
      · by_cases hsize : Hex.byteSize s < 32
        · rw [if_neg hsome, if_pos hsize]
          simp only [reduceCtorEq, false_iff]
          rintro ⟨-, -, hle⟩
          omega
        · rw [if_neg hsome, if_neg hsize, Except.ok.injEq]
          constructor
          · rintro rfl
            exact ⟨rfl, hsome, Nat.le_of_not_lt hsize⟩
          · exact fun h => h.1

section

variable {β : Type} {data : Argument} {ds : List Hex.Digit} {v : β}
  {f : Nat → List Hex.Digit → Except DataFault β}

/-- Where the data carries a word, the text of the data has the size of one, so
that nothing but the words behind it can be at fault. -/
theorem exists_read_eq (h : Carries data ds) (hword : wordLength ≤ ds.length) :
    ∃ size, readData f data = f size ds := by
  obtain ⟨s, rfl, hpairs⟩ := h
  have hsize := length_le_byteSize hpairs
  rw [wordLength] at hword
  have hempty : s ≠ "" := by
    rintro rfl
    obtain rfl := Except.ok.inj hpairs
    contradiction
  have hmarker : s ≠ "0x" := by
    rintro rfl
    obtain rfl := Except.ok.inj hpairs
    contradiction
  have hsome : ds ≠ [] := List.ne_nil_of_length_pos (by omega)
  have htext : readText (.text s) = .ok s.toList :=
    readText_eq_ok_iff.2 ⟨s, rfl, hempty, hmarker, rfl⟩
  have hdigits : readDigits s.toList = .ok ds :=
    readDigits_eq_ok_iff.2 ⟨hpairs, hsome, by omega⟩
  refine ⟨Hex.byteSize s.toList, ?_⟩
  rw [readData, htext]
  simp only [bind, Except.bind, hdigits]

theorem exists_carries_of_read_eq_ok
    (h : readData f data = .ok v) :
    ∃ size ds, Carries data ds ∧ f size ds = .ok v := by
  obtain ⟨_, htext, h⟩ := bind_eq_ok_iff.1 h
  obtain ⟨ds, hdigits, hread⟩ := bind_eq_ok_iff.1 h
  obtain ⟨s, hs, -, -, rfl⟩ := readText_eq_ok_iff.1 htext
  exact ⟨_, ds, ⟨s, hs, (readDigits_eq_ok_iff.1 hdigits).1⟩, hread⟩

end

/-! ### The words of some data -/

/-- The word at a place among digits. -/
def wordAt (ds : List Hex.Digit) (i : Nat) : List Hex.Digit :=
  (ds.drop (wordLength * i)).take wordLength

theorem wordAt_take {n i : Nat} (h : i < n) (ds : List Hex.Digit) :
    wordAt (ds.take (wordLength * n)) i = wordAt ds i := by
  have hle : wordLength ≤ wordLength * n - wordLength * i := by
    rw [← Nat.mul_sub]
    exact Nat.le_mul_of_pos_right _ (by omega)
  rw [wordAt, wordAt, List.drop_take, List.take_take, Nat.min_eq_left hle]

theorem nextWord_eq_ok_iff {size : Nat} {ds : List Hex.Digit}
    {r : List Hex.Digit × List Hex.Digit} :
    nextWord size ds = .ok r ↔
      wordLength ≤ ds.length ∧ r = (ds.take wordLength, ds.drop wordLength) := by
  rw [nextWord, nextWord?, wordLength]
  by_cases h : 64 ≤ ds.length
  · simp [h, eq_comm]
  · simp [h]

theorem nextWord_drop {size i : Nat} {ds : List Hex.Digit}
    (h : wordLength * (i + 1) ≤ ds.length) :
    nextWord size (ds.drop (wordLength * i)) =
      .ok (wordAt ds i, ds.drop (wordLength * (i + 1))) := by
  rw [nextWord_eq_ok_iff, List.length_drop, List.drop_drop]
  exact ⟨by rw [Nat.mul_succ] at h; omega, rfl⟩

/-- The outcome that the first five words say, if the first one is a code. -/
def outcomeIn (ds : List Hex.Digit) : Except DecodingFault Outcome :=
  let code := Hex.value (wordAt ds 0)
  if greatestExact < code then .error (.malformed (.inexactCode code))
  else OutcomeRecord.outcome ⟨code, [claimOfWord (wordAt ds 1), claimOfWord (wordAt ds 2)],
    [addressOfWord (wordAt ds 3), addressOfWord (wordAt ds 4)]⟩

theorem outcomeIn_take (ds : List Hex.Digit) :
    outcomeIn (ds.take (wordLength * 5)) = outcomeIn ds := by
  have hword : ∀ i < 5, wordAt (ds.take (wordLength * 5)) i = wordAt ds i :=
    fun i hi => wordAt_take hi ds
  rw [outcomeIn, outcomeIn, hword 0 (by decide), hword 1 (by decide), hword 2 (by decide),
    hword 3 (by decide), hword 4 (by decide)]

theorem exists_outcomeIn_iff {ds : List Hex.Digit} :
    (∃ o, outcomeIn ds = .ok o) ↔ Hex.value (wordAt ds 0) ≤ 2 := by
  have hsmall : 2 ≤ greatestExact := by decide
  rw [← ClaimResult.exists_ofCode?_iff, outcomeIn]
  by_cases hexact : greatestExact < Hex.value (wordAt ds 0)
  · simp only [if_pos hexact]
    have : ¬ Hex.value (wordAt ds 0) ≤ 2 := by omega
    simp [ClaimResult.exists_ofCode?_iff, this]
  · simp only [if_neg hexact, OutcomeRecord.outcome]
    cases ClaimResult.ofCode? (Hex.value (wordAt ds 0)) <;> simp

theorem readOutcome_of_le {size : Nat} {ds : List Hex.Digit} (h : wordLength * 5 ≤ ds.length) :
    readOutcome size ds =
      if greatestExact < Hex.value (wordAt ds 0) then
        .error (.inexactCode (Hex.value (wordAt ds 0)))
      else .ok ⟨Hex.value (wordAt ds 0), [claimOfWord (wordAt ds 1), claimOfWord (wordAt ds 2)],
        [addressOfWord (wordAt ds 3), addressOfWord (wordAt ds 4)]⟩ := by
  have hnext : ∀ i < 5, nextWord size (ds.drop (wordLength * i)) =
      .ok (wordAt ds i, ds.drop (wordLength * (i + 1))) :=
    fun i hi => nextWord_drop (Nat.le_trans (Nat.mul_le_mul_left _ hi) h)
  have hfirst : nextWord size ds = .ok (wordAt ds 0, ds.drop (wordLength * 1)) :=
    hnext 0 (by decide)
  rw [readOutcome, hfirst]
  simp only [bind, Except.bind, hnext 1 (by decide), hnext 2 (by decide), hnext 3 (by decide),
    hnext 4 (by decide)]
  by_cases hexact : greatestExact < Hex.value (wordAt ds 0)
  · rw [if_pos hexact, if_pos hexact]
    rfl
  · rw [if_neg hexact, if_neg hexact]
    rfl

theorem le_of_readOutcome_eq_ok {size : Nat} {ds : List Hex.Digit}
    {v : OutcomeRecord} (h : readOutcome size ds = .ok v) :
    wordLength * 5 ≤ ds.length := by
  have hnext : ∀ {es : List Hex.Digit} {r}, nextWord size es = .ok r →
      wordLength ≤ es.length ∧ r.2.length = es.length - wordLength := by
    intro es r hr
    obtain ⟨hle, rfl⟩ := nextWord_eq_ok_iff.1 hr
    exact ⟨hle, List.length_drop ..⟩
  obtain ⟨r₀, h₀, h⟩ := bind_eq_ok_iff.1 h
  simp only at h
  split at h
  · contradiction
  obtain ⟨r₁, h₁, h⟩ := bind_eq_ok_iff.1 h
  obtain ⟨r₂, h₂, h⟩ := bind_eq_ok_iff.1 h
  obtain ⟨r₃, h₃, h⟩ := bind_eq_ok_iff.1 h
  obtain ⟨r₄, h₄, -⟩ := bind_eq_ok_iff.1 h
  have := hnext h₀
  have := hnext h₁
  have := hnext h₂
  have := hnext h₃
  have := hnext h₄
  rw [wordLength] at *
  omega

/-! ### Outcomes and claims -/

section

variable {data : Argument} {ds : List Hex.Digit}

theorem decodeOutcome_of_carries (h : Carries data ds) (hlength : wordLength * 5 ≤ ds.length) :
    decodeOutcome data = outcomeIn ds := by
  have hword : wordLength ≤ ds.length := Nat.le_trans (by decide) hlength
  obtain ⟨size, hread⟩ := exists_read_eq (f := readOutcome) h hword
  rw [decodeOutcome, hread, readOutcome_of_le hlength, outcomeIn]
  by_cases hexact : greatestExact < Hex.value (wordAt ds 0)
  · simp only [if_pos hexact]
  · simp only [if_neg hexact]

theorem exists_carries_of_decodeOutcome {o : Outcome} (h : decodeOutcome data = .ok o) :
    ∃ ds, Carries data ds ∧ wordLength * 5 ≤ ds.length := by
  rw [decodeOutcome] at h
  split at h
  · contradiction
  · next hread =>
    obtain ⟨_, ds, hcarries, hds⟩ := exists_carries_of_read_eq_ok (f := readOutcome) hread
    exact ⟨ds, hcarries, le_of_readOutcome_eq_ok hds⟩

theorem decodeClaim_of_carries (h : Carries data ds) (hlength : wordLength ≤ ds.length) :
    decodeClaim data = .ok (claimOfWord (wordAt ds 0)) := by
  obtain ⟨size, hread⟩ := exists_read_eq (f := readClaim) h hlength
  rw [decodeClaim, hread, readClaim, nextWord_eq_ok_iff.2 ⟨hlength, rfl⟩]
  rfl

theorem exists_carries_of_decodeClaim {claim : String} (h : decodeClaim data = .ok claim) :
    ∃ ds, Carries data ds ∧ wordLength ≤ ds.length := by
  rw [decodeClaim] at h
  split at h
  · contradiction
  · next hread =>
    obtain ⟨_, ds, hcarries, hds⟩ := exists_carries_of_read_eq_ok (f := readClaim) hread
    obtain ⟨_, hword, -⟩ := map_eq_ok_iff.1 hds
    exact ⟨ds, hcarries, (nextWord_eq_ok_iff.1 hword).1⟩

end

/-! ### Logs of known selectors -/

/-- The number of words that the logs of a selector need. -/
inductive Needs : String → Nat → Prop
  | claimReceived : Needs claimReceivedSelector 5
  | disputeEnded : Needs disputeEndedSelector 5
  | newEpoch : Needs newEpochSelector 1

/-- Digits that an event can be read from: the words that its selector needs are
there and, unless it closes an epoch, the first one is the code of a result. -/
structure Legible (selector : String) (n : Nat) (ds : List Hex.Digit) : Prop where
  length_le : wordLength * n ≤ ds.length
  code_le : selector ≠ newEpochSelector → Hex.value (wordAt ds 0) ≤ 2

section

variable {selector : String} {n : Nat} {data : Argument}

theorem exists_decodeOutcome_iff :
    (∃ o, decodeOutcome data = .ok o) ↔
      ∃ ds, Carries data ds ∧ wordLength * 5 ≤ ds.length ∧ Hex.value (wordAt ds 0) ≤ 2 := by
  constructor
  · rintro ⟨o, ho⟩
    obtain ⟨ds, hcarries, hlength⟩ := exists_carries_of_decodeOutcome ho
    refine ⟨ds, hcarries, hlength, exists_outcomeIn_iff.1 ⟨o, ?_⟩⟩
    rw [← decodeOutcome_of_carries hcarries hlength, ho]
  · rintro ⟨ds, hcarries, hlength, hcode⟩
    obtain ⟨o, ho⟩ := exists_outcomeIn_iff.2 hcode
    exact ⟨o, (decodeOutcome_of_carries hcarries hlength).trans ho⟩

/-- A log of a known selector is read if and only if its data carries digits
that are legible for it. -/
theorem exists_decode_iff (h : Needs selector n) (rest : List Document) :
    (∃ e, decode ⟨.text selector :: rest, data⟩ = .ok e) ↔
      ∃ ds, Carries data ds ∧ Legible selector n ds := by
  have houtcome : ∀ {selector}, selector ≠ newEpochSelector →
      ((∃ o, decodeOutcome data = .ok o) ↔ ∃ ds, Carries data ds ∧ Legible selector 5 ds) := by
    intro selector hne
    rw [exists_decodeOutcome_iff]
    exact exists_congr fun ds => and_congr_right fun _ =>
      ⟨fun ⟨hlength, hcode⟩ => ⟨hlength, fun _ => hcode⟩, fun h => ⟨h.length_le, h.code_le hne⟩⟩
  cases h with
  | claimReceived =>
      rw [decode_claimReceived, exists_map_eq_ok_iff, houtcome selectors_ne.2.1.symm]
  | disputeEnded =>
      rw [decode_disputeEnded, exists_map_eq_ok_iff, houtcome selectors_ne.2.2.symm]
  | newEpoch =>
      rw [decode_newEpoch, exists_map_eq_ok_iff]
      constructor
      · rintro ⟨claim, hclaim⟩
        obtain ⟨ds, hcarries, hlength⟩ := exists_carries_of_decodeClaim hclaim
        exact ⟨ds, hcarries, hlength, fun hne => absurd rfl hne⟩
      · rintro ⟨ds, hcarries, hlegible⟩
        exact ⟨_, decodeClaim_of_carries hcarries hlegible.length_le⟩

/-- Digits behind the words that a selector needs are ignored. -/
theorem decode_eq_of_take (h : Needs selector n) (rest : List Document) {data' : Argument}
    {ds : List Hex.Digit} (hdata : Carries data ds)
    (hdata' : Carries data' (ds.take (wordLength * n))) (hlength : wordLength * n ≤ ds.length) :
    decode ⟨.text selector :: rest, data⟩ = decode ⟨.text selector :: rest, data'⟩ := by
  have htake : wordLength * n ≤ (ds.take (wordLength * n)).length := by
    exact Nat.le_of_eq (List.length_take_of_le hlength).symm
  cases h with
  | claimReceived =>
      rw [decode_claimReceived, decode_claimReceived, decodeOutcome_of_carries hdata hlength,
        decodeOutcome_of_carries hdata' htake, outcomeIn_take]
  | disputeEnded =>
      rw [decode_disputeEnded, decode_disputeEnded, decodeOutcome_of_carries hdata hlength,
        decodeOutcome_of_carries hdata' htake, outcomeIn_take]
  | newEpoch =>
      rw [decode_newEpoch, decode_newEpoch, decodeClaim_of_carries hdata hlength,
        decodeClaim_of_carries hdata' htake, wordAt_take Nat.one_pos]

end

end EventLog

end EpochClaims
