import EpochClaims.EpochHash
import EpochClaims.Proofs.Claim.Number
import EpochClaims.Proofs.Hex.Bytes
import EpochClaims.Proofs.Sequence

/-!
# What the claim of an epoch commits to

The claim of an epoch is the digest of 96 bytes, three words of 32 bytes, and each
word is the number that one of the hashes spells. `IsMessage` says so without the
reader. Texts of the same numbers in the same order have the same message, and no
others have (`IsMessage.eq_iff`), so the order of the hashes counts, and neither
letter case nor a zero in front of 63 digits does.
-/

namespace EpochClaims

namespace EpochHashes

/-- Three hashes that were handed in as texts. -/
def ofTexts (output messages machine : String) : EpochHashes :=
  ⟨.text output, .text messages, .text machine⟩

/-- Words of 32 bytes, each of which is the number that a text spells, most
significant byte first. -/
def AreWords : List String → List (List UInt8) → Prop :=
  List.Forall₂ fun s word =>
    ∃ n < 2 ^ 256, Hex.number? s = some n ∧ word.length = 32 ∧ Hex.bigEndian word = n

/-- The words of texts, one behind the other. -/
def IsMessage (texts : List String) (bytes : List UInt8) : Prop :=
  ∃ words, AreWords texts words ∧ bytes = words.flatten

variable {s : String} {ds : List Hex.Digit} {f : Fault} {m m' : List UInt8}
  {texts texts' : List String}

/-! ### One hash -/

theorem isSized_iff : Hex.IsSized 32 s ↔
    ∃ ds, Hex.read? s.toList = some ds ∧ (ds.length = 63 ∨ ds.length = 64) := by
  rw [Hex.isSized_iff]
  exact exists_congr fun ds => and_congr_right fun _ => by omega

theorem word_text_eq_ok_iff :
    word (.text s) = .ok ds ↔
      ∃ es, Hex.read? s.toList = some es ∧ (es.length = 63 ∨ es.length = 64) ∧
        ds = Hex.padLeft 64 es := by
  rw [word]
  cases hsized : Claim.sized? (.text s) with
  | none =>
      simp only [reduceCtorEq, false_iff]
      rintro ⟨es, hread, hsize, -⟩
      have hsome := (@Claim.sized?_text_eq_some_iff s ⟨es, hsize⟩).2 hread
      rw [hsized] at hsome
      contradiction
  | some es =>
      have hread := Claim.sized?_text_eq_some_iff.1 hsized
      simp only [Except.ok.injEq, hread, Option.some.injEq]
      constructor
      · rintro rfl
        exact ⟨es.val, rfl, es.property, rfl⟩
      · rintro ⟨_, rfl, -, rfl⟩
        rfl

/-- Hexadecimal text is read if it has the size of 32 bytes. -/
theorem exists_word_iff : (∃ ds, word (.text s) = .ok ds) ↔ Hex.IsSized 32 s := by
  simp only [word_text_eq_ok_iff, isSized_iff]
  constructor
  · rintro ⟨-, es, hread, hsize, -⟩
    exact ⟨es, hread, hsize⟩
  · rintro ⟨es, hread, hsize⟩
    exact ⟨_, es, hread, hsize, rfl⟩

theorem word_text_eq_error_iff :
    word (.text s) = .error f ↔ ¬ Hex.IsSized 32 s ∧ f = ⟨.text s⟩ := by
  rw [← exists_word_iff, word]
  cases Claim.sized? (.text s) <;> simp [eq_comm]

/-- The digits of a word, and the number that it is. -/
theorem length_of_word (h : word (.text s) = .ok ds) : ds.length = 64 := by
  obtain ⟨es, -, hsize, rfl⟩ := word_text_eq_ok_iff.1 h
  rw [Hex.padLeft, List.length_append, List.length_replicate]
  omega

theorem number?_of_word (h : word (.text s) = .ok ds) :
    ∃ n < 2 ^ 256, Hex.number? s = some n ∧ (Hex.toBytes ds).length = 32 ∧
      Hex.bigEndian (Hex.toBytes ds) = n := by
  have hlength := length_of_word h
  have hbytes : (Hex.toBytes ds).length = 32 := by rw [Hex.length_toBytes, hlength]
  have hvalue := @Hex.bigEndian_toBytes ds (by rw [hlength])
  obtain ⟨es, hread, -, rfl⟩ := word_text_eq_ok_iff.1 h
  have hlt := Hex.bigEndian_lt (Hex.toBytes (Hex.padLeft 64 es))
  rw [hbytes, hvalue, Hex.value_padLeft] at hlt
  exact ⟨Hex.value es, hlt, Hex.number?_of_read? hread, hbytes, by rw [hvalue, Hex.value_padLeft]⟩

/-! ### Hashes in sequence -/

/-- The digits of hashes, up to the first one that cannot be read. -/
def words (texts : List String) : Except Fault (List (List Hex.Digit)) :=
  texts.mapM fun s => word (.text s)

theorem exists_words_iff : (∃ ws, words texts = .ok ws) ↔ ∀ s ∈ texts, Hex.IsSized 32 s := by
  rw [words, exists_mapM_eq_ok_iff]
  exact forall₂_congr fun _ _ => exists_word_iff

theorem words_eq_error_iff :
    words texts = .error f ↔ ∃ before s after, texts = before ++ s :: after ∧
      (∀ t ∈ before, Hex.IsSized 32 t) ∧ ¬ Hex.IsSized 32 s ∧ f = ⟨.text s⟩ := by
  simp only [words, mapM_eq_error_iff, exists_word_iff, word_text_eq_error_iff]

/-- The bytes of digits that make up words are the bytes of these words. -/
theorem toBytes_flatten {ws : List (List Hex.Digit)} (h : ∀ w ∈ ws, w.length = 64) :
    Hex.toBytes ws.flatten = (ws.map Hex.toBytes).flatten := by
  induction ws with
  | nil => rfl
  | cons w ws ih =>
      rw [List.forall_mem_cons] at h
      rw [List.flatten_cons, Hex.toBytes_append (by rw [h.1]), ih h.2, List.map_cons,
        List.flatten_cons]

theorem length_of_words {ws : List (List Hex.Digit)} (h : words texts = .ok ws) :
    ∀ w ∈ ws, w.length = 64 := by
  rw [words, mapM_eq_ok_iff] at h
  induction h with
  | nil => exact List.forall_mem_nil _
  | cons hword _ ih => exact List.forall_mem_cons.2 ⟨length_of_word hword, ih⟩

theorem isMessage_of_words {ws : List (List Hex.Digit)} (h : words texts = .ok ws) :
    IsMessage texts (Hex.toBytes ws.flatten) := by
  refine ⟨ws.map Hex.toBytes, ?_, toBytes_flatten (length_of_words h)⟩
  rw [words, mapM_eq_ok_iff] at h
  rw [AreWords, List.forall₂_map_right_iff]
  exact h.imp fun _ _ hword => number?_of_word hword

/-! ### Messages -/

theorem IsMessage.length_eq (h : IsMessage texts m) : m.length = 32 * texts.length := by
  obtain ⟨words, hwords, rfl⟩ := h
  induction hwords with
  | nil => rfl
  | cons hword _ ih =>
      obtain ⟨n, -, -, hlength, -⟩ := hword
      rw [List.flatten_cons, List.length_append, ih, hlength, List.length_cons]
      omega

/-- Messages of equally many texts are equal if the texts spell the same numbers in
the same order. -/
theorem IsMessage.eq_iff (h : IsMessage texts m) (h' : IsMessage texts' m')
    (hlength : texts.length = texts'.length) :
    m = m' ↔ texts.map Hex.number? = texts'.map Hex.number? := by
  obtain ⟨words, hwords, rfl⟩ := h
  obtain ⟨words', hwords', rfl⟩ := h'
  induction hwords generalizing texts' words' with
  | nil =>
      obtain rfl := List.length_eq_zero_iff.1 hlength.symm
      cases hwords'
      exact iff_of_true rfl rfl
  | cons hword _ ih =>
      cases hwords' with
      | nil => contradiction
      | cons hword' hrest' =>
          obtain ⟨n, -, hnumber, hsize, rfl⟩ := hword
          obtain ⟨n', -, hnumber', hsize', rfl⟩ := hword'
          rw [List.map_cons, List.map_cons, List.cons.injEq, ← ih (Nat.succ.inj hlength) _ hrest',
            hnumber, hnumber', Option.some.injEq, List.flatten_cons, List.flatten_cons]
          have hsizes := hsize.trans hsize'.symm
          constructor
          · intro h
            obtain ⟨hfirst, hrest⟩ := List.append_inj h hsizes
            exact ⟨congrArg Hex.bigEndian hfirst, hrest⟩
          · rintro ⟨hfirst, hrest⟩
            rw [Hex.bigEndian_injective hsizes hfirst, hrest]

/-! ### The claim of three texts -/

section OfTexts

variable {a b c a' b' c' : String}

theorem message_ofTexts (a b c : String) :
    message (ofTexts a b c) = (words [a, b, c]).map fun ws => Hex.toBytes ws.flatten := by
  rw [message, ofTexts, words, List.mapM_cons, List.mapM_cons, List.mapM_cons, List.mapM_nil]
  cases word (.text a) with
  | error f => rfl
  | ok output =>
      cases word (.text b) with
      | error f => rfl
      | ok messages =>
          cases word (.text c) with
          | error f => rfl
          | ok machine =>
              have hflatten :
                  [output, messages, machine].flatten = output ++ messages ++ machine := by
                simp
              exact congrArg (fun ds => Except.ok (Hex.toBytes ds)) hflatten.symm

theorem message_eq_ok_iff :
    message (ofTexts a b c) = .ok m ↔
      (∀ s ∈ [a, b, c], Hex.IsSized 32 s) ∧ IsMessage [a, b, c] m := by
  rw [message_ofTexts, map_eq_ok_iff]
  constructor
  · rintro ⟨ws, hws, rfl⟩
    exact ⟨exists_words_iff.1 ⟨ws, hws⟩, isMessage_of_words hws⟩
  · rintro ⟨hsized, hm⟩
    obtain ⟨ws, hws⟩ := exists_words_iff.2 hsized
    exact ⟨ws, hws, ((isMessage_of_words hws).eq_iff hm rfl).2 rfl⟩

theorem exists_message_iff :
    (∃ m, message (ofTexts a b c) = .ok m) ↔ ∀ s ∈ [a, b, c], Hex.IsSized 32 s := by
  rw [message_ofTexts, exists_map_eq_ok_iff, exists_words_iff]

/-- Of three other texts that can be read, the message is the same if each of them
spells the same number. -/
theorem message_eq_ok_iff_of_message (h : message (ofTexts a b c) = .ok m)
    (hsized : ∀ s ∈ [a', b', c'], Hex.IsSized 32 s) :
    message (ofTexts a' b' c') = .ok m ↔
      Hex.number? a = Hex.number? a' ∧ Hex.number? b = Hex.number? b' ∧
        Hex.number? c = Hex.number? c' := by
  obtain ⟨m', h'⟩ := exists_message_iff.2 hsized
  have heq := (message_eq_ok_iff.1 h).2.eq_iff (message_eq_ok_iff.1 h').2 rfl
  rw [h', Except.ok.injEq, eq_comm, heq]
  simp

theorem number?_eq_of_lowered_eq (h : Hex.lowered a = Hex.lowered a') :
    Hex.number? a = Hex.number? a' := by
  rw [Hex.number?, Hex.number?, ← Hex.read?_lowered a, h, Hex.read?_lowered]

theorem isSized_of_lowered_eq (h : Hex.lowered a = Hex.lowered a') (ha : Hex.IsSized 32 a) :
    Hex.IsSized 32 a' := by
  rwa [Hex.isSized_iff, ← Hex.read?_lowered, ← h, Hex.read?_lowered, ← Hex.isSized_iff]

theorem claimText_eq_error_iff :
    claimText (ofTexts a b c) = .error f ↔ words [a, b, c] = .error f := by
  rw [claimText, bind_eq_error_iff, message_ofTexts, map_eq_error_iff]
  simp [pure, Except.pure]

theorem claimText_of_message (h : message (ofTexts a b c) = .ok m) :
    claimText (ofTexts a b c) =
      .ok (String.ofList (Hex.write (Hex.ofBytes (Keccak.digest m)))) := by
  rw [claimText, h]
  rfl

/-- The claim of an epoch can be sent as a claim, unless all its digits are zero. -/
theorem ofArgument_claimText {h : EpochHashes} {s : String} (hs : h.claimText = .ok s)
    (hsome : s ≠ Claim.noneText) :
    ∃ claim, Claim.ofArgument (.text s) = .ok claim ∧ claim.text = s := by
  obtain ⟨m, -, hm⟩ := bind_eq_ok_iff.1 hs
  have hsize : (Hex.ofBytes (Keccak.digest m)).length = 64 := by
    rw [Hex.length_ofBytes, Keccak.length_digest]
  generalize Hex.ofBytes (Keccak.digest m) = ds at hm hsize
  obtain rfl := Except.ok.inj hm
  have hdigits : ds ≠ noneDigits := by
    rintro rfl
    exact hsome rfl
  exact ⟨_, Claim.ofArgument_text ⟨ds, .inr hsize, hdigits⟩, rfl⟩

/-- The claim of three texts is refused with the first of them, in their order, that is
not hexadecimal text of the size of 32 bytes. Without such a text it is the digest of
96 bytes: the words of the three numbers that the texts spell, each below `2 ^ 256`.
So two triples have the same message if and only if they spell the same numbers one
by one. Letter case does not change the message, and an exchange of two texts does
unless they spell the same number. -/
theorem claim_commits_to_numbers (a b c : String) :
    (∀ f, claimText (ofTexts a b c) = .error f ↔
        ∃ before s after, [a, b, c] = before ++ s :: after ∧
          (∀ t ∈ before, Hex.IsSized 32 t) ∧ ¬ Hex.IsSized 32 s ∧ f = ⟨.text s⟩) ∧
      (∀ f : Fault, f.report.kind = "InvalidClaimError" ∧
        f.report.details.lookup "claim" = some f.given) ∧
      ((∀ s ∈ [a, b, c], Hex.IsSized 32 s) →
        ∃ m, message (ofTexts a b c) = .ok m ∧ IsMessage [a, b, c] m ∧ m.length = 96 ∧
          claimText (ofTexts a b c) =
            .ok (String.ofList (Hex.write (Hex.ofBytes (Keccak.digest m))))) ∧
      (∀ a' b' c' m m', message (ofTexts a b c) = .ok m → message (ofTexts a' b' c') = .ok m' →
        (m = m' ↔ Hex.number? a = Hex.number? a' ∧ Hex.number? b = Hex.number? b' ∧
          Hex.number? c = Hex.number? c')) ∧
      ∀ m, message (ofTexts a b c) = .ok m →
        (∀ a' b' c', Hex.lowered a = Hex.lowered a' → Hex.lowered b = Hex.lowered b' →
          Hex.lowered c = Hex.lowered c' → message (ofTexts a' b' c') = .ok m) ∧
        (message (ofTexts b a c) = .ok m ↔ Hex.number? a = Hex.number? b) ∧
        (message (ofTexts a c b) = .ok m ↔ Hex.number? b = Hex.number? c) ∧
        (message (ofTexts c b a) = .ok m ↔ Hex.number? a = Hex.number? c) := by
  refine ⟨fun f => claimText_eq_error_iff.trans words_eq_error_iff, fun f => ⟨rfl, rfl⟩, ?_, ?_, ?_⟩
  · intro hsized
    obtain ⟨m, h⟩ := exists_message_iff.2 hsized
    have hm := (message_eq_ok_iff.1 h).2
    exact ⟨m, h, hm, hm.length_eq, claimText_of_message h⟩
  · intro a' b' c' m m' h h'
    rw [← message_eq_ok_iff_of_message h (message_eq_ok_iff.1 h').1, h', Except.ok.injEq, eq_comm]
  · intro m h
    have hsized := (message_eq_ok_iff.1 h).1
    have ha := hsized a (by simp)
    have hb := hsized b (by simp)
    have hc := hsized c (by simp)
    refine ⟨fun a' b' c' ha' hb' hc' => ?_, ?_, ?_, ?_⟩
    · rw [message_eq_ok_iff_of_message h (by
        simp [isSized_of_lowered_eq ha' ha, isSized_of_lowered_eq hb' hb,
          isSized_of_lowered_eq hc' hc])]
      exact ⟨number?_eq_of_lowered_eq ha', number?_eq_of_lowered_eq hb',
        number?_eq_of_lowered_eq hc'⟩
    · rw [message_eq_ok_iff_of_message h (by simp [ha, hb, hc])]
      exact ⟨fun h => h.1, fun h => ⟨h, h.symm, rfl⟩⟩
    · rw [message_eq_ok_iff_of_message h (by simp [ha, hb, hc])]
      exact ⟨fun h => h.2.1, fun h => ⟨rfl, h, h.symm⟩⟩
    · rw [message_eq_ok_iff_of_message h (by simp [ha, hb, hc])]
      exact ⟨fun h => h.1, fun h => ⟨h, rfl, h.symm⟩⟩

end OfTexts

/-- A hash of 63 digits, one in capital letters and the empty one: letter case does not
change the message, and an exchange of the first two does. -/
theorem claim_commits_to_numbers_capitals :
    ∃ m, message (ofTexts (Hex.uniform 63 '1') (Hex.uniform 64 'A') (Hex.uniform 64 '0')) =
        .ok m ∧
      m.length = 96 ∧
      message (ofTexts (Hex.uniform 63 '1') (Hex.uniform 64 'a') (Hex.uniform 64 '0')) =
        .ok m ∧
      message (ofTexts (Hex.uniform 64 'A') (Hex.uniform 63 '1') (Hex.uniform 64 '0')) ≠
        .ok m := by
  have hshort : Hex.read? (Hex.uniform 63 '1').toList = some (List.replicate 63 1) := by
    decide +kernel
  have hcapital : Hex.read? (Hex.uniform 64 'A').toList = some (List.replicate 64 10) := by
    decide +kernel
  have hzero : Hex.read? (Hex.uniform 64 '0').toList = some (List.replicate 64 0) := by
    decide +kernel
  have hsized : ∀ s ∈ [Hex.uniform 63 '1', Hex.uniform 64 'A', Hex.uniform 64 '0'],
      Hex.IsSized 32 s := by
    simp only [List.forall_mem_cons, Hex.isSized_iff]
    exact ⟨⟨_, hshort, by decide⟩, ⟨_, hcapital, by decide⟩, ⟨_, hzero, by decide⟩,
      List.forall_mem_nil _⟩
  obtain ⟨-, -, hread, -, hsame⟩ := claim_commits_to_numbers (Hex.uniform 63 '1')
    (Hex.uniform 64 'A') (Hex.uniform 64 '0')
  obtain ⟨m, hm, -, hlength, -⟩ := hread hsized
  obtain ⟨hcase, hswap, -⟩ := hsame m hm
  refine ⟨m, hm, hlength, hcase _ _ _ rfl (by decide +kernel) rfl, fun h => ?_⟩
  have hnumbers := hswap.1 h
  rw [Hex.number?_of_read? hshort, Hex.number?_of_read? hcapital] at hnumbers
  exact absurd hnumbers (by decide +kernel)

end EpochHashes

end EpochClaims
