import EpochClaims.Text.Blank
import Mathlib.Data.List.DropRight

/-!
# Entries among blank characters and commas

`trim` takes the blank characters around a text away and nothing else: an entry
comes back from among any number of them (`trim_pad`), and every text is its
trimmed form among blank characters (`exists_pad`). `Writes texts pieces` says
that the pieces write down the texts in order, each among blank characters, with
any number of blank pieces between them. What pieces without commas write down
are the entries of the list that is made by joining them with commas
(`entries_of_writes`), and every list of pieces writes some entries down
(`exists_writes`).
-/

namespace EpochClaims

namespace Text

/-- A text of blank characters only. -/
def IsBlank (s : String) : Prop :=
  ∀ c ∈ s.toList, isBlank c = true

instance (s : String) : Decidable (IsBlank s) :=
  List.decidableBAll (fun c => isBlank c = true) s.toList

theorem isBlank_ofList {s : List Char} :
    IsBlank (String.ofList s) ↔ ∀ c ∈ s, isBlank c = true := by
  rw [IsBlank, String.toList_ofList]

/-- A text that begins and ends with a character that is not blank. -/
structure IsEntry (s : String) : Prop where
  ne_empty : s ≠ ""
  head : ∀ c ∈ s.toList.head?, isBlank c = false
  last : ∀ c ∈ s.toList.getLast?, isBlank c = false

/-- Pieces that write down texts in order. Each piece is blank or the next text
among blank characters. -/
inductive Writes : List String → List String → Prop where
  | nil : Writes [] []
  | blank {texts pieces : List String} {piece : String} (hpiece : IsBlank piece)
      (rest : Writes texts pieces) : Writes texts (piece :: pieces)
  | entry {texts pieces : List String} {before text after : String} (hbefore : IsBlank before)
      (hafter : IsBlank after) (rest : Writes texts pieces) :
      Writes (text :: texts) ((before ++ text ++ after) :: pieces)

theorem IsEntry.of_forall {s : String} (hne : s ≠ "") (h : ∀ c ∈ s.toList, isBlank c = false) :
    IsEntry s where
  ne_empty := hne
  head := fun c hc => h c (List.mem_of_mem_head? hc)
  last := fun c hc => h c (List.mem_of_mem_getLast? hc)

theorem IsBlank.comma_notMem {s : String} (h : IsBlank s) : ',' ∉ s.toList :=
  fun hc => absurd (h ',' hc) (by decide)

theorem Writes.comma_notMem {texts pieces : List String} (h : Writes texts pieces)
    (htexts : ∀ text ∈ texts, ',' ∉ text.toList) : ∀ piece ∈ pieces, ',' ∉ piece.toList := by
  induction h with
  | nil => exact nofun
  | blank hpiece rest ih => exact List.forall_mem_cons.2 ⟨hpiece.comma_notMem, ih htexts⟩
  | entry hbefore hafter rest ih =>
      obtain ⟨htext, hothers⟩ := List.forall_mem_cons.1 htexts
      refine List.forall_mem_cons.2 ⟨?_, ih hothers⟩
      rw [String.toList_append, String.toList_append, List.mem_append, List.mem_append]
      exact not_or.2 ⟨not_or.2 ⟨hbefore.comma_notMem, htext⟩, hafter.comma_notMem⟩

/-! ### Trimming -/

theorem trim_eq_rdropWhile (s : List Char) :
    trim s = (s.dropWhile isBlank).rdropWhile isBlank :=
  rfl

/-- Every text is its trimmed form among blank characters. -/
theorem exists_pad (s : List Char) :
    ∃ before after, (∀ c ∈ before, isBlank c = true) ∧ (∀ c ∈ after, isBlank c = true) ∧
      s = before ++ trim s ++ after := by
  refine ⟨s.takeWhile isBlank, (s.dropWhile isBlank).rtakeWhile isBlank,
    fun _ => List.mem_takeWhile_imp, fun _ => List.mem_rtakeWhile_imp, ?_⟩
  rw [trim_eq_rdropWhile, List.append_assoc, List.rdropWhile_append_rtakeWhile,
    List.takeWhile_append_dropWhile]

theorem trim_eq_nil_iff {s : List Char} : trim s = [] ↔ ∀ c ∈ s, isBlank c = true := by
  constructor
  · intro h
    obtain ⟨before, after, hbefore, hafter, hs⟩ := exists_pad s
    rw [hs, h, List.append_nil, List.forall_mem_append]
    exact ⟨hbefore, hafter⟩
  · intro h
    rw [trim_eq_rdropWhile, List.dropWhile_eq_nil_iff.2 h, List.rdropWhile_nil]

/-- Blank characters behind a text do not matter when it is trimmed there. -/
theorem rdropWhile_append_blank {s after : List Char} (h : ∀ c ∈ after, isBlank c = true) :
    (s ++ after).rdropWhile isBlank = s.rdropWhile isBlank := by
  rw [List.rdropWhile, List.reverse_append, List.dropWhile_append_of_pos, List.rdropWhile]
  exact fun c hc => h c (List.mem_reverse.1 hc)

/-- An entry among blank characters is trimmed to itself. -/
theorem trim_pad {before after : List Char} {text : String}
    (hbefore : ∀ c ∈ before, isBlank c = true) (hafter : ∀ c ∈ after, isBlank c = true)
    (h : IsEntry text) : trim (before ++ text.toList ++ after) = text.toList := by
  cases htext : text.toList with
  | nil => exact absurd (String.toList_eq_nil_iff.1 htext) h.ne_empty
  | cons c rest =>
      have hc : ¬ isBlank c = true := by simp [h.head c (by rw [htext]; rfl)]
      have hfront : (before ++ (c :: rest) ++ after).dropWhile isBlank = c :: rest ++ after := by
        rw [List.append_assoc, List.dropWhile_append_of_pos hbefore, List.cons_append,
          List.dropWhile_cons_of_neg hc]
      rw [trim_eq_rdropWhile, hfront, rdropWhile_append_blank hafter, List.rdropWhile_eq_self_iff]
      intro hne
      have hlast := h.last _ (by rw [htext]; exact List.getLast?_eq_some_getLast hne)
      simp [hlast]

/-- What is left of a text that is not blank is an entry. -/
theorem isEntry_trim {s : List Char} (h : trim s ≠ []) : IsEntry (String.ofList (trim s)) where
  ne_empty := fun e => h (by rw [← String.toList_ofList (l := trim s), e]; rfl)
  head := by
    rw [String.toList_ofList]
    intro c hc
    obtain ⟨after, hprefix⟩ := List.rdropWhile_prefix isBlank (s.dropWhile isBlank)
    have hdrop : c ∈ (s.dropWhile isBlank).head? := by
      rw [← hprefix]
      exact List.mem_head?_append_of_mem_head? hc
    have hhead := List.head?_dropWhile_not isBlank s
    rw [hdrop] at hhead
    simpa using hhead
  last := by
    rw [String.toList_ofList]
    intro c hc
    rw [List.getLast?_eq_some_getLast h] at hc
    have hlast := List.rdropWhile_last_not isBlank (s.dropWhile isBlank) h
    obtain rfl := Option.some.inj hc
    exact Bool.of_not_eq_true hlast

/-! ### Joined pieces -/

theorem splitOn_intercalate {separator : Char} {pieces : List (List Char)} (hne : pieces ≠ [])
    (h : ∀ piece ∈ pieces, separator ∉ piece) :
    splitOn separator ([separator].intercalate pieces) = pieces := by
  induction pieces with
  | nil => contradiction
  | cons piece pieces ih =>
      obtain ⟨hpiece, hrest⟩ := List.forall_mem_cons.1 h
      cases pieces with
      | nil => rw [List.intercalate_singleton, splitOn_of_notMem hpiece]
      | cons next pieces =>
          rw [List.intercalate_cons_cons, List.append_assoc, List.singleton_append,
            splitOn_append_cons hpiece, ih (List.cons_ne_nil _ _) hrest]

/-- Joined pieces have the trimmed pieces that are not blank as their entries. -/
theorem entries_intercalate {pieces : List String} (h : ∀ piece ∈ pieces, ',' ∉ piece.toList) :
    entries (String.intercalate "," pieces).toList =
      ((pieces.map String.toList).map trim).filter fun piece => !piece.isEmpty := by
  cases pieces with
  | nil => rfl
  | cons piece pieces =>
      rw [entries, String.toList_intercalate]
      have hcut := @splitOn_intercalate ',' ((piece :: pieces).map String.toList)
        (List.cons_ne_nil _ _) (List.forall_mem_map.2 h)
      exact congrArg (fun cut => (cut.map trim).filter fun piece => !piece.isEmpty) hcut

/-- Joined pieces have the texts that they write down as their entries. -/
theorem entries_of_writes {texts pieces : List String} (h : Writes texts pieces)
    (htexts : ∀ text ∈ texts, IsEntry text) (hpieces : ∀ piece ∈ pieces, ',' ∉ piece.toList) :
    entries (String.intercalate "," pieces).toList = texts.map String.toList := by
  rw [entries_intercalate hpieces]
  clear hpieces
  induction h with
  | nil => rfl
  | blank hpiece rest ih =>
      rw [List.map_cons, List.map_cons, trim_eq_nil_iff.2 hpiece, List.filter_cons_of_neg (by simp),
        ih htexts]
  | @entry texts pieces before text after hbefore hafter rest ih =>
      obtain ⟨htext, hothers⟩ := List.forall_mem_cons.1 htexts
      have hne : text.toList ≠ [] := fun e => htext.ne_empty (String.toList_eq_nil_iff.1 e)
      rw [List.map_cons, List.map_cons, String.toList_append, String.toList_append,
        trim_pad hbefore hafter htext, List.filter_cons_of_pos (by simp [hne]), ih hothers,
        List.map_cons]

/-- All pieces write some entries down. -/
theorem exists_writes (pieces : List String) :
    ∃ texts, Writes texts pieces ∧ ∀ text ∈ texts, IsEntry text := by
  induction pieces with
  | nil => exact ⟨[], .nil, nofun⟩
  | cons piece pieces ih =>
      obtain ⟨texts, hwrites, htexts⟩ := ih
      by_cases hblank : trim piece.toList = []
      · exact ⟨texts, .blank (trim_eq_nil_iff.1 hblank) hwrites, htexts⟩
      · obtain ⟨before, after, hbefore, hafter, hpiece⟩ := exists_pad piece.toList
        have hstring : String.ofList before ++ String.ofList (trim piece.toList) ++
            String.ofList after = piece := by
          rw [← String.ofList_append, ← String.ofList_append, ← hpiece, String.ofList_toList]
        have hwritten := @Writes.entry texts pieces _ (String.ofList (trim piece.toList)) _
          (isBlank_ofList.2 hbefore) (isBlank_ofList.2 hafter) hwrites
        rw [hstring] at hwritten
        exact ⟨_, hwritten, List.forall_mem_cons.2 ⟨isEntry_trim hblank, htexts⟩⟩

end Text

end EpochClaims
