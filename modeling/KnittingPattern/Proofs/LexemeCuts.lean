import KnittingPattern.Proofs.PatternGrammar
import KnittingPattern.Token.Stream
import Mathlib.Tactic.SplitIfs

/-! # Cutting a text at its lexemes

A row of lexemes is cut out of its own text if each of them goes as far as its first character
allows.  The names and numbers among the lexemes of any text have the form of names and numbers.
Main theorems: `Lexeme.scan_chars`, `Token.formed_of_mem_tokenize`. -/

namespace KnittingPattern

open Token (Kind)

namespace Lexeme

/-- The text of lexemes, one behind the other. -/
def chars (ls : List Lexeme) : List Char := ls.flatMap fun l => l.text.toList

@[simp] theorem chars_nil : chars [] = [] := rfl

@[simp] theorem chars_cons (l : Lexeme) (ls : List Lexeme) :
    chars (l :: ls) = l.text.toList ++ chars ls := rfl

theorem extent_blank {c : Char} (h : isBlank c) (rest : List Char) :
    extent c rest = (.whitespace, (rest.takeWhile isBlank).length) := by
  simp [extent, h]

/-- Letters, digits and points are none of the characters that are looked at before them. -/
theorem not_blank_of_letter_or_digit {c : Char} (h : isLetter c ∨ isNumberPart c) :
    isBlank c = false ∧ c ≠ '\n' ∧ c ≠ '\r' ∧ c ≠ ';' := by
  refine ⟨Bool.eq_false_iff.mpr ?_, ?_, ?_, ?_⟩
  · intro hb
    simp only [isBlank, Bool.or_eq_true, beq_iff_eq] at hb
    rcases hb with (rfl | rfl) | rfl <;> exact absurd h (by decide)
  all_goals
    rintro rfl
    exact absurd h (by decide)

theorem extent_letter {c : Char} (h : isLetter c) (rest : List Char) :
    extent c rest = (.identifier, (rest.takeWhile isNamePart).length) := by
  have hc := not_blank_of_letter_or_digit (.inl h)
  simp [extent, hc, h]

theorem isLetter_eq_false_of_numberPart {c : Char} (h : isNumberPart c) : isLetter c = false := by
  refine Bool.eq_false_iff.mpr ?_
  intro hl
  simp only [isLetter, isNumberPart, Bool.or_eq_true, Bool.and_eq_true, decide_eq_true_eq,
    beq_iff_eq, Char.le_def, UInt32.le_iff_toNat_le] at h hl
  rcases h with h | rfl
  · rcases hl with hl | hl
    · exact absurd (Nat.le_trans hl.1 h.2) (by decide)
    · exact absurd (Nat.le_trans hl.1 h.2) (by decide)
  · exact absurd hl (by decide)

theorem extent_numberPart {c : Char} (h : isNumberPart c) (rest : List Char) :
    extent c rest = (.number, (rest.takeWhile isNumberPart).length) := by
  have hc := not_blank_of_letter_or_digit (.inr h)
  simp [extent, hc, isLetter_eq_false_of_numberPart h, h]

/-- A run of characters ends where the next one is not of its kind. -/
theorem length_takeWhile_append_iff (p : Char → Bool) (cs rest : List Char) :
    ((cs ++ rest).takeWhile p).length = cs.length ↔ cs.all p ∧ ∀ c ∈ rest.head?, ¬p c := by
  induction cs with
  | nil => cases rest with
    | nil => simp
    | cons c rest => by_cases h : p c <;> simp [h]
  | cons c cs ih => by_cases h : p c <;> simp [h, ih]

theorem length_takeWhile_append {p : Char → Bool} {cs rest : List Char} (hcs : cs.all p)
    (hrest : ∀ c, rest.head? = some c → ¬p c) : ((cs ++ rest).takeWhile p).length = cs.length :=
  (length_takeWhile_append_iff p cs rest).mpr ⟨hcs, hrest⟩

/-- The lexeme is what its first character takes when `rest` follows. -/
def Cut (l : Lexeme) (rest : List Char) : Prop :=
  ∃ c cs, l.text.toList = c :: cs ∧ extent c (cs ++ rest) = (l.kind, cs.length)

/-- Each lexeme is cut off before the ones behind it. -/
def Cuts : List Lexeme → Prop
  | [] => True
  | l :: ls => l.Cut (chars ls) ∧ Cuts ls

theorem scanBehind_eq_scan_drop (n : Nat) (cs : List Char) :
    scanBehind n cs = scan (cs.drop n) := by
  induction cs generalizing n with
  | nil => cases n <;> rfl
  | cons c cs ih =>
    cases n with
    | zero => rfl
    | succ n => exact ih n

theorem scan_cons (c : Char) (rest : List Char) :
    scan (c :: rest) =
      ⟨(extent c rest).1, String.ofList (c :: rest.take (extent c rest).2)⟩ ::
        scan (rest.drop (extent c rest).2) := by
  rw [← scanBehind_eq_scan_drop]
  rfl

/-- Cutting the text of lexemes that are cut off from each other gives the lexemes. -/
theorem scan_chars {ls : List Lexeme} (h : Cuts ls) : scan (chars ls) = ls := by
  induction ls with
  | nil => rfl
  | cons l ls ih =>
    obtain ⟨⟨c, cs, hl, hc⟩, hls⟩ := h
    have ht : String.ofList (c :: cs) = l.text := by rw [← hl, String.ofList_toList]
    rw [chars_cons, hl, List.cons_append, scan_cons, hc]
    simp [ht, ih hls]

theorem extent_le (c : Char) (rest : List Char) : (extent c rest).2 ≤ rest.length := by
  have hrun : ∀ p : Char → Bool, (rest.takeWhile p).length ≤ rest.length := fun p =>
    (List.takeWhile_prefix p).length_le
  have hone : ∀ d, rest.head? = some d → 1 ≤ rest.length := fun d hd => by
    cases rest with
    | nil => cases hd
    | cons e rest => simp
  unfold extent
  split_ifs with _ _ _ h _ _ _ _ h
  · exact hrun _
  · exact Nat.zero_le _
  · exact hone _ h
  · exact Nat.zero_le _
  · exact hrun _
  · exact hrun _
  · exact hrun _
  · exact hone _ h
  · exact Nat.zero_le _
  · exact Nat.zero_le _

/-- A text is nothing, or its first lexeme and the text behind that. -/
theorem scan_induction {P : List Char → Prop} (nil : P [])
    (cons : ∀ c rest, P (rest.drop (extent c rest).2) → P (c :: rest)) (cs : List Char) : P cs := by
  induction hn : cs.length using Nat.strongRecOn generalizing cs with
  | _ n ih =>
    cases cs with
    | nil => exact nil
    | cons c rest =>
      subst hn
      refine cons c rest (ih _ ?_ _ rfl)
      rw [List.length_drop, List.length_cons]
      omega

/-- Nothing of a text is lost. -/
theorem chars_scan (cs : List Char) : chars (scan cs) = cs := by
  induction cs using scan_induction with
  | nil => rfl
  | cons c rest ih => simp [scan_cons, ih]

theorem cuts_scan (cs : List Char) : Cuts (scan cs) := by
  induction cs using scan_induction with
  | nil => trivial
  | cons c rest ih =>
    rw [scan_cons]
    refine ⟨⟨c, rest.take (extent c rest).2, String.toList_ofList, ?_⟩, ih⟩
    rw [chars_scan, List.take_append_drop, List.length_take_of_le (extent_le c rest)]

/-- Whatever holds of the lexeme at the beginning of any text holds of all lexemes. -/
theorem forall_mem_scan {P : Lexeme → Prop}
    (h : ∀ c rest, P ⟨(extent c rest).1, String.ofList (c :: rest.take (extent c rest).2)⟩)
    (cs : List Char) : ∀ l ∈ scan cs, P l := by
  suffices hb : ∀ n, ∀ l ∈ scanBehind n cs, P l from hb 0
  induction cs with
  | nil => simp [scanBehind]
  | cons c cs ih =>
    intro n
    cases n with
    | zero => exact List.forall_mem_cons.mpr ⟨h c cs, ih _⟩
    | succ n => exact ih n

/-- Names are words, and numbers consist of digits and points. -/
def Formed (kind : Kind) (text : String) : Prop :=
  (kind = .identifier → isWord text) ∧ (kind = .number → text.toList.all isNumberPart)

private theorem take_length_takeWhile (p : Char → Bool) (cs : List Char) :
    cs.take (cs.takeWhile p).length = cs.takeWhile p :=
  (List.prefix_iff_eq_take.mp (List.takeWhile_prefix p)).symm

theorem single_ne_name_number (c : Char) : single c ≠ .identifier ∧ single c ≠ .number := by
  unfold single
  split <;> simp

theorem isWord_ofList (c : Char) (cs : List Char) :
    isWord (String.ofList (c :: cs)) = (isLetter c && cs.all isNamePart) := by
  simp only [isWord, String.toList_ofList]

theorem formed_extent (c : Char) (rest : List Char) :
    Formed (extent c rest).1 (String.ofList (c :: rest.take (extent c rest).2)) := by
  unfold extent
  split_ifs with _ _ _ _ _ hletter hnumber
  all_goals simp only [Formed, reduceCtorEq, false_implies, true_implies, true_and, and_true]
  · rw [isWord_ofList, take_length_takeWhile, hletter]
    exact List.all_takeWhile
  · rw [String.toList_ofList, take_length_takeWhile, List.all_cons, hnumber]
    exact List.all_takeWhile
  · exact ⟨fun h => absurd h (single_ne_name_number c).1,
      fun h => absurd h (single_ne_name_number c).2⟩

end Lexeme

namespace Token

def lexeme (t : Token) : Lexeme := ⟨t.kind, t.literal⟩

theorem map_lexeme_place (source : Nat) (p : Position) (ls : List Lexeme) :
    (place source p ls).map lexeme = ls := by
  induction ls generalizing p with
  | nil => rfl
  | cons l ls ih => simp [place, lexeme, ih]

theorem map_lexeme_tokenize (source : Nat) (text : String) :
    (tokenize source text).map lexeme = Lexeme.scan text.toList :=
  map_lexeme_place source .start _

theorem mem_place {source : Nat} {p : Position} {ls : List Lexeme} {t : Token}
    (h : t ∈ place source p ls) : ⟨t.kind, t.literal⟩ ∈ ls := by
  induction ls generalizing p with
  | nil => cases h
  | cons l ls ih =>
    rcases List.mem_cons.mp h with rfl | h
    · exact List.mem_cons_self
    · exact List.mem_cons_of_mem l (ih h)

/-- A token whose literal has the form of its class. -/
def Formed (t : Token) : Prop := Lexeme.Formed t.kind t.literal

theorem formed_of_mem_tokenize {source : Nat} {text : String} {t : Token}
    (h : t ∈ tokenize source text) : t.Formed :=
  Lexeme.forall_mem_scan (P := fun l => Lexeme.Formed l.kind l.text) Lexeme.formed_extent
    text.toList _ (mem_place h)

end Token

/-- The tokens of any texts have the form of their classes. -/
theorem TokenStream.formed_ofSources (texts : List String) :
    ∀ t ∈ (ofSources texts).tokens ++ [(ofSources texts).last], t.Formed := by
  suffices h : ∀ n, ∀ t ∈ (ofSourcesFrom n texts).tokens ++ [(ofSourcesFrom n texts).last],
      t.Formed from h 0
  have hv : ∀ n text, ∀ t ∈ visible n text, t.Formed := fun _ _ _ h =>
    Token.formed_of_mem_tokenize (List.mem_filter.mp h).1
  have hm : ∀ k p n, k = .endOfInput ∨ k = .endOfSource → Token.Formed ⟨k, "", p, n⟩ := by
    rintro k p n (rfl | rfl) <;> simp [Token.Formed, Lexeme.Formed]
  induction texts with
  | nil => simpa [ofSourcesFrom] using fun n => hm _ _ n (.inl rfl)
  | cons text texts ih =>
    intro n t ht
    cases texts with
    | nil =>
      rcases List.mem_append.mp ht with h | h
      · exact hv n text t h
      · exact List.mem_singleton.mp h ▸ hm _ _ n (.inl rfl)
    | cons text' texts =>
      simp only [ofSourcesFrom, List.append_assoc, List.cons_append, List.mem_append,
        List.mem_cons] at ht
      rcases ht with h | rfl | h
      · exact hv n text t h
      · exact hm _ _ n (.inr rfl)
      · exact ih (n + 1) t (by simpa [ofSourcesFrom] using h)

end KnittingPattern
