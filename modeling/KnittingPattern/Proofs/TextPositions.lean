import KnittingPattern.Text.Position
import Mathlib.Data.List.DropRight

/-! # Lines and columns

The position behind a text is told by the text: its line by the line breaks, its column by the
characters since the last of them.  Reading a text in two parts comes to the same, unless a carriage
return and its line feed are taken apart.  Main theorems: `Position.advanceOver_start`,
`Position.advanceOver_halves`. -/

namespace KnittingPattern

/-- How many line breaks a text has; a carriage return and the line feed behind it are one. -/
def lineBreaks : List Char → Nat
  | [] => 0
  | '\r' :: '\n' :: cs => lineBreaks cs + 1
  | c :: cs => if c = '\r' ∨ c = '\n' then lineBreaks cs + 1 else lineBreaks cs

/-- The characters since the last line break of a text. -/
def lastLine (cs : List Char) : List Char := cs.rtakeWhile fun c => c ≠ '\r' ∧ c ≠ '\n'

theorem lineBreaks_cons (c : Char) (cs : List Char) :
    lineBreaks (c :: cs) =
      if c = '\r' ∧ cs.head? = some '\n' then lineBreaks cs
      else if c = '\r' ∨ c = '\n' then lineBreaks cs + 1 else lineBreaks cs := by
  split
  · rename_i h
    obtain ⟨rfl, hcs⟩ := h
    cases cs with
    | nil => cases hcs
    | cons d cs =>
      obtain rfl : d = '\n' := by simpa using hcs
      have hfeed : lineBreaks ('\n' :: cs) = lineBreaks cs + 1 := by simp [lineBreaks]
      rw [lineBreaks, hfeed]
  · rename_i h
    rw [lineBreaks]
    rintro cs' rfl rfl
    exact h ⟨rfl, rfl⟩

theorem lastLine_cons (c : Char) (cs : List Char) :
    lastLine (c :: cs) =
      if lastLine cs = cs ∧ ¬(c = '\r' ∨ c = '\n') then c :: cs else lastLine cs := by
  have hrev : lastLine cs = cs ↔
      (cs.reverse.takeWhile fun c => decide (c ≠ '\r' ∧ c ≠ '\n')).length = cs.reverse.length := by
    constructor
    · intro h
      exact congrArg List.length (List.reverse_eq_iff.mp h)
    · intro h
      rw [lastLine, List.rtakeWhile, (List.takeWhile_prefix _).eq_of_length h, List.reverse_reverse]
  by_cases hall : lastLine cs = cs
  · have hcs := hrev.mp hall
    rw [lastLine, List.rtakeWhile, List.reverse_cons, List.takeWhile_append, if_pos hcs]
    by_cases hc : c = '\r' ∨ c = '\n'
    · rw [if_neg fun h => h.2 hc, hall]
      rcases hc with rfl | rfl <;> simp
    · rw [if_pos ⟨hall, hc⟩]
      simp [not_or.mp hc]
  · rw [lastLine, List.rtakeWhile, List.reverse_cons, List.takeWhile_append,
      if_neg (hrev.not.mp hall), if_neg fun h => hall h.1]
    rfl

theorem length_lastLine_le (cs : List Char) : (lastLine cs).length ≤ cs.length :=
  (List.rtakeWhile_suffix _ cs).length_le

/-- A line feed is on no line. -/
theorem lastLine_ne_of_head {cs : List Char} (h : cs.head? = some '\n') : lastLine cs ≠ cs := by
  intro hall
  have hfeed := List.rtakeWhile_eq_self_iff.mp hall '\n' (List.mem_of_head? h)
  simp at hfeed

namespace Position

theorem advance_of_break (p : Position) {c : Char} (h : c = '\r' ∨ c = '\n') :
    p.advance c = ⟨p.line + 1, 0⟩ := by
  rcases h with rfl | rfl <;> rfl

theorem advance_of_not_break (p : Position) {c : Char} (h : ¬(c = '\r' ∨ c = '\n')) :
    p.advance c = ⟨p.line, p.column + 1⟩ :=
  if_neg (by simpa [isLineBreak, or_comm] using h)

def behind (cs : List Char) : Position := ⟨1 + lineBreaks cs, (lastLine cs).length⟩

theorem line_advanceOver (p : Position) (cs : List Char) :
    (p.advanceOver cs).line = p.line + lineBreaks cs := by
  induction cs generalizing p with
  | nil => rfl
  | cons c cs ih =>
    rw [advanceOver, lineBreaks_cons]
    by_cases hfeed : c = '\r' ∧ cs.head? = some '\n'
    · rw [if_pos hfeed, if_pos hfeed, ih]
    by_cases hbreak : c = '\r' ∨ c = '\n'
    · rw [if_neg hfeed, if_neg hfeed, if_pos hbreak, ih, p.advance_of_break hbreak]
      exact Nat.add_right_comm p.line 1 (lineBreaks cs)
    · rw [if_neg hfeed, if_neg hfeed, if_neg hbreak, ih, p.advance_of_not_break hbreak]

/-- The column is that of the last line; only on the first one does it matter where the text begins.
-/
theorem column_advanceOver (p : Position) (cs : List Char) :
    (p.advanceOver cs).column =
      if lastLine cs = cs then p.column + cs.length else (lastLine cs).length := by
  induction cs generalizing p with
  | nil => rfl
  | cons c cs ih =>
    have hlonger : lastLine cs ≠ c :: cs := fun h => by
      have hlen := length_lastLine_le cs
      rw [h, List.length_cons] at hlen
      omega
    rw [advanceOver]
    by_cases hbreak : c = '\r' ∨ c = '\n'
    · have hline : lastLine (c :: cs) = lastLine cs := by
        rw [lastLine_cons, if_neg fun h => h.2 hbreak]
      rw [hline, if_neg hlonger]
      split
      · rename_i hfeed
        rw [ih, if_neg (lastLine_ne_of_head hfeed.2)]
      · rw [ih, p.advance_of_break hbreak]
        by_cases hall : lastLine cs = cs
        · rw [if_pos hall, hall, Nat.zero_add]
        · rw [if_neg hall]
    · rw [if_neg fun h => hbreak (.inl h.1), ih, p.advance_of_not_break hbreak]
      by_cases hall : lastLine cs = cs
      · have hline : lastLine (c :: cs) = c :: cs := by
          rw [lastLine_cons, if_pos ⟨hall, hbreak⟩]
        rw [if_pos hall, if_pos hline]
        exact Nat.add_right_comm p.column 1 cs.length
      · have hline : lastLine (c :: cs) = lastLine cs := by
          rw [lastLine_cons, if_neg fun h => hall h.1]
        rw [if_neg hall, hline, if_neg hlonger]

theorem advanceOver_start (cs : List Char) : start.advanceOver cs = behind cs := by
  have hcolumn : (start.advanceOver cs).column = (lastLine cs).length := by
    rw [column_advanceOver]
    by_cases hall : lastLine cs = cs
    · rw [if_pos hall, hall, start, Nat.zero_add]
    · rw [if_neg hall]
  exact congrArg₂ Position.mk (line_advanceOver start cs) hcolumn

/-- A text is read in two parts unless a line break is taken apart. -/
theorem advanceOver_append (p : Position) {cs ds : List Char}
    (h : ¬(cs.getLast? = some '\r' ∧ ds.head? = some '\n')) :
    p.advanceOver (cs ++ ds) = (p.advanceOver cs).advanceOver ds := by
  induction cs generalizing p with
  | nil => rfl
  | cons c cs ih =>
    cases cs with
    | nil =>
      have hc : ¬(c = '\r' ∧ ds.head? = some '\n') := by simpa using h
      simp [advanceOver, hc]
    | cons d cs =>
      have h' : ¬((d :: cs).getLast? = some '\r' ∧ ds.head? = some '\n') := by simpa using h
      rw [List.cons_append, advanceOver, advanceOver, ih _ h', ih _ h']
      by_cases hfeed : c = '\r' ∧ d = '\n'
      · simp [hfeed]
      · simp [hfeed]

/-- One line down, all lines are. -/
theorem advanceOver_below (p : Position) (cs : List Char) :
    (⟨p.line + 1, p.column⟩ : Position).advanceOver cs =
      ⟨(p.advanceOver cs).line + 1, (p.advanceOver cs).column⟩ := by
  have hline : ((⟨p.line + 1, p.column⟩ : Position).advanceOver cs).line =
      (p.advanceOver cs).line + 1 := by
    rw [line_advanceOver, line_advanceOver, Nat.add_right_comm]
  have hcolumn : ((⟨p.line + 1, p.column⟩ : Position).advanceOver cs).column =
      (p.advanceOver cs).column := by
    rw [column_advanceOver, column_advanceOver]
  exact congrArg₂ Position.mk hline hcolumn

/-- A line break that is taken apart counts as two. -/
theorem advanceOver_append_of_apart (p : Position) {cs ds : List Char}
    (h : cs.getLast? = some '\r' ∧ ds.head? = some '\n') :
    (p.advanceOver cs).advanceOver ds =
      ⟨(p.advanceOver (cs ++ ds)).line + 1, (p.advanceOver (cs ++ ds)).column⟩ := by
  obtain ⟨before, rfl⟩ := List.getLast?_eq_some_iff.mp h.1
  obtain ⟨behind, rfl⟩ := List.head?_eq_some_iff.mp h.2
  have hfeed (q : Position) :
      q.advanceOver ('\n' :: behind) = (⟨q.line + 1, 0⟩ : Position).advanceOver behind := by
    rw [advanceOver, if_neg (by simp), advance_of_break q (.inr rfl)]
  have hreturn : p.advanceOver (before ++ ['\r']) = ⟨(p.advanceOver before).line + 1, 0⟩ := by
    rw [advanceOver_append p (by simp)]
    exact advance_of_break _ (.inl rfl)
  have hwhole : p.advanceOver (before ++ ['\r'] ++ '\n' :: behind) =
      (p.advanceOver before).advanceOver ('\n' :: behind) := by
    rw [List.append_assoc, advanceOver_append p (by simp), List.singleton_append, advanceOver,
      if_pos ⟨rfl, rfl⟩]
  rw [hreturn, hwhole, hfeed, hfeed]
  exact advanceOver_below ⟨(p.advanceOver before).line + 1, 0⟩ behind

/-- A text is read in two parts just if no line break is taken apart; if one is, the parts come to
one line more. -/
theorem advanceOver_halves (p : Position) (s t : String) :
    ((p.advanceOver s.toList).advanceOver t.toList = p.advanceOver (s ++ t).toList ↔
      ¬(s.toList.getLast? = some '\r' ∧ t.toList.head? = some '\n')) ∧
    (s.toList.getLast? = some '\r' ∧ t.toList.head? = some '\n' →
      (p.advanceOver s.toList).advanceOver t.toList =
        ⟨(p.advanceOver (s ++ t).toList).line + 1, (p.advanceOver (s ++ t).toList).column⟩) := by
  rw [String.toList_append]
  refine ⟨⟨fun heq happart => ?_, fun h => (advanceOver_append p h).symm⟩,
    advanceOver_append_of_apart p⟩
  rw [advanceOver_append_of_apart p happart] at heq
  exact Nat.succ_ne_self _ (congrArg Position.line heq)

theorem advanceOver_halves_apart :
    ("k\r".toList.getLast? = some '\r' ∧ "\np".toList.head? = some '\n') ∧
    (start.advanceOver "k\r".toList).advanceOver "\np".toList = ⟨3, 1⟩ ∧
    start.advanceOver ("k\r" ++ "\np").toList = ⟨2, 1⟩ := by
  have happart : "k\r".toList.getLast? = some '\r' ∧ "\np".toList.head? = some '\n' := by decide
  exact ⟨happart, (advanceOver_halves start "k\r" "\np").2 happart, rfl⟩

def Before (p q : Position) : Prop := p.line < q.line ∨ p.line = q.line ∧ p.column < q.column

theorem Before.trans {p q r : Position} (h : p.Before q) (h' : q.Before r) : p.Before r := by
  unfold Before at *
  omega

theorem Before.following {p q : Position} (h : p.Before q) : p.following.Before q.following :=
  h.imp id fun ⟨hline, hcolumn⟩ => ⟨hline, Nat.add_lt_add_right hcolumn 1⟩

theorem before_advance (p : Position) (c : Char) : p.Before (p.advance c) := by
  unfold advance Before
  split
  · exact .inl (Nat.lt_succ_self _)
  · exact .inr ⟨rfl, Nat.lt_succ_self _⟩

/-- Every text that is read leads on. -/
theorem before_advanceOver (p : Position) {cs : List Char} (h : cs ≠ []) :
    p.Before (p.advanceOver cs) := by
  induction cs generalizing p with
  | nil => exact absurd rfl h
  | cons c cs ih =>
    cases cs with
    | nil => simpa [advanceOver] using before_advance p c
    | cons d cs =>
      rw [advanceOver]
      split
      · exact ih p (List.cons_ne_nil d cs)
      · exact (before_advance p c).trans (ih _ (List.cons_ne_nil d cs))

end Position

end KnittingPattern
