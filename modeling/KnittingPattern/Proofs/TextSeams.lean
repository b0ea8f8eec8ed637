import KnittingPattern.Proofs.SameTokens
import KnittingPattern.Proofs.SourceTokens

/-! # Texts one behind the other

A text that ends in a line break can be cut into pieces apart from the text behind it.  Only a
carriage return at its end takes the line feed that the other one may begin with.  So several texts
have the pieces of their concatenation, but for marks and line breaks where they meet.  Main
theorem: `Lexeme.joins_ofSourcesFrom`. -/

namespace KnittingPattern

open Token (Kind)

namespace Lexeme

/-- A text that ends in a line break. -/
def Broken (cs : List Char) : Prop := ∃ c ∈ cs.getLast?, isLineBreak c

variable {after after' cs ds : List Char} {k : Kind} {l n : Lexeme} {ls ms pre post : List Lexeme}

/-- What a piece is depends on one character behind it. -/
theorem isPiece_congr (h : after'.head? = after.head?) (hp : IsPiece after k cs) :
    IsPiece after' k cs :=
  hp.before (h ▸ hp.ends)

theorem chars_append (ls ms : List Lexeme) : chars (ls ++ ms) = chars ls ++ chars ms :=
  List.flatMap_append

/-- The pieces before others stay when those are replaced with the same first character. -/
theorem cuts_replace {ms' : List Lexeme} (h : Cuts (pre ++ ms)) (hm : Cuts ms')
    (hhead : (chars ms').head? = (chars ms).head?) : Cuts (pre ++ ms') := by
  induction pre with
  | nil => exact hm
  | cons l pre ih =>
    obtain ⟨hl, hpre⟩ := h
    refine ⟨?_, ih hpre⟩
    rw [cut_iff_isPiece] at hl ⊢
    refine isPiece_congr ?_ hl
    change (chars (pre ++ ms')).head? = (chars (pre ++ ms)).head?
    rw [chars_append, chars_append, List.head?_append, List.head?_append, hhead]

/-- Line breaks are in no pieces but line breaks. -/
theorem not_isLineBreak_of_isPiece (h : IsPiece after k cs) (hk : k ≠ .newline) :
    ∀ c ∈ cs, ¬isLineBreak c := by
  intro c hc hb
  have hbreak : c = '\n' ∨ c = '\r' := by simpa [isLineBreak] using hb
  cases k with
  | newline => exact hk rfl
  | whitespace | number =>
    have hsort := h.2.all c hc
    rcases hbreak with rfl | rfl <;> exact absurd hsort (by decide)
  | comment =>
    obtain ⟨ds, rfl, hr⟩ := h
    rcases List.mem_cons.mp hc with rfl | hc
    · exact absurd hb (by decide)
    · exact hbreak.elim (hr.all c hc).2 (hr.all c hc).1
  | identifier =>
    obtain ⟨d, ds, rfl, hd, hr⟩ := h
    have hname : c.isAlpha ∨ c = '-' := by
      rcases List.mem_cons.mp hc with rfl | hc
      · exact .inl hd
      · exact hr.all c hc
    rcases hbreak with rfl | rfl <;> exact absurd hname (by decide)
  | becomes =>
    obtain rfl : cs = _ := h
    rcases hbreak with rfl | rfl <;> exact absurd hc (by decide)
  | illegal =>
    obtain ⟨d, rfl, hs⟩ := h
    obtain rfl := List.mem_singleton.mp hc
    exact hbreak.elim hs.newline.2 hs.newline.1
  | endOfInput | endOfSource => exact h.elim
  | _ =>
    obtain ⟨d, rfl, hs⟩ := h
    obtain rfl := List.mem_singleton.mp hc
    rcases hbreak with rfl | rfl <;> exact absurd hs (by decide)

/-- The pieces of a text that ends in a line break. -/
theorem exists_scan_broken (h : Broken cs) : ∃ pre n, scan cs = pre ++ [n] ∧ n.kind = .newline ∧
    Cuts (pre ++ [n]) := by
  obtain ⟨c, hc, hb⟩ := h
  have hcuts := cuts_scan cs
  have hchars := chars_scan cs
  obtain hnil | ⟨pre, n, hscan⟩ := List.eq_nil_or_concat (scan cs)
  · rw [hnil] at hchars
    subst hchars
    cases hc
  · rw [List.concat_eq_append] at hscan
    rw [hscan] at hcuts hchars
    refine ⟨pre, n, hscan, ?_, hcuts⟩
    have hn := ((segmentation_iff cs _).mpr hscan.symm).isPiece pre n [] rfl
    by_contra hk
    refine not_isLineBreak_of_isPiece hn hk c ?_ hb
    rw [← hchars, chars_append, chars_cons, chars_nil, List.append_nil,
      List.getLast?_append_of_ne_nil _ (isPiece_ne_nil hn)] at hc
    exact List.mem_of_getLast? hc

/-- Texts with nothing between them have the pieces of both, unless a line break is made of the end
of one and the beginning of the other. -/
theorem exists_scan_append (h : Broken cs) (ds : List Char) : ∃ pre n n' ds',
    scan cs = pre ++ [n] ∧ n.kind = .newline ∧ n'.kind = .newline ∧
    scan (cs ++ ds) = pre ++ n' :: scan ds' ∧ (ds' = ds ∨ ds = '\n' :: ds') := by
  obtain ⟨pre, n, hscan, hn, hcuts⟩ := exists_scan_broken h
  have hchars : chars pre ++ n.text.toList = cs := by
    simpa [hscan, chars_append] using chars_scan cs
  have hpiece : IsPiece [] .newline n.text.toList := by
    rw [← hn]
    exact ((segmentation_iff cs _).mpr hscan.symm).isPiece pre n [] rfl
  have hrest (n' : Lexeme) (ds' : List Char) (hn' : IsPiece ds' n'.kind n'.text.toList)
      (hhead : n'.text.toList.head? = n.text.toList.head?) :
      scan (chars pre ++ n'.text.toList ++ ds') = pre ++ n' :: scan ds' := by
    have hcuts' : Cuts (n' :: scan ds') := by
      refine ⟨?_, cuts_scan ds'⟩
      rw [cut_iff_isPiece, chars_scan]
      exact hn'
    have hfirst : (chars (n' :: scan ds')).head? = (chars [n]).head? := by
      obtain ⟨c, cs', hc⟩ := List.exists_cons_of_ne_nil (isPiece_ne_nil hn')
      simp [← hhead, hc]
    have hall := scan_chars (cuts_replace hcuts hcuts' hfirst)
    rwa [chars_append, chars_cons, chars_scan, ← List.append_assoc] at hall
  by_cases hmeet : n.text.toList = ['\r'] ∧ ds.head? = some '\n'
  · obtain ⟨hr, hd⟩ := hmeet
    obtain ⟨ds', rfl⟩ := List.head?_eq_some_iff.mp hd
    refine ⟨pre, n, ⟨.newline, "\r\n"⟩, ds', hscan, hn, rfl, ?_, .inr rfl⟩
    rw [← hrest ⟨.newline, "\r\n"⟩ ds' (.inl rfl) (by rw [hr]; rfl), ← hchars, hr]
    simp
  · refine ⟨pre, n, n, ds, hscan, hn, hn, ?_, .inl rfl⟩
    rw [← hrest n ds ?_ rfl, hchars]
    rw [hn]
    exact hpiece.imp_right (Or.imp_right fun ⟨hr, _⟩ => ⟨hr, fun hd => hmeet ⟨hr, hd⟩⟩)

/-- The last line of a text that is not blank. -/
def lastWritten? (cs : List Char) : Option (List Char) :=
  ((cs.splitOnP isLineBreak).filter fun line => !line.all isBlank).getLast?

/-- A line that has nothing but a comment. -/
def isRemark (line : List Char) : Bool := (line.dropWhile isBlank).head? == some ';'

theorem lastWritten?_append_cons {c : Char} (hc : isLineBreak c) (cs ds : List Char) :
    lastWritten? (cs ++ c :: ds) = (lastWritten? ds).or (lastWritten? cs) := by
  rw [lastWritten?, List.splitOnP_append_cons _ _ hc, List.filter_append, List.getLast?_append]
  rfl

theorem lastWritten?_line {line : List Char} (h : ∀ c ∈ line, ¬isLineBreak c) :
    lastWritten? line = if line.all isBlank then none else some line := by
  rw [lastWritten?, List.splitOnP_eq_singleton (by simpa using h)]
  cases hb : line.all isBlank <;> simp [hb]

/-- A text that ends in a line break is a line and a text that is empty or does so too. -/
theorem Broken.exists_line (h : Broken cs) : ∃ line c rest, cs = line ++ c :: rest ∧
    isLineBreak c ∧ (∀ d ∈ line, ¬isLineBreak d) ∧ (rest = [] ∨ Broken rest) := by
  obtain ⟨b, hb, hbreak⟩ := h
  obtain ⟨c, hc⟩ : ∃ c, cs.find? isLineBreak = some c := by
    rw [← Option.isSome_iff_exists, List.find?_isSome]
    exact ⟨b, List.mem_of_getLast? hb, hbreak⟩
  obtain ⟨hbreak', line, rest, rfl, hline⟩ := List.find?_eq_some_iff_append.mp hc
  refine ⟨line, c, rest, rfl, hbreak', by simpa using hline, ?_⟩
  cases rest with
  | nil => exact .inl rfl
  | cons d rest =>
    refine .inr ⟨b, ?_, hbreak⟩
    rwa [List.getLast?_append_of_ne_nil _ (by simp), List.getLast?_cons_cons] at hb

theorem endsLine_of_isPiece (h : IsPiece after k cs) (hline : ∀ c ∈ cs, ¬isLineBreak c) :
    k.endsLine = false := by
  cases k with
  | newline =>
    rcases h with rfl | rfl | ⟨rfl, -⟩ <;> exact (hline _ List.mem_cons_self rfl).elim
  | endOfInput | endOfSource => exact h.elim
  | _ => rfl

theorem behind_inked_cons {s : Spot} (l : Lexeme) (ls : List Lexeme) :
    s.behind (inked (l :: ls)) =
      if l.kind = .whitespace then s.behind (inked ls) else (s.next l.kind).behind (inked ls) := by
  split
  · rename_i h
    rw [inked_cons_of_blank ls h]
  · rename_i h
    rw [inked_cons ls (bne_iff_ne.mpr h)]
    rfl

/-- A line goes on as long as no line break is behind it. -/
theorem behind_line (h : Cuts (ls ++ post)) (hline : ∀ c ∈ chars ls, ¬isLineBreak c) :
    Spot.line.behind (inked ls) = .line := by
  induction ls with
  | nil => rfl
  | cons l ls ih =>
    obtain ⟨hl, hls⟩ := h
    rw [chars_cons, List.forall_mem_append] at hline
    have hnext : Spot.line.next l.kind = .line := by
      rw [Spot.next, endsLine_of_isPiece ((cut_iff_isPiece _ _).mp hl) hline.1]
      rfl
    rw [behind_inked_cons, hnext, ih hls hline.2, ite_self]

/-- A comment goes on to the end of its line. -/
theorem eq_nil_of_comment (h : Cuts (l :: (ls ++ post))) (hl : l.kind = .comment)
    (hline : ∀ c ∈ chars ls, ¬isLineBreak c) : ls = [] := by
  obtain ⟨hcut, hls⟩ := h
  rw [cut_iff_isPiece, hl] at hcut
  obtain ⟨ds, -, hrun⟩ := hcut
  cases ls with
  | nil => rfl
  | cons m ls =>
    obtain ⟨d, ds, hd⟩ := List.exists_cons_of_ne_nil
      (isPiece_ne_nil ((cut_iff_isPiece _ _).mp hls.1))
    have hnot := hline d (by simp [hd])
    exact absurd (hrun.ends d (by simp [hd])) (by simpa [← not_isLineBreak_iff] using hnot)

/-- A semicolon begins comments and nothing else. -/
theorem head_eq_iff_of_isPiece {c : Char} (h : IsPiece after k (c :: cs)) :
    c = ';' ↔ k = .comment := by
  constructor
  · rintro rfl
    exact kind_of_isPiece h fun rest => rfl
  · rintro rfl
    obtain ⟨ds, hds, -⟩ := h
    exact (List.cons.inj hds).1

/-- A comment that is alone in its line is a comment behind the last statement. -/
theorem behind_outside {s : Spot} (hs : s ≠ .line) (h : Cuts (ls ++ post))
    (hline : ∀ c ∈ chars ls, ¬isLineBreak c) :
    s.behind (inked ls) = if (chars ls).all isBlank then s else
      if isRemark (chars ls) then .told else .line := by
  induction ls with
  | nil => rfl
  | cons l ls ih =>
    obtain ⟨hl, hls⟩ := h
    rw [cut_iff_isPiece] at hl
    rw [chars_cons, List.forall_mem_append] at hline
    have hends := endsLine_of_isPiece hl hline.1
    obtain ⟨c, cs, hc⟩ := List.exists_cons_of_ne_nil (isPiece_ne_nil hl)
    rw [behind_inked_cons, chars_cons]
    by_cases hblank : l.kind = .whitespace
    · have hrun : ∀ d ∈ l.text.toList, isBlank d := by
        rw [hblank] at hl
        exact fun d hd => (isBlank_iff d).mpr (hl.2.all d hd)
      rw [if_pos hblank, ih hls hline.2, List.all_append, List.all_eq_true.mpr hrun,
        Bool.true_and, isRemark, isRemark, List.dropWhile_append_of_pos hrun]
    · have hpiece := hc ▸ hl
      have hfirst : isBlank c = false := Bool.eq_false_iff.mpr fun hb =>
        hblank (kind_of_isPiece hpiece fun rest => by rw [extent_blank hb])
      have hall : (l.text.toList ++ chars ls).all isBlank = false := by simp [hc, hfirst]
      have hremark : isRemark (l.text.toList ++ chars ls) = (c == ';') := by
        simp [isRemark, hc, hfirst]
      rw [if_neg hblank, hall, hremark]
      by_cases hcomment : l.kind = .comment
      · obtain rfl := eq_nil_of_comment ⟨(cut_iff_isPiece _ _).mpr hl, hls⟩ hcomment hline.2
        obtain rfl := (head_eq_iff_of_isPiece hpiece).mpr hcomment
        rw [hcomment]
        cases s <;> first | rfl | exact absurd rfl hs
      · have hmark : (c == ';') = false :=
          beq_eq_false_iff_ne.mpr (mt (head_eq_iff_of_isPiece hpiece).mp hcomment)
        have hnext : s.next l.kind = .line := by
          cases s <;> simp [Spot.next, hends, hcomment]
        rw [hnext, behind_line hls hline.2, hmark]
        rfl

theorem behind_append (s : Spot) (ls ms : List Lexeme) :
    s.behind (ls ++ ms) = (s.behind ls).behind ms := List.foldl_append

theorem inked_append_cons (ls ms : List Lexeme) (hn : n.kind = .newline) :
    inked (ls ++ n :: ms) = inked ls ++ n :: inked ms := by
  simp [inked, hn]

theorem scan_newline (ds : List Char) : scan ('\n' :: ds) = ⟨.newline, "\n"⟩ :: scan ds := by
  rw [scan_cons]
  rfl

theorem next_newline_next (s : Spot) : (s.next .newline).next .newline = s.next .newline := by
  cases s <;> rfl

/-- Before the line break at the end of a line are the pieces of the line. -/
theorem chars_of_line {line : List Char} {c : Char} (hline : ∀ d ∈ line, ¬isLineBreak d)
    (h : scan (line ++ [c]) = pre ++ [n]) (hn : n.kind = .newline) : chars pre = line := by
  have hchars : chars pre ++ n.text.toList = line ++ [c] := by
    simpa [h, chars_append] using chars_scan (line ++ [c])
  have hpiece := ((segmentation_iff _ _).mpr h.symm).isPiece pre n [] rfl
  rw [hn] at hpiece
  rcases hpiece with htext | htext | ⟨htext, -⟩
  · rw [htext, List.append_cons] at hchars
    obtain ⟨hline', -⟩ := List.append_singleton_inj.mp hchars
    exact (hline '\r' (by simp [← hline']) rfl).elim
  · rw [htext] at hchars
    exact (List.append_singleton_inj.mp hchars).1
  · rw [htext] at hchars
    exact (List.append_singleton_inj.mp hchars).1

/-- Where the pieces of a text that ends in a line break lead to, the text behind it begins. -/
theorem behind_scan_append (s : Spot) (h : Broken cs) (ds : List Char) :
    s.behind (inked (scan (cs ++ ds))) = (s.behind (inked (scan cs))).behind (inked (scan ds)) := by
  obtain ⟨pre, n, n', ds', hscan, hn, hn', happend, hds⟩ := exists_scan_append h ds
  have hfirst : s.behind (inked (scan cs)) = (s.behind (inked pre)).next .newline := by
    rw [hscan, inked_append_cons pre [] hn, behind_append, ← hn]
    rfl
  have hall : s.behind (inked (scan (cs ++ ds))) =
      ((s.behind (inked pre)).next .newline).behind (inked (scan ds')) := by
    rw [happend, inked_append_cons pre _ hn', behind_append, ← hn']
    rfl
  rw [hfirst, hall]
  obtain rfl | rfl := hds
  · rfl
  · rw [scan_newline, behind_inked_cons, if_neg (by simp), next_newline_next]

/-- What one line leads to: what it had before if the line is blank. -/
theorem behind_scan_line {s : Spot} (hs : s = .blank ∨ s = .told) {line : List Char} {c : Char}
    (hc : isLineBreak c) (hline : ∀ d ∈ line, ¬isLineBreak d) :
    s.behind (inked (scan (line ++ [c]))) =
      if line.all isBlank then s else if isRemark line then .told else .blank := by
  have hbroken : Broken (line ++ [c]) := ⟨c, by simp, hc⟩
  obtain ⟨pre, n, hscan, hn, hcuts⟩ := exists_scan_broken hbroken
  have hpre := chars_of_line hline hscan hn
  have hnot : s ≠ .line := by rcases hs with rfl | rfl <;> simp
  have hnext : s.next .newline = s := by rcases hs with rfl | rfl <;> rfl
  rw [hscan, inked_append_cons pre [] hn, behind_append,
    behind_outside hnot hcuts (hpre.symm ▸ hline), hpre]
  change Spot.next _ n.kind = _
  rw [hn]
  split_ifs
  · exact hnext
  · rfl
  · rfl

/-- What the lines of a text lead to. -/
theorem behind_broken {s : Spot} (hs : s = .blank ∨ s = .told) (h : cs = [] ∨ Broken cs) :
    s.behind (inked (scan cs)) = match lastWritten? cs with
      | none => s
      | some line => if isRemark line then .told else .blank := by
  induction hlen : cs.length using Nat.strong_induction_on generalizing s cs with
  | _ len ih =>
    obtain rfl | h := h
    · rfl
    obtain ⟨line, c, rest, rfl, hc, hline, hrest⟩ := h.exists_line
    have hbroken : Broken (line ++ [c]) := ⟨c, by simp, hc⟩
    have hfirst := behind_scan_line hs hc hline
    have hspot : s.behind (inked (scan (line ++ [c]))) = .blank ∨
        s.behind (inked (scan (line ++ [c]))) = .told := by
      rw [hfirst]
      split_ifs
      · exact hs
      · exact .inr rfl
      · exact .inl rfl
    have hshort : rest.length < len := by
      rw [← hlen]
      simp
      omega
    rw [List.append_cons, behind_scan_append s hbroken rest, ih _ hshort hspot hrest rfl,
      ← List.append_cons, lastWritten?_append_cons hc, lastWritten?_line hline, hfirst]
    cases lastWritten? rest with
    | some _ => rfl
    | none => cases line.all isBlank <;> rfl

end Lexeme

/-- Where texts may meet: at the end of a line, and if this is strict, not behind comments that no
statement follows. -/
def Spot.Meets (strict : Bool) (s : Spot) : Prop := s = .blank ∨ strict = false ∧ s = .told

namespace Lexeme

/-- The pieces `ms` of several texts are the pieces `ls` of one, but for marks and line breaks where
texts meet. -/
inductive Joins (strict : Bool) : Spot → List Lexeme → List Lexeme → Prop
  | nil {s : Spot} : Joins strict s [] []
  | both {s : Spot} {l m : Lexeme} {ls ms : List Lexeme} (hl : l.Same m)
    (h : Joins strict (s.next l.kind) ls ms) : Joins strict s (l :: ls) (m :: ms)
  | seam {s : Spot} {m : Lexeme} {ls ms : List Lexeme} (hs : s.Meets strict)
    (hm : m.kind = .newline ∨ m.kind = .endOfSource) (h : Joins strict s ls ms) :
    Joins strict s ls (m :: ms)

variable {strict : Bool} {s : Spot}

theorem Joins.append (xs : List Lexeme) (h : Joins strict (s.behind xs) ls ms) :
    Joins strict s (xs ++ ls) (xs ++ ms) := by
  induction xs generalizing s with
  | nil => exact h
  | cons x xs ih => exact .both .rfl (ih h)

theorem Joins.refl (ls : List Lexeme) : Joins strict s ls ls := by
  have h : Joins strict (s.behind ls) [] [] := .nil
  simpa using h.append ls

theorem Joins.concat {m : Lexeme} (h : Joins strict s ls ms) (hl : l.Same m) :
    Joins strict s (ls ++ [l]) (ms ++ [m]) := by
  induction h with
  | nil => exact .both hl .nil
  | both hl' h ih => exact .both hl' ih
  | seam hs hm h ih => exact .seam hs hm ih

theorem next_of_meets (hs : s.Meets strict) {k : Kind} (hk : k = .newline ∨ k = .endOfSource) :
    s.next k = s := by
  rcases hs with rfl | ⟨-, rfl⟩ <;> rcases hk with rfl | rfl <;> rfl

/-- A line break more does not matter where texts meet. -/
theorem Joins.of_newline (hs : s.Meets strict) (hn : n.kind = .newline)
    (h : Joins strict s (n :: ls) ms) : Joins strict s ls ms := by
  generalize hall : n :: ls = all at h
  induction h with
  | nil => cases hall
  | both hl h =>
    cases hall
    rw [next_of_meets hs (.inl hn)] at h
    exact .seam hs (.inl (hl.kind.trans hn)) h
  | seam hs' hm h ih => exact .seam hs' hm (ih hs hall)

/-- Texts may meet behind a line break, if no remark that describes nothing stands before it. -/
theorem meets_behind (hs : strict → s = .start ∨ s = .blank) (h : Broken cs)
    (hlast : strict → ∀ line ∈ lastWritten? cs, isRemark line = false) :
    (s.behind (inked (scan cs))).Meets strict := by
  obtain ⟨pre, n, hscan, hn, -⟩ := exists_scan_broken h
  have hpieces : inked (scan cs) = inked pre ++ [n] := by
    rw [hscan, inked_append_cons pre [] hn]
    rfl
  cases strict with
  | false =>
    have hnext (s : Spot) : s.next .newline = .blank ∨ s.next .newline = .told := by
      cases s <;> simp [Spot.next, Kind.endsLine]
    rw [hpieces, behind_append]
    change Spot.Meets false (Spot.next _ n.kind)
    rw [hn]
    exact (hnext _).imp_right fun h => ⟨rfl, h⟩
  | true =>
    have hblank : s.behind (inked (scan cs)) = Spot.blank.behind (inked (scan cs)) := by
      rcases hs rfl with rfl | rfl
      · rw [hpieces]
        cases inked pre <;> rfl
      · rfl
    rw [hblank, behind_broken (.inl rfl) (.inr h)]
    have hremark := hlast rfl
    cases hline : lastWritten? cs with
    | none => exact .inl rfl
    | some line =>
      simp only [hremark line hline]
      exact .inl rfl

/-- Several texts have the pieces of their concatenation, but where they meet. -/
theorem joins_ofSourcesFrom {texts : List String} (hs : strict → s = .start ∨ s = .blank)
    (hbroken : ∀ text ∈ texts.dropLast, Broken text.toList)
    (hlast : strict → ∀ text ∈ texts.dropLast, ∀ line ∈ lastWritten? text.toList,
      isRemark line = false) (source : Nat) :
    Joins strict s (inked (scan (texts.flatMap String.toList)))
      ((TokenStream.ofSourcesFrom source texts).tokens.map Token.lexeme) := by
  induction texts generalizing s source with
  | nil => exact .nil
  | cons text texts ih =>
    cases texts with
    | nil =>
      rw [List.flatMap_singleton, ← TokenStream.map_lexeme_visible source]
      exact .refl _
    | cons text' texts =>
      rw [List.dropLast_cons_of_ne_nil (List.cons_ne_nil _ _)] at hbroken hlast
      obtain ⟨hbroken, hbrokens⟩ := List.forall_mem_cons.mp hbroken
      have hmeets := meets_behind hs hbroken fun h => hlast h text List.mem_cons_self
      have hrest := ih (s := s.behind (inked (scan text.toList)))
        (fun h => hmeets.imp_right (fun hm => absurd (h.symm.trans hm.1) (by simp)) |>.symm)
        hbrokens (fun h text' ht => hlast h text' (List.mem_cons_of_mem _ ht)) (source + 1)
      obtain ⟨pre, n, n', ds', hscan, hn, hn', happend, hds⟩ :=
        exists_scan_append hbroken ((text' :: texts).flatMap String.toList)
      have hspot : s.behind (inked (scan text.toList)) = (s.behind (inked pre)).next n'.kind := by
        rw [hscan, inked_append_cons pre [] hn, behind_append, hn', ← hn]
        rfl
      rw [hspot] at hmeets hrest
      rw [TokenStream.ofSourcesFrom, List.map_append, TokenStream.map_lexeme_visible,
        List.flatMap_cons, happend, hscan, inked_append_cons pre _ hn', inked_append_cons pre _ hn,
        List.append_assoc]
      · refine .append _ (.both ⟨hn.trans hn'.symm, fun h => absurd hn' h⟩ ?_)
        refine .seam hmeets (.inr rfl) ?_
        obtain rfl | hds := hds
        · exact hrest
        · rw [hds, scan_newline, inked_cons _ rfl] at hrest
          exact hrest.of_newline hmeets rfl
      · simp

end Lexeme
end KnittingPattern
