import KnittingPattern.Proofs.SameLexemes
import KnittingPattern.Proofs.TextSeams

/-! # Texts with other blanks

Blanks between the tokens of a line may be any run of blanks, and at the beginning of a line there
may be any or none.  No token is cut or joined by that, nor becomes part of a comment; only between
a carriage return and a line feed a run of blanks has to stay, or both would be one line break.  So
the tokens stay the same, and the text is read and knitted alike.  Main theorems:
`Lexeme.Respaced.keeps`, `Compilation.states_respaced`. -/

namespace KnittingPattern

open Token (Kind)

namespace Lexeme

/-- A run of blanks that is not empty. -/
structure Blanks (cs : List Char) : Prop where
  nonempty : cs ≠ []
  all : ∀ c ∈ cs, Blank c

/-- A line begins behind nothing and behind a line break. -/
def BeginsLine (before : Option Lexeme) : Prop := ∀ l ∈ before, l.kind = .newline

/-- The characters are those of the lexemes behind another one, but for blanks. -/
inductive Respaced : Option Lexeme → List Lexeme → List Char → Prop
  | nil {before : Option Lexeme} : Respaced before [] []
  /-- What is no blank stays. -/
  | keep {before : Option Lexeme} {l : Lexeme} {ls : List Lexeme} {cs : List Char}
    (hl : l.kind ≠ .whitespace) (h : Respaced (some l) ls cs) :
    Respaced before (l :: ls) (l.text.toList ++ cs)
  /-- Blanks become any run of blanks. -/
  | replace {before : Option Lexeme} {l : Lexeme} {ls : List Lexeme} {cs run : List Char}
    (hl : l.kind = .whitespace) (hrun : Blanks run) (h : Respaced (some l) ls cs) :
    Respaced before (l :: ls) (run ++ cs)
  /-- At the beginning of a line, blanks are added. -/
  | add {before : Option Lexeme} {ls : List Lexeme} {cs run : List Char}
    (hb : BeginsLine before) (hrun : Blanks run)
    (h : Respaced (some ⟨.whitespace, String.ofList run⟩) ls cs) : Respaced before ls (run ++ cs)
  /-- At the beginning of a line, blanks are left out, unless they stand between a carriage return
  and a line feed. -/
  | remove {before : Option Lexeme} {l : Lexeme} {ls : List Lexeme} {cs : List Char}
    (hb : BeginsLine before) (hl : l.kind = .whitespace)
    (hfeed : (∃ n ∈ before, n.text = "\r") → ∀ m ∈ ls.head?, m.text ≠ "\n")
    (h : Respaced (some l) ls cs) : Respaced before (l :: ls) cs

variable {before : Option Lexeme} {l : Lexeme} {ls : List Lexeme} {cs run after : List Char}
  {k : Kind}

theorem Blanks.head (h : Blanks run) : ∀ b ∈ (run ++ cs).head?, Blank b := by
  obtain ⟨b, rest, rfl⟩ := List.exists_cons_of_ne_nil h.nonempty
  rintro c ⟨⟩
  exact h.all b List.mem_cons_self

theorem blanks_of_cut (h : l.Cut after) (hl : l.kind = .whitespace) : Blanks l.text.toList := by
  rw [cut_iff_isPiece, hl] at h
  exact ⟨h.1, h.2.all⟩

/-- No piece but blanks and comments goes on with a blank. -/
theorem not_goesOn_blank {b : Char} (hb : Blank b) (hk : k ≠ .whitespace) (hc : k ≠ .comment) :
    ¬GoesOn k cs b := by
  cases k with
  | whitespace | comment => contradiction
  | newline =>
    rintro ⟨-, rfl⟩
    exact absurd hb (by decide)
  | identifier => exact fun hname => (not_blank_figure_of_name hname).1 hb
  | number => exact not_figure_of_blank hb
  | illegal =>
    rintro ⟨-, rfl⟩
    exact absurd hb (by decide)
  | _ => exact not_false

/-- A comment goes on with blanks, to the end of its line. -/
theorem goesOn_comment_blank {b : Char} (hb : Blank b) : GoesOn .comment cs b := by
  constructor
  · rintro rfl
    exact absurd hb (by decide)
  · rintro rfl
    exact absurd hb (by decide)

theorem cut_before_blanks (h : l.Cut after) (hk : l.kind ≠ .whitespace) (hc : l.kind ≠ .comment)
    (hrun : Blanks run) : l.Cut (run ++ cs) := by
  rw [cut_iff_isPiece] at h ⊢
  exact h.before fun b hb => not_goesOn_blank (hrun.head b hb) hk hc

theorem ne_comment_of_cut_blanks (h : l.Cut (run ++ cs)) (hrun : Blanks run) :
    l.kind ≠ .comment := by
  intro hl
  rw [cut_iff_isPiece, hl] at h
  obtain ⟨b, rest, rfl⟩ := List.exists_cons_of_ne_nil hrun.nonempty
  exact h.ends b rfl (goesOn_comment_blank (hrun.all b List.mem_cons_self))

/-- Blanks at the beginning of a text make no difference to the other lexemes. -/
theorem inked_scan_dropWhile (cs : List Char) :
    inked (scan (cs.dropWhile isBlank)) = inked (scan cs) := by
  cases cs with
  | nil => rfl
  | cons c cs =>
    by_cases hc : isBlank c
    · have hsplit := List.takeWhile_append_dropWhile (p := isBlank) (l := cs)
      have hdrop : cs.drop (cs.takeWhile isBlank).length = cs.dropWhile isBlank := by
        calc cs.drop (cs.takeWhile isBlank).length
            = (cs.takeWhile isBlank ++ cs.dropWhile isBlank).drop (cs.takeWhile isBlank).length := by
              rw [hsplit]
          _ = cs.dropWhile isBlank := List.drop_left
      rw [scan_cons, extent_blank hc, inked_cons_of_blank _ rfl, List.dropWhile_cons_of_pos hc, hdrop]
    · rw [List.dropWhile_cons_of_neg hc]

theorem inked_scan_blanks (h : Blanks run) (cs : List Char) :
    inked (scan (run ++ cs)) = inked (scan cs) := by
  have hall : ∀ c ∈ run, isBlank c := fun c hc => (isBlank_iff c).mpr (h.all c hc)
  rw [← inked_scan_dropWhile, List.dropWhile_append_of_pos hall, inked_scan_dropWhile]

/-- A piece stays the first one in front of any text that it is cut off from. -/
theorem scan_append (h : l.Cut cs) : scan (l.text.toList ++ cs) = l :: scan cs := by
  have hcuts : Cuts (l :: scan cs) := ⟨by rwa [chars_scan], cuts_scan cs⟩
  have hscan := scan_chars hcuts
  rwa [chars_cons, chars_scan] at hscan

theorem head?_append_of_cut (h : l.Cut after) (cs : List Char) :
    (l.text.toList ++ cs).head? = l.text.toList.head? := by
  obtain ⟨c, ds, hl, -⟩ := h
  rw [hl]
  rfl

/-- A line feed begins no other piece than the line break that is it. -/
theorem text_eq_of_head_feed (h : l.Cut after) (hfeed : '\n' ∈ l.text.toList.head?) :
    l.text = "\n" := by
  rw [cut_iff_isPiece] at h
  rw [newline_of_isPiece h hfeed rfl] at h
  rcases h with h | h | ⟨h, -⟩
  · simp [h] at hfeed
  · exact String.toList_inj.mp h
  · simp [h] at hfeed

/-- Where blanks are left out before no line feed, none begins the text. -/
theorem Respaced.head_ne_feed (h : Respaced (some l) ls cs) (hl : l.kind = .whitespace)
    (hcuts : Cuts ls) (hfeed : ∀ m ∈ ls.head?, m.text ≠ "\n") : '\n' ∉ cs.head? := by
  intro hhead
  cases h with
  | nil => cases hhead
  | keep hm h =>
    rw [head?_append_of_cut hcuts.1] at hhead
    exact hfeed _ rfl (text_eq_of_head_feed hcuts.1 hhead)
  | replace hm hrun h =>
    exact absurd (hrun.head _ hhead) (by decide)
  | add hb => cases hl.symm.trans (hb l rfl)
  | remove hb => cases hl.symm.trans (hb l rfl)

/-- With other blanks, a text has the same lexemes but for the blanks, and what is before it is a
lexeme as before. -/
theorem Respaced.keeps (h : Respaced before ls cs) (hcuts : Cuts ls) :
    inked (scan cs) = inked ls ∧
      ∀ p ∈ before, p.kind ≠ .whitespace → p.Cut (chars ls) → p.Cut cs := by
  induction h with
  | nil => exact ⟨rfl, fun p _ _ hp => hp⟩
  | @keep before l ls cs hl h ih =>
    obtain ⟨hsame, hbefore⟩ := ih hcuts.2
    have hcut : l.Cut cs := hbefore l rfl hl hcuts.1
    refine ⟨?_, fun p _ _ hp => ?_⟩
    · rw [scan_append hcut, inked_cons _ (bne_iff_ne.mpr hl), hsame,
        inked_cons _ (bne_iff_ne.mpr hl)]
    · rw [cut_iff_isPiece] at hp ⊢
      refine isPiece_congr ?_ hp
      rw [chars_cons, head?_append_of_cut hcut, head?_append_of_cut hcut]
  | @replace before l ls cs run hl hrun h ih =>
    obtain ⟨hsame, -⟩ := ih hcuts.2
    refine ⟨?_, fun p _ hk hp => ?_⟩
    · rw [inked_scan_blanks hrun, hsame, inked_cons_of_blank _ hl]
    · have hcomment := ne_comment_of_cut_blanks hp (blanks_of_cut hcuts.1 hl)
      exact cut_before_blanks hp hk hcomment hrun
  | add hb hrun h ih =>
    obtain ⟨hsame, -⟩ := ih hcuts
    refine ⟨?_, fun p hp hk hcut => ?_⟩
    · rw [inked_scan_blanks hrun, hsame]
    · exact cut_before_blanks hcut hk (by simp [hb p hp]) hrun
  | remove hb hl hfeed h ih =>
    obtain ⟨hsame, -⟩ := ih hcuts.2
    refine ⟨?_, fun p hp hk hcut => ?_⟩
    · rw [hsame, inked_cons_of_blank _ hl]
    · rw [cut_iff_isPiece, hb p hp] at hcut ⊢
      refine hcut.before fun c hc hgoes => ?_
      obtain ⟨hreturn, rfl⟩ := hgoes
      exact h.head_ne_feed hl hcuts.2 (hfeed ⟨p, hp, String.toList_inj.mp hreturn⟩) hc

end Lexeme

/-- A text with other blanks between the tokens of its lines, and with more or less of them at the
beginnings of lines. -/
def Text.Respaced (text text' : String) : Prop :=
  Lexeme.Respaced none (Lexeme.scan text.toList) text'.toList

/-- Blanks do not matter: a text with other blanks has the same tokens but for positions, and is
read as the same tree or with the same error, but for positions.  Both have the same states or the
same error but for its position. -/
theorem Compilation.states_respaced {text text' : String} (h : Text.Respaced text text')
    (source : Nat) :
    (TokenStream.visible source text').map Token.lexeme =
      (TokenStream.visible source text).map Token.lexeme ∧
    SyntaxError.Agree Block.Same (Pattern.ofText text) (Pattern.ofText text') ∧
    ∀ b b', Pattern.ofText text = .ok b → Pattern.ofText text' = .ok b' →
      (∃ e e', states b = .error (.badLayout e) ∧ states b' = .error (.badLayout e') ∧
        e'.plain = e.plain) ∨
      ∃ ss, states b = .ok ss ∧ states b' = .ok ss := by
  have htokens (source : Nat) : (TokenStream.visible source text').map Token.lexeme =
      (TokenStream.visible source text).map Token.lexeme := by
    rw [TokenStream.map_lexeme_visible, TokenStream.map_lexeme_visible]
    exact (h.keeps (Lexeme.cuts_scan _)).1
  have hagree := Pattern.agree_ofText (htokens 0)
  refine ⟨htokens source, hagree, fun b b' hb hb' => ?_⟩
  rw [hb, hb'] at hagree
  cases hagree with
  | ok hsame => exact states_same hsame

/-- Without the blank between them a carriage return and a line feed are one line break. -/
example : (TokenStream.visible 0 "k\r\np").map Token.lexeme ≠
    (TokenStream.visible 0 "k\r \np").map Token.lexeme := by decide

/-- A row, and another one under a comment. -/
def Block.indented : Block :=
  ⟨[.row [.stitch ⟨1, 3⟩ ⟨⟨1, 3⟩, "k"⟩ [],
      .stitch ⟨1, 5⟩ ⟨⟨1, 5⟩, "p"⟩ [.size ⟨⟨1, 7⟩, .whole 2, .centimetres, false⟩]] [] .none,
    .row [.stitch ⟨4, 1⟩ ⟨⟨4, 1⟩, "yo"⟩ []] [] ⟨[⟨⟨3, 1⟩, "; c"⟩]⟩], ⟨1, 3⟩, ⟨4, 2⟩, .none⟩

/-- The blanks before a row are left out, those in it and behind its carriage return are others, and
before a comment there are some. -/
theorem Compilation.states_respaced_twoRows :
    Text.Respaced "  k p(2\tcm)\r \n; c\nyo" "k\t \x0cp(2 cm)\r\t\n  ; c\nyo" ∧
    Pattern.ofText "  k p(2\tcm)\r \n; c\nyo" = .ok Block.indented ∧
    ∃ b ss, Pattern.ofText "k\t \x0cp(2 cm)\r\t\n  ; c\nyo" = .ok b ∧
      Block.indented.Same b ∧ states Block.indented = .ok ss ∧
      states b = .ok ss := by
  have h : Text.Respaced "  k p(2\tcm)\r \n; c\nyo" "k\t \x0cp(2 cm)\r\t\n  ; c\nyo" := by
    have hscan : Lexeme.scan "  k p(2\tcm)\r \n; c\nyo".toList =
        [⟨.whitespace, "  "⟩, ⟨.identifier, "k"⟩, ⟨.whitespace, " "⟩, ⟨.identifier, "p"⟩,
          ⟨.leftParen, "("⟩, ⟨.number, "2"⟩, ⟨.whitespace, "\t"⟩, ⟨.identifier, "cm"⟩,
          ⟨.rightParen, ")"⟩, ⟨.newline, "\r"⟩, ⟨.whitespace, " "⟩, ⟨.newline, "\n"⟩,
          ⟨.comment, "; c"⟩, ⟨.newline, "\n"⟩, ⟨.identifier, "yo"⟩] := by
      decide +kernel
    have hchars : "k\t \x0cp(2 cm)\r\t\n  ; c\nyo".toList =
        "k".toList ++ ("\t \x0c".toList ++ ("p".toList ++ ("(".toList ++ ("2".toList ++
          (" ".toList ++ ("cm".toList ++ (")".toList ++ ("\r".toList ++ ("\t".toList ++
          ("\n".toList ++ ("  ".toList ++ ("; c".toList ++ ("\n".toList ++
          ("yo".toList ++ [])))))))))))))) := by
      decide +kernel
    have hblanks (run : String) (hrun : run.toList ≠ [] ∧ run.toList.all Lexeme.isBlank) :
        Lexeme.Blanks run.toList :=
      ⟨hrun.1, fun c hc => (Lexeme.isBlank_iff c).mp (List.all_eq_true.mp hrun.2 c hc)⟩
    rw [Text.Respaced, hscan, hchars]
    refine .remove (by simp [Lexeme.BeginsLine]) rfl (by simp) ?_
    refine .keep (by decide) (.replace rfl (hblanks _ (by decide)) ?_)
    refine .keep (by decide) (.keep (by decide) (.keep (by decide) ?_))
    refine .replace rfl (hblanks _ (by decide)) (.keep (by decide) (.keep (by decide) ?_))
    refine .keep (by decide) (.replace rfl (hblanks _ (by decide)) (.keep (by decide) ?_))
    refine .add (by simp [Lexeme.BeginsLine]) (hblanks _ (by decide)) ?_
    exact .keep (by decide) (.keep (by decide) (.keep (by decide) .nil))
  have hread : Pattern.ofText "  k p(2\tcm)\r \n; c\nyo" = .ok Block.indented := rfl
  obtain ⟨-, hagree, hstates⟩ := states_respaced h 0
  rw [hread] at hagree
  generalize hb : Pattern.ofText "k\t \x0cp(2 cm)\r\t\n  ; c\nyo" = x at hagree
  cases hagree with
  | ok hsame =>
    obtain ⟨e, -, he, -⟩ | ⟨ss, hss, hss'⟩ := hstates _ _ hread hb
    · cases he
    · exact ⟨h, hread, _, ss, rfl, hsame, hss, hss'⟩

end KnittingPattern
