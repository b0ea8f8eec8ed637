import KnittingPattern.Proofs.CommentRuns
import KnittingPattern.Proofs.LineReading

/-! # What comments describe

A statement is described by the comments before it, and by one behind it in its line.  Comments that
no statement follows are left out.  `Token.Told` says so of a row of tokens and the statements read
from it.  Within the line of a statement its description stays.  Main definition: `Token.Told`. -/

namespace KnittingPattern

open Token (Kind)

namespace Token

/-- No token of its line stands before the next token. -/
def LineStarts (ts : List Token) : Prop := ∀ t ∈ ts.getLast?, t.kind.endsLine

/-- Tokens of a line, the first of which is of one of these kinds. -/
structure Words (first : Kind → Prop) (ts : List Token) : Prop where
  head : ∃ t ∈ ts.head?, first t.kind
  all : ∀ t ∈ ts, t.kind.isInLine

/-- Tokens that begin a statement. -/
abbrev Begins : List Token → Prop := Words fun k => k = .identifier ∨ k = .leftBrace

/-- Tokens that end a group. -/
abbrev Closes : List Token → Prop := Words fun k => k = .rightBrace

/-- Tokens, the statements they are, and the tokens behind the last statement.  The tokens before a
statement and a comment behind it make its description. -/
inductive Told : List Token → List Stmt → List Token → Prop
  | start : Told [] [] []
  | gap {ts : List Token} {ss : List Stmt} {gap : List Token} {t : Token} (h : Told ts ss gap)
    (ht : t.kind.isGap) (alone : t.kind = .comment → LineStarts ts) :
    Told (ts ++ [t]) ss (gap ++ [t])
  | line {ts : List Token} {ss : List Stmt} {gap words : List Token} {s : Stmt}
    {trailing : Option Token} (h : Told ts ss gap) (hw : Begins words) (hs : s.lines = [])
    (ht : ∀ c ∈ trailing, c.kind = .comment)
    (hd : s.desc.comments = lead gap ++ trailing.toList.map Reader.comment) :
    Told (ts ++ (words ++ trailing.toList)) (ss ++ [s]) []
  | group {ts : List Token} {ss : List Stmt} {gap head body dropped tail : List Token} {n : Token}
    {s : Stmt} {trailing : Option Token} (h : Told ts ss gap) (hw : Begins head)
    (hn : n.kind = .newline) (hb : Told body s.lines dropped) (hc : Closes tail)
    (ht : ∀ c ∈ trailing, c.kind = .comment)
    (hd : s.desc.comments = lead gap ++ trailing.toList.map Reader.comment) :
    Told (ts ++ (head ++ n :: (body ++ tail) ++ trailing.toList)) (ss ++ [s]) []

/-- The tokens of a statement without a comment behind it, and the statements within it. -/
inductive Line : List Token → List Stmt → Prop
  | words {words : List Token} (hw : Begins words) : Line words []
  | group {head body dropped tail : List Token} {n : Token} {lines : List Stmt} (hw : Begins head)
    (hn : n.kind = .newline) (hb : Told body lines dropped) (hc : Closes tail) :
    Line (head ++ n :: (body ++ tail)) lines

variable {ts line gap : List Token} {ss lines : List Stmt} {t : Token} {first : Kind → Prop}

theorem Words.concat (h : Words first ts) (ht : t.kind.isInLine) : Words first (ts ++ [t]) := by
  obtain ⟨⟨u, hu, hfirst⟩, hall⟩ := h
  refine ⟨⟨u, ?_, hfirst⟩, List.forall_mem_append.mpr ⟨hall, by simpa using ht⟩⟩
  rw [List.head?_append, Option.mem_def.mp hu]
  rfl

theorem Line.concat (h : Line line lines) (ht : t.kind.isInLine) : Line (line ++ [t]) lines := by
  cases h with
  | words hw => exact .words (hw.concat ht)
  | group hw hn hb hc =>
    have := Line.group hw hn hb (hc.concat ht)
    simpa using this

theorem Told.statement {s : Stmt} {trailing : Option Token} (h : Told ts ss gap)
    (hl : Line line s.lines) (ht : ∀ c ∈ trailing, c.kind = .comment)
    (hd : s.desc.comments = lead gap ++ trailing.toList.map Reader.comment) :
    Told (ts ++ (line ++ trailing.toList)) (ss ++ [s]) [] := by
  generalize hs : s.lines = lines at hl
  cases hl with
  | words hw => exact .line h hw hs ht hd
  | group hw hn hb hc =>
    subst hs
    exact .group h hw hn hb hc ht hd

/-- Tokens, the groups that are open behind them, and the statements and the last tokens in the
innermost one. -/
inductive Stands : List Token → List OpenGroup → List Stmt → List Token → Prop
  | outside {ts : List Token} {ss : List Stmt} {gap : List Token} (h : Told ts ss gap) :
    Stands ts [] ss gap
  | inside {ts head body gap inner : List Token} {n : Token} {g : OpenGroup}
    {groups : List OpenGroup} {ss : List Stmt} (h : Stands ts groups g.before gap)
    (hw : Begins head) (hn : n.kind = .newline) (hd : g.desc.comments = lead gap)
    (hb : Told body ss inner) : Stands (ts ++ (head ++ n :: body)) (g :: groups) ss inner

namespace Stands

variable {groups : List OpenGroup}

theorem token (h : Stands ts groups ss gap) (ht : t.kind.isGap)
    (alone : t.kind = .comment → LineStarts ts) : Stands (ts ++ [t]) groups ss (gap ++ [t]) := by
  cases h with
  | outside h => exact .outside (h.gap ht alone)
  | @inside ts head body _ _ n g _ _ h hw hn hd hb =>
    have hb := hb.gap ht fun hc => ?_
    · simpa using Stands.inside h hw hn hd hb
    · intro u hu
      refine alone hc u ?_
      have hne : body ≠ [] := by
        rintro rfl
        cases hu
      simp [List.getLast?_append, List.getLast?_cons, Option.mem_def.mp hu]

theorem statement {s : Stmt} (trailing : Option Token) (h : Stands ts groups ss gap)
    (hl : Line line s.lines) (ht : ∀ c ∈ trailing, c.kind = .comment)
    (hd : s.desc.comments = lead gap ++ trailing.toList.map Reader.comment) :
    Stands (ts ++ (line ++ trailing.toList)) groups (ss ++ [s]) [] := by
  cases h with
  | outside h => exact .outside (h.statement hl ht hd)
  | inside h hw hn hg hb => simpa using Stands.inside h hw hn hg (hb.statement hl ht hd)

end Stands
end Token

end KnittingPattern
