import KnittingPattern.Proofs.LexemeCuts

/-! # Writing patterns

The text of a pattern: one line for each statement, blanks between the elements of a row, commas in
bracket lists.  An empty bracket list may be written or left out.  The lexemes of the text are those
it is written with.  Main theorem: `Block.scan_text`. -/

namespace KnittingPattern

open Token (Kind)
open Lexeme (chars Cut Cuts)

namespace Lexeme

/-- The signs that are always written in the same way. -/
def signText : Kind → String
  | .whitespace => " "
  | .newline => "\n"
  | .minus => "-"
  | .asterisk => "*"
  | .feet => "'"
  | .inches => "\""
  | .comma => ","
  | .leftParen => "("
  | .rightParen => ")"
  | .leftBrace => "\x7b"
  | .rightBrace => "\x7d"
  | .equals => "="
  | .becomes => ":="
  | _ => ""

def sign (k : Kind) : Lexeme := ⟨k, signText k⟩

def word (s : String) : Lexeme := ⟨.identifier, s⟩

def number (n : Nat) : Lexeme := ⟨.number, toString n⟩

end Lexeme

open Lexeme (sign word number)

/-- A measure, with a blank before it. -/
def Measure.written : Measure → List Lexeme
  | .millimetres => [sign .whitespace, word "mm"]
  | .centimetres => [sign .whitespace, word "cm"]
  | .inches => [sign .whitespace, sign .inches]
  | .feet => [sign .whitespace, sign .feet]
  | .count | .toEnd => []

def Amount.written : Amount → Lexeme
  | .whole n => number n.toNat
  | .named id => word id.name
  | .decimal _ | .unstated => sign .asterisk

def Size.written (s : Size) : List Lexeme :=
  (if s.before then [sign .minus] else []) ++ s.amount.written :: s.measure.written

def Expr.writtenArgument : Expr → List Lexeme
  | .ident id => [word id.name]
  | .size s => s.written
  | _ => []

def Expr.writtenArguments : List Expr → List Lexeme
  | [] => []
  | [a] => a.writtenArgument
  | a :: b :: as =>
    a.writtenArgument ++ sign .comma :: sign .whitespace :: writtenArguments (b :: as)

section

variable (explicit : Bool)

/-- A bracket list; an empty one only if asked for. -/
def Expr.writtenBrackets (as : List Expr) : List Lexeme :=
  if as.isEmpty && !explicit then []
  else sign .leftParen :: (Expr.writtenArguments as ++ [sign .rightParen])

/-- Something in braces, with a bracket list. -/
def Expr.writtenBraces (inner : List Lexeme) (as : List Expr) : List Lexeme :=
  sign .leftBrace :: (inner ++ sign .rightBrace :: Expr.writtenBrackets explicit as)

mutual

def Expr.writtenElement : Expr → List Lexeme
  | .stitch _ name args => word name.name :: Expr.writtenBrackets explicit args
  | .row es args => Expr.writtenBraces explicit (Expr.writtenElements es) args
  | _ => []

/-- The elements of a row, a blank between each two. -/
def Expr.writtenElements : List Expr → List Lexeme
  | [] => []
  | e :: es =>
    e.writtenElement ++ ((if es.isEmpty then [] else [sign .whitespace]) ++
      Expr.writtenElements es)

end

/-- The lines of a group, between line breaks. -/
def Stmt.writtenBody (lines : List Lexeme) : List Lexeme :=
  sign .newline :: if lines.isEmpty then [sign .newline] else lines

mutual

/-- What a name is defined as. -/
def Expr.writtenDefinition : Expr → List Lexeme
  | .row es args => Expr.writtenBraces explicit (Expr.writtenElements explicit es) args
  | .group _ _ args lines =>
    Expr.writtenBraces explicit (Stmt.writtenBody (Stmt.writtenLines lines)) args
  | _ => []

def Stmt.written : Stmt → List Lexeme
  | .synonym lhs rhs _ =>
    [word lhs.name, sign .whitespace, sign .becomes, sign .whitespace, word rhs.name]
  | .define lhs rhs _ =>
    word lhs.name :: sign .whitespace :: sign .equals :: sign .whitespace :: rhs.writtenDefinition
  | .row es args _ =>
    word "row" :: sign .whitespace ::
      Expr.writtenBraces explicit (Expr.writtenElements explicit es) args
  | .group _ _ args lines _ =>
    Expr.writtenBraces explicit (Stmt.writtenBody (Stmt.writtenLines lines)) args
  | .block _ _ _ _ => []

/-- Statements, each on its line. -/
def Stmt.writtenLines : List Stmt → List Lexeme
  | [] => []
  | s :: ss => s.written ++ sign .newline :: Stmt.writtenLines ss

end

/-- The text of a pattern. -/
def Block.text (b : Block) : String :=
  String.ofList (chars (Stmt.writtenLines explicit b.statements))

end

namespace Lexeme

/-- The classes of lexemes that a name or a number before them might go on with. -/
def joins : Kind → Bool
  | .identifier | .minus | .number => true
  | _ => false

/-- The classes of lexemes that take no character more than they have, whatever follows. -/
def isSign : Kind → Bool
  | .newline | .minus | .asterisk | .feet | .inches | .comma | .leftParen | .rightParen
  | .leftBrace | .rightBrace | .equals | .becomes => true
  | _ => false

/-- A name or a number is cut off before these lexemes. -/
def Loose (ls : List Lexeme) : Prop := ∀ l ∈ ls.head?, joins l.kind = false

/-- Before anything loose, these lexemes are cut off. -/
def Neat (ls : List Lexeme) : Prop := ∀ rest, Loose rest → Cuts rest → Cuts (ls ++ rest)

/-- The first of these lexemes is no blank. -/
def Inked (ls : List Lexeme) : Prop := ∃ l ls', ls = l :: ls' ∧ l.kind != .whitespace

variable {xs ys : List Lexeme}

theorem Loose.append (hx : Loose xs) (hy : Loose ys) : Loose (xs ++ ys) := by
  cases xs with
  | nil => exact hy
  | cons x xs => exact hx

theorem Loose.nil : Loose [] := by simp [Loose]

theorem Loose.cons {l : Lexeme} {ls : List Lexeme} (h : joins l.kind = false) :
    Loose (l :: ls) := by
  simpa [Loose] using h

theorem Neat.nil : Neat [] := fun _ _ h => h

theorem Neat.append (hx : Neat xs) (hy : Neat ys) (h : Loose ys) : Neat (xs ++ ys) := by
  intro rest hl hc
  rw [List.append_assoc]
  exact hx _ (h.append hl) (hy rest hl hc)

theorem cut_sign {k : Kind} (h : isSign k) (rest : List Char) : (sign k).Cut rest := by
  cases k
  case becomes => exact ⟨':', ['='], rfl, rfl⟩
  all_goals first
    | exact ⟨_, [], rfl, rfl⟩
    | cases h

theorem Neat.sign {k : Kind} (hx : Neat xs) (h : isSign k) : Neat (sign k :: xs) :=
  fun rest hl hc => ⟨cut_sign h _, hx rest hl hc⟩

/-- The characters that a first lexeme of this class may begin with. -/
theorem head_chars {ls : List Lexeme} (h : Cuts ls) {c : Char} (hc : (chars ls).head? = some c) :
    ∃ l cs, ls.head? = some l ∧ l.kind = (extent c cs).1 := by
  cases ls with
  | nil => cases hc
  | cons l ls =>
    obtain ⟨⟨d, ds, hl, hd⟩, _⟩ := h
    obtain rfl : d = c := by simpa [hl] using hc
    exact ⟨l, ds ++ chars ls, rfl, by rw [hd]⟩

theorem extent_namePart {c : Char} (h : isNamePart c) (rest : List Char) :
    (extent c rest).1 = .identifier ∨ (extent c rest).1 = .minus := by
  rcases (Bool.or_eq_true _ _).mp h with hl | hm
  · exact .inl (by rw [extent_letter hl])
  · obtain rfl : c = '-' := by simpa using hm
    exact .inr rfl

theorem Neat.word {s : String} (hs : isWord s) (hx : Neat xs) (hl : Loose xs) :
    Neat (word s :: xs) := by
  intro rest hr hc
  have hcuts := hx rest hr hc
  refine ⟨?_, hcuts⟩
  unfold isWord at hs
  split at hs
  · rename_i c cs h
    obtain ⟨hlet, hcs⟩ := (Bool.and_eq_true _ _).mp hs
    refine ⟨c, cs, h, ?_⟩
    rw [extent_letter hlet, length_takeWhile_append hcs]
    · rfl
    · intro d hd hp
      obtain ⟨l, ds, hlx, hk⟩ := head_chars hcuts hd
      have hloose := hl.append hr l hlx
      rcases extent_namePart hp ds with hx | hx
      · rw [hk.trans hx] at hloose
        cases hloose
      · rw [hk.trans hx] at hloose
        cases hloose
  · cases hs

theorem isNumberPart_of_isDigit {c : Char} (h : c.isDigit) : isNumberPart c := by
  simp only [Char.isDigit, Bool.and_eq_true, decide_eq_true_eq] at h
  simp only [isNumberPart, Bool.or_eq_true, Bool.and_eq_true, decide_eq_true_eq]
  exact .inl h

theorem Neat.number (n : Nat) (hx : Neat xs) (hl : Loose xs) : Neat (number n :: xs) := by
  intro rest hr hc
  have hcuts := hx rest hr hc
  refine ⟨?_, hcuts⟩
  have hds : ∀ c ∈ Nat.toDigits 10 n, isNumberPart c := fun c hc =>
    isNumberPart_of_isDigit (Nat.isDigit_of_mem_toDigits (by decide) (by decide) hc)
  cases h : Nat.toDigits 10 n with
  | nil => exact absurd h Nat.toDigits_ne_nil
  | cons c cs =>
    rw [h] at hds
    obtain ⟨hc, hcs⟩ := List.forall_mem_cons.mp hds
    refine ⟨c, cs, by simp [Lexeme.number, h], ?_⟩
    rw [extent_numberPart hc, length_takeWhile_append (by simpa using hcs)]
    · rfl
    · intro d hd hp
      obtain ⟨l, ds, hlx, hk⟩ := head_chars hcuts hd
      have hloose := hl.append hr l hlx
      rw [hk, extent_numberPart hp] at hloose
      cases hloose

theorem Neat.blank (hx : Neat xs) (hi : Inked xs) : Neat (Lexeme.sign .whitespace :: xs) := by
  intro rest hr hc
  have hcuts := hx rest hr hc
  refine ⟨⟨' ', [], rfl, ?_⟩, hcuts⟩
  have hb : ∀ d, (chars (xs ++ rest)).head? = some d → ¬isBlank d := by
    intro d hd hp
    obtain ⟨l, ds, hlx, hk⟩ := head_chars hcuts hd
    obtain ⟨l', ls, rfl, hl'⟩ := hi
    obtain rfl : l' = l := by simpa using hlx
    simp [hk, extent_blank hp] at hl'
  rw [extent_blank (by decide)]
  simpa [Lexeme.sign] using @length_takeWhile_append isBlank [] _ rfl hb

end Lexeme

open Lexeme (Neat Loose Inked)

theorem Measure.loose_written (m : Measure) : Loose m.written := by
  cases m <;> first | exact Loose.nil | exact Loose.cons rfl

theorem Measure.neat_written (m : Measure) : Neat m.written := by
  cases m with
  | millimetres | centimetres =>
    exact (Neat.nil.word rfl Loose.nil).blank ⟨_, [], rfl, rfl⟩
  | inches | feet => exact (Neat.nil.sign rfl).blank ⟨_, [], rfl, rfl⟩
  | count | toEnd => exact Neat.nil

theorem Size.neat_written {s : Size} (h : s.isWritten false) : Neat s.written := by
  have hm := s.measure.neat_written
  have hl := s.measure.loose_written
  have ha : Neat (s.amount.written :: s.measure.written) := by
    cases hs : s.amount with
    | whole n => exact hm.number n.toNat hl
    | decimal x => simp [isWritten, hs] at h
    | named id =>
      simp only [isWritten, hs, Bool.and_eq_true] at h
      exact hm.word h.1.1 hl
    | unstated => exact hm.sign rfl
  unfold written
  split
  · exact ha.sign rfl
  · exact ha

theorem Size.inked_written (s : Size) : Inked s.written := by
  unfold written
  split
  · exact ⟨_, _, rfl, rfl⟩
  · refine ⟨_, _, rfl, ?_⟩
    cases s.amount <;> rfl

namespace Expr

theorem neat_writtenArgument {a : Expr} (h : a.isArgument false) : Neat a.writtenArgument := by
  cases a with
  | ident id => exact Neat.nil.word h Loose.nil
  | size s => exact Size.neat_written h
  | _ => cases h

theorem inked_writtenArgument {a : Expr} (h : a.isArgument false) : Inked a.writtenArgument := by
  cases a with
  | ident id => exact ⟨_, _, rfl, rfl⟩
  | size s => exact s.inked_written
  | _ => cases h

theorem inked_append {xs ys : List Lexeme} (h : Inked xs) : Inked (xs ++ ys) := by
  obtain ⟨l, ls, rfl, hl⟩ := h
  exact ⟨l, ls ++ ys, rfl, hl⟩

theorem inked_writtenArguments {a : Expr} (as : List Expr) (h : a.isArgument false) :
    Inked (writtenArguments (a :: as)) := by
  cases as with
  | nil => exact inked_writtenArgument h
  | cons b as => exact inked_append (inked_writtenArgument h)

theorem neat_writtenArguments {as : List Expr} (h : as.all (isArgument false)) :
    Neat (writtenArguments as) := by
  induction as with
  | nil => exact Neat.nil
  | cons a as ih =>
    obtain ⟨ha, has⟩ := (Bool.and_eq_true _ _).mp h
    cases as with
    | nil => exact neat_writtenArgument ha
    | cons b as =>
      have hb := inked_writtenArguments as ((Bool.and_eq_true _ _).mp has).1
      exact (neat_writtenArgument ha).append (((ih has).blank hb).sign rfl) (Loose.cons rfl)

variable (explicit : Bool)

theorem loose_writtenBrackets (as : List Expr) : Loose (writtenBrackets explicit as) := by
  unfold writtenBrackets
  split
  · exact Loose.nil
  · exact Loose.cons rfl

theorem neat_writtenBrackets {as : List Expr} (h : as.all (isArgument false)) :
    Neat (writtenBrackets explicit as) := by
  unfold writtenBrackets
  split
  · exact Neat.nil
  · exact ((neat_writtenArguments h).append (Neat.nil.sign rfl) (Loose.cons rfl)).sign rfl

theorem neat_writtenBraces {inner : List Lexeme} (hi : Neat inner) {as : List Expr}
    (h : as.all (isArgument false)) : Neat (writtenBraces explicit inner as) :=
  (hi.append ((neat_writtenBrackets explicit h).sign rfl) (Loose.cons rfl)).sign rfl

theorem inked_writtenElement {e : Expr} (h : e.isElement false) :
    Inked (e.writtenElement explicit) := by
  cases e with
  | stitch p name as => exact ⟨_, _, rfl, rfl⟩
  | row es as => exact ⟨_, _, rfl, rfl⟩
  | _ => cases h

mutual

theorem neat_writtenElement {e : Expr} (h : e.isElement false) :
    Neat (e.writtenElement explicit) := by
  cases e with
  | stitch p name as =>
    obtain ⟨hn, ha⟩ := (Bool.and_eq_true _ _).mp h
    exact (neat_writtenBrackets explicit ha).word hn (loose_writtenBrackets explicit as)
  | row es as =>
    obtain ⟨he, ha⟩ := (Bool.and_eq_true _ _).mp h
    exact neat_writtenBraces explicit (neat_writtenElements he) ha
  | _ => cases h

theorem neat_writtenElements {es : List Expr} (h : areElements false es) :
    Neat (writtenElements explicit es) := by
  cases es with
  | nil => exact Neat.nil
  | cons e es =>
    obtain ⟨he, hes⟩ := (Bool.and_eq_true _ _).mp h
    have hn := neat_writtenElements hes
    cases es with
    | nil => simpa [writtenElements] using neat_writtenElement he
    | cons e' es =>
      have hi : Inked (writtenElements explicit (e' :: es)) :=
        inked_append (inked_writtenElement explicit ((Bool.and_eq_true _ _).mp hes).1)
      exact (neat_writtenElement he).append (hn.blank hi) (Loose.cons rfl)

end

end Expr

open KnittingPattern.Expr (neat_writtenBraces neat_writtenElements inked_append)

theorem Stmt.neat_writtenBody {lines : List Lexeme} (h : Neat lines) :
    Neat (writtenBody lines) := by
  unfold writtenBody
  split
  · exact (Neat.nil.sign rfl).sign rfl
  · exact h.sign rfl

variable (explicit : Bool)

theorem Expr.inked_writtenDefinition {e : Expr} (h : e.isDefinition false) :
    Inked (e.writtenDefinition explicit) := by
  cases e with
  | row es as => exact ⟨_, _, rfl, rfl⟩
  | group lbrace rbrace as lines => exact ⟨_, _, rfl, rfl⟩
  | _ => cases h

mutual

theorem Expr.neat_writtenDefinition {e : Expr} (h : e.isDefinition false) :
    Neat (e.writtenDefinition explicit) := by
  cases e with
  | row es as =>
    obtain ⟨he, ha⟩ := (Bool.and_eq_true _ _).mp h
    exact neat_writtenBraces explicit
      (neat_writtenElements explicit ((Bool.and_eq_true _ _).mp he).2) ha
  | group lbrace rbrace as lines =>
    obtain ⟨hl, ha⟩ := (Bool.and_eq_true _ _).mp h
    exact neat_writtenBraces explicit (Stmt.neat_writtenBody (Stmt.neat_writtenLines hl)) ha
  | _ => cases h

theorem Stmt.neat_written {s : Stmt} (h : s.isLine false) : Neat (s.written explicit) := by
  cases s with
  | synonym lhs rhs desc =>
    obtain ⟨hl, hr⟩ := (Bool.and_eq_true _ _).mp h
    have hn : Neat [sign .becomes, sign .whitespace, word rhs.name] :=
      ((Neat.nil.word hr Loose.nil).blank ⟨_, _, rfl, rfl⟩).sign rfl
    exact (hn.blank ⟨_, _, rfl, rfl⟩).word hl (Loose.cons rfl)
  | define lhs rhs desc =>
    obtain ⟨hl, hr⟩ := (Bool.and_eq_true _ _).mp h
    have hi := Expr.inked_writtenDefinition explicit hr
    have hn : Neat (sign .equals :: sign .whitespace :: rhs.writtenDefinition explicit) :=
      ((Expr.neat_writtenDefinition hr).blank hi).sign rfl
    exact (hn.blank ⟨_, _, rfl, rfl⟩).word hl (Loose.cons rfl)
  | row es as desc =>
    obtain ⟨he, ha⟩ := (Bool.and_eq_true _ _).mp h
    have hn := neat_writtenBraces explicit (neat_writtenElements explicit he) ha
    exact (hn.blank ⟨_, _, rfl, rfl⟩).word (by decide) (Loose.cons rfl)
  | group lbrace rbrace as lines desc =>
    obtain ⟨hl, ha⟩ := (Bool.and_eq_true _ _).mp h
    exact neat_writtenBraces explicit (Stmt.neat_writtenBody (Stmt.neat_writtenLines hl)) ha
  | block ss start stop desc => cases h

theorem Stmt.neat_writtenLines {ss : List Stmt} (h : Stmt.areLines false ss) :
    Neat (Stmt.writtenLines explicit ss) := by
  cases ss with
  | nil => exact Neat.nil
  | cons s ss =>
    obtain ⟨hs, hss⟩ := (Bool.and_eq_true _ _).mp h
    exact (Stmt.neat_written hs).append ((Stmt.neat_writtenLines hss).sign rfl) (Loose.cons rfl)

end

/-- The text of a pattern is cut into the lexemes it is written with. -/
theorem Block.scan_text {b : Block} (h : Stmt.areLines false b.statements) :
    Lexeme.scan (b.text explicit).toList = Stmt.writtenLines explicit b.statements := by
  have hn := Stmt.neat_writtenLines explicit h [] Loose.nil trivial
  rw [List.append_nil] at hn
  rw [text, String.toList_ofList, Lexeme.scan_chars hn]

end KnittingPattern
