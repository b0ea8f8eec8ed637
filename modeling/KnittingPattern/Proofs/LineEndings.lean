import KnittingPattern.Proofs.FirstOffence
import KnittingPattern.Proofs.TokenPositions

/-! # Line endings

A text may end its lines with line feeds, with carriage returns or with both.  Its tokens are of the
same classes at the same positions, and only the line breaks among them are written in another way.
So the text is read as the same pattern, or with the same error, which may quote a line break.  Main
theorems: `Lexeme.scan_rewrite`, `Reader.step_endedBy`, `Pattern.ofText_endedBy`. -/

namespace KnittingPattern

open Token (Kind)

/-- What may stand for a line feed. -/
inductive LineEnding where
  | carriageReturn
  | both
deriving DecidableEq

namespace LineEnding

variable (e : LineEnding)

def chars : LineEnding → List Char
  | carriageReturn => ['\r']
  | both => ['\r', '\n']

def written : String := String.ofList e.chars

/-- The line ending in place of each line feed. -/
def rewrite (cs : List Char) : List Char := cs.flatMap fun c => if c = '\n' then e.chars else [c]

theorem rewrite_cons (c : Char) (cs : List Char) :
    e.rewrite (c :: cs) = (if c = '\n' then e.chars else [c]) ++ e.rewrite cs :=
  List.flatMap_cons

theorem rewrite_append (cs ds : List Char) : e.rewrite (cs ++ ds) = e.rewrite cs ++ e.rewrite ds :=
  List.flatMap_append

theorem rewrite_of_notMem {cs : List Char} (h : '\n' ∉ cs) : e.rewrite cs = cs := by
  induction cs with
  | nil => rfl
  | cons c cs ih =>
    rw [List.mem_cons, not_or] at h
    rw [rewrite_cons, if_neg (Ne.symm h.1), ih h.2]
    rfl

/-- A line ending begins with a carriage return. -/
theorem head?_rewrite (cs : List Char) :
    (e.rewrite cs).head? = cs.head?.map fun c => if c = '\n' then '\r' else c := by
  cases cs with
  | nil => rfl
  | cons c cs =>
    rw [rewrite_cons]
    by_cases hc : c = '\n'
    · cases e <;> simp [hc, chars]
    · simp [hc]

end LineEnding

variable {e : LineEnding}

/-- The text with its line feeds written as another line ending. -/
def Text.endedBy (e : LineEnding) (text : String) : String := String.ofList (e.rewrite text.toList)

namespace Lexeme

/-- The lexeme with its line break written as another line ending. -/
def endedBy (e : LineEnding) (l : Lexeme) : Lexeme :=
  if l.kind = .newline then ⟨.newline, e.written⟩ else l

/-- No piece goes on with a carriage return. -/
theorem not_goesOn_return (k : Kind) (cs : List Char) : ¬GoesOn k cs '\r' := by
  cases k <;> simp [GoesOn, Blank, Figure]

/-- A piece is the same in front of other line endings. -/
theorem IsPiece.rewrite {after cs : List Char} {k : Kind} (h : IsPiece after k cs) :
    IsPiece (e.rewrite after) k cs := by
  refine h.before fun c hc => ?_
  rw [e.head?_rewrite] at hc
  obtain ⟨d, hd, rfl⟩ := Option.map_eq_some_iff.mp hc
  split
  · exact not_goesOn_return k cs
  · exact h.ends d hd

/-- A line feed is the one line break of a text without carriage returns. -/
theorem text_of_newline {l : Lexeme} {after : List Char} (h : IsPiece after .newline l.text.toList)
    (hr : '\r' ∉ l.text.toList) : l.text = "\n" := by
  rcases h with h | h | ⟨h, -⟩
  · rw [h] at hr
    simp at hr
  · exact String.toList_inj.mp h
  · rw [h] at hr
    simp at hr

section

variable {ls : List Lexeme}

theorem toList_endedBy {l : Lexeme} {after : List Char} (h : l.Cut after)
    (hr : '\r' ∉ l.text.toList) : (l.endedBy e).text.toList = e.rewrite l.text.toList := by
  rw [cut_iff_isPiece] at h
  by_cases hk : l.kind = .newline
  · rw [hk] at h
    rw [endedBy, if_pos hk, text_of_newline h hr]
    cases e <;> rfl
  · have hfeed : '\n' ∉ l.text.toList := fun hmem => not_break_of_isPiece h hk hmem (.inr rfl)
    rw [endedBy, if_neg hk, e.rewrite_of_notMem hfeed]

theorem chars_endedBy (h : Cuts ls) (hr : '\r' ∉ chars ls) :
    chars (ls.map (endedBy e)) = e.rewrite (chars ls) := by
  induction ls with
  | nil => rfl
  | cons l ls ih =>
    rw [chars_cons, List.mem_append, not_or] at hr
    rw [List.map_cons, chars_cons, chars_cons, e.rewrite_append, toList_endedBy h.1 hr.1,
      ih h.2 hr.2]

theorem cut_endedBy {l : Lexeme} {after : List Char} (h : l.Cut after)
    (hr : '\r' ∉ l.text.toList) : (l.endedBy e).Cut (e.rewrite after) := by
  have htext : (l.endedBy e).text.toList = e.rewrite l.text.toList := toList_endedBy h hr
  rw [cut_iff_isPiece] at h ⊢
  by_cases hk : l.kind = .newline
  · rw [hk] at h
    rw [htext, text_of_newline h hr, endedBy, if_pos hk]
    cases e with
    | both => exact .inl rfl
    | carriageReturn =>
      refine .inr (.inr ⟨rfl, ?_⟩)
      rw [LineEnding.head?_rewrite]
      intro hfeed
      obtain ⟨c, -, hc⟩ := Option.map_eq_some_iff.mp hfeed
      split at hc
      · cases hc
      · contradiction
  · rw [endedBy, if_neg hk]
    exact h.rewrite

theorem cuts_endedBy (h : Cuts ls) (hr : '\r' ∉ chars ls) : Cuts (ls.map (endedBy e)) := by
  induction ls with
  | nil => trivial
  | cons l ls ih =>
    rw [chars_cons, List.mem_append, not_or] at hr
    refine ⟨?_, ih h.2 hr.2⟩
    rw [chars_endedBy h.2 hr.2]
    exact cut_endedBy h.1 hr.1

end

/-- A text with other line endings is cut into the same lexemes but for its line breaks. -/
theorem scan_rewrite {cs : List Char} (h : '\r' ∉ cs) :
    scan (e.rewrite cs) = (scan cs).map (endedBy e) := by
  have hcuts := cuts_scan cs
  rw [← chars_scan cs] at h
  calc scan (e.rewrite cs) = scan (e.rewrite (chars (scan cs))) := by rw [chars_scan]
    _ = scan (chars ((scan cs).map (endedBy e))) := by rw [chars_endedBy hcuts h]
    _ = (scan cs).map (endedBy e) := scan_chars (cuts_endedBy hcuts h)

/-- Every line ending leads to the beginning of the next line. -/
theorem advanceOver_endedBy (p : Position) {l : Lexeme} {after : List Char} (h : l.Cut after)
    (hr : '\r' ∉ l.text.toList) :
    p.advanceOver (l.endedBy e).text.toList = p.advanceOver l.text.toList := by
  by_cases hk : l.kind = .newline
  · rw [cut_iff_isPiece, hk] at h
    rw [endedBy, if_pos hk, text_of_newline h hr]
    cases e <;> rfl
  · rw [endedBy, if_neg hk]

theorem endPosition_endedBy {ls : List Lexeme} (h : Cuts ls) (hr : '\r' ∉ chars ls)
    (p : Position) : endPosition p (ls.map (endedBy e)) = endPosition p ls := by
  induction ls generalizing p with
  | nil => rfl
  | cons l ls ih =>
    rw [chars_cons, List.mem_append, not_or] at hr
    simp only [endPosition, List.map_cons, List.foldl_cons, advanceOver_endedBy p h.1 hr.1]
    exact ih h.2 hr.2 _

end Lexeme

namespace Token

/-- The token with its line break written as another line ending. -/
def endedBy (e : LineEnding) (t : Token) : Token :=
  if t.kind = .newline then { t with literal := e.written } else t

theorem kind_endedBy (t : Token) : (t.endedBy e).kind = t.kind := by
  unfold endedBy
  split <;> rfl

theorem place_endedBy {ls : List Lexeme} (h : Lexeme.Cuts ls) (hr : '\r' ∉ Lexeme.chars ls)
    (source : Nat) (p : Position) :
    place source p (ls.map (Lexeme.endedBy e)) = (place source p ls).map (endedBy e) := by
  induction ls generalizing p with
  | nil => rfl
  | cons l ls ih =>
    rw [Lexeme.chars_cons, List.mem_append, not_or] at hr
    simp only [place, List.map_cons, Lexeme.advanceOver_endedBy p h.1 hr.1, ih h.2 hr.2]
    congr 1
    unfold endedBy Lexeme.endedBy
    split <;> simp_all

/-- A text with other line endings has the same tokens but for the literals of its line breaks. -/
theorem tokenize_endedBy (source : Nat) {text : String} (h : '\r' ∉ text.toList) :
    tokenize source (Text.endedBy e text) = (tokenize source text).map (endedBy e) := by
  rw [← Lexeme.chars_scan text.toList] at h
  have hplace := place_endedBy (e := e) (Lexeme.cuts_scan _) h source .start
  rw [Lexeme.chars_scan] at h
  rw [tokenize, Text.endedBy, String.toList_ofList, Lexeme.scan_rewrite h, hplace]
  rfl

theorem endOf_endedBy {text : String} (h : '\r' ∉ text.toList) :
    endOf (Text.endedBy e text) = endOf text := by
  rw [endOf, Text.endedBy, String.toList_ofList, Lexeme.scan_rewrite h]
  rw [← Lexeme.chars_scan text.toList] at h
  exact Lexeme.endPosition_endedBy (Lexeme.cuts_scan _) h .start

end Token

/-- The error with the line break that it quotes written as another line ending. -/
def SyntaxError.endedBy (e : LineEnding) : SyntaxError → SyntaxError
  | unexpected .newline _ position expected =>
    unexpected .newline e.written position expected
  | error => error

namespace Reader

/-- A line break is read in the same way however it is written. -/
theorem step_newline_endedBy (r : Reader) {t : Token} (ht : t.kind = .newline) :
    r.step (t.endedBy e) = (r.step t).mapError (SyntaxError.endedBy e) := by
  rw [Token.endedBy, if_pos ht]
  obtain ⟨title, groups, ss, place⟩ := r
  obtain ⟨kind, literal, position, source⟩ := t
  obtain rfl : kind = .newline := ht
  cases place with
  | between run d =>
    cases run with
    | line title => cases title <;> rfl
    | _ => rfl
  | elements l | stitch l _ | closed l _ =>
    obtain ⟨role, desc, braces, es⟩ := l
    cases braces <;> rfl
  | args owner as place => cases place <;> rfl
  | _ => rfl

/-- What is no line break is not blamed for one. -/
theorem endedBy_of_blames {t : Token} (ht : t.kind ≠ .newline) {opens : List Position}
    {error : SyntaxError} (h : error.Blames t opens) : error.endedBy e = error := by
  cases error with
  | unexpected found literal position expected =>
    obtain ⟨rfl, -, -⟩ := h
    obtain ⟨kind, literal', position', source⟩ := t
    cases kind <;> first | rfl | exact absurd rfl ht
  | _ => rfl

theorem step_endedBy (r : Reader) (t : Token) :
    r.step (t.endedBy e) = (r.step t).mapError (SyntaxError.endedBy e) := by
  by_cases ht : t.kind = .newline
  · exact r.step_newline_endedBy ht
  · have hfair := r.step_fair t
    rw [Token.endedBy, if_neg ht]
    cases hs : r.step t with
    | ok q => rfl
    | error error =>
      rw [hs] at hfair
      exact congrArg Except.error (endedBy_of_blames ht hfair).symm

theorem run_endedBy (r : Reader) (ts : List Token) :
    r.run (ts.map (Token.endedBy e)) = (r.run ts).mapError (SyntaxError.endedBy e) := by
  induction ts generalizing r with
  | nil => rfl
  | cons t ts ih =>
    have hstep := r.step_endedBy (e := e) t
    cases hs : r.step t with
    | ok q =>
      rw [hs] at hstep
      rw [List.map_cons, run_cons _ hstep, run_cons ts hs, ih q]
    | error error =>
      rw [hs] at hstep
      rw [List.map_cons, run_cons_error _ hstep, run_cons_error ts hs]
      rfl

end Reader

namespace TokenStream

/-- The stream with its line breaks written as another line ending. -/
def endedBy (e : LineEnding) (s : TokenStream) : TokenStream :=
  ⟨s.tokens.map (Token.endedBy e), s.last.endedBy e⟩

theorem map_endedBy_ofText {text : String} (h : '\r' ∉ text.toList) :
    ofText (Text.endedBy e text) = (ofText text).endedBy e := by
  have hblank : (fun t : Token => t.kind != .whitespace) ∘ Token.endedBy e =
      fun t => t.kind != .whitespace := by
    funext t
    simp [Token.kind_endedBy]
  have hvisible : visible 0 (Text.endedBy e text) = (visible 0 text).map (Token.endedBy e) := by
    rw [visible, Token.tokenize_endedBy 0 h, List.filter_map, hblank]
    rfl
  simp only [ofText, ofSources, ofSourcesFrom, endedBy, hvisible, Token.endOf_endedBy h]
  rfl

theorem position_peek_endedBy (s : TokenStream) : (s.endedBy e).peek.position = s.peek.position := by
  have hposition (t : Token) : (t.endedBy e).position = t.position := by
    unfold Token.endedBy
    split <;> rfl
  obtain ⟨tokens, last⟩ := s
  cases tokens <;> exact hposition _

end TokenStream

namespace Pattern

theorem read_endedBy (s : TokenStream) :
    read (s.endedBy e) = (read s).mapError (SyntaxError.endedBy e) := by
  have hrun := Reader.start.run_endedBy (e := e) (s.tokens ++ [s.last])
  rw [List.map_append] at hrun
  cases hr : Reader.start.run (s.tokens ++ [s.last]) with
  | ok r =>
    rw [hr] at hrun
    have hlast : (s.endedBy e).last.position = s.last.position := by
      unfold TokenStream.endedBy Token.endedBy
      split <;> rfl
    rw [read_eq_ok hr, read_eq_ok hrun, s.position_peek_endedBy, hlast]
    rfl
  | error error =>
    rw [hr] at hrun
    rw [read_eq_error_iff.mpr hr]
    exact read_eq_error_iff.mpr hrun

/-- A text without carriage returns may end its lines in another way.  Its tokens stay the same at
the same positions, but for the literals of line breaks, and it is read as the same pattern, or with
the same error but for the literal of a line break in it. -/
theorem ofText_endedBy (e : LineEnding) (source : Nat) (text : String) (h : '\r' ∉ text.toList) :
    Token.tokenize source (Text.endedBy e text) =
      (Token.tokenize source text).map (Token.endedBy e) ∧
    ofText (Text.endedBy e text) = (ofText text).mapError (SyntaxError.endedBy e) := by
  refine ⟨Token.tokenize_endedBy source h, ?_⟩
  have hstream := TokenStream.map_endedBy_ofText (e := e) h
  simp only [TokenStream.ofText] at hstream
  rw [ofText, ofSources, hstream]
  exact read_endedBy _

/-- Behind a title and a blank line, a definition is missing at the end of its line. -/
theorem ofText_endedBy_openDefinition :
    '\r' ∉ "; Hat\n\nx =\n".toList ∧
    Text.endedBy .both "; Hat\n\nx =\n" = "; Hat\r\n\r\nx =\r\n" ∧
    Token.tokenize 0 "; Hat\r\n\r\nx =\r\n" =
      (Token.tokenize 0 "; Hat\n\nx =\n").map (Token.endedBy .both) ∧
    ofText "; Hat\n\nx =\n" = .error (.unexpected .newline "\n" ⟨3, 4⟩ .definition) ∧
    ofText "; Hat\r\n\r\nx =\r\n" =
      .error (.unexpected .newline "\r\n" ⟨3, 4⟩ .definition) := by
  have hreturn : '\r' ∉ "; Hat\n\nx =\n".toList := by decide
  have hended : Text.endedBy .both "; Hat\n\nx =\n" = "; Hat\r\n\r\nx =\r\n" := by
    decide +kernel
  have hread : ofText "; Hat\n\nx =\n" =
      .error (.unexpected .newline "\n" ⟨3, 4⟩ .definition) := rfl
  obtain ⟨htokens, hsame⟩ := ofText_endedBy .both 0 "; Hat\n\nx =\n" hreturn
  rw [hended] at htokens hsame
  rw [hread] at hsame
  exact ⟨hreturn, hended, htokens, hread, hsame⟩

end Pattern

end KnittingPattern
