import KnittingPattern.Pattern.Reader

/-! # Open braces

A reader that goes on has the braces open that the tokens so far leave unmatched, and a reader that
fails blames the token it was given.  Each place of the reader has its lemma, and
`Reader.step_fair` puts them together. -/

namespace KnittingPattern

open Token (Kind)

namespace Token

/-- The classes of tokens that may stand in a pattern and are no braces. -/
def Kind.isPlain : Kind → Bool
  | .leftBrace | .rightBrace | .illegal => false
  | _ => true

/-- The positions of open braces after one more token, innermost first. -/
def brace (opens : List Position) (t : Token) : List Position :=
  match t.kind with
  | .leftBrace => t.position :: opens
  | .rightBrace => opens.tail
  | _ => opens

/-- The positions of the left braces that are unmatched in a row of tokens, innermost first. -/
def unmatched (ts : List Token) : List Position := ts.foldl brace []

end Token

/-- An error is about a token: it has its position, and its class and literal if it has any.  The
brace that it says is open is the innermost one.  Only a token that is illegal is found illegal. -/
def SyntaxError.Blames (t : Token) (opens : List Position) : SyntaxError → Prop
  | .unexpected found literal position _ =>
    found = t.kind ∧ literal = t.literal ∧ position = t.position
  | .unclosedRow position opened | .unclosedGroup position opened =>
    position = t.position ∧ opens.head? = some opened ∧ t.kind ≠ .illegal
  | .invalidNumber literal position | .unknownUnit literal position =>
    literal = t.literal ∧ position = t.position ∧ t.kind ≠ .illegal

def RowLine.opens (line : RowLine) : List Position := line.braces.map OpenBrace.position

def Owner.opens : Owner → List Position
  | .stitch line _ | .inlineRow line _ => line.opens
  | .group _ _ _ => []

/-- The positions of the braces that are open within a line, innermost first. -/
def Place.opens : Place → List Position
  | .brace _ _ lbrace => [lbrace]
  | .elements line | .stitch line _ | .closed line _ => line.opens
  | .args owner _ _ => owner.opens
  | _ => []

namespace Reader

/-- The positions of the open braces of groups, innermost first. -/
def groupOpens (r : Reader) : List Position := r.groups.map OpenGroup.lbrace

/-- The positions of all open braces, innermost first. -/
def opens (r : Reader) : List Position := r.place.opens ++ r.groupOpens

/-- Reading a token under open braces either goes on with the braces that are open behind it, or
blames the token.  Nothing goes on behind an illegal token. -/
def Fair (t : Token) (opens : List Position) : Except SyntaxError Reader → Prop
  | .ok r => r.opens = Token.brace opens t ∧ t.kind ≠ .illegal
  | .error e => e.Blames t opens

@[simp] theorem fair_unexpected (t : Token) (opens : List Position) (x : Expectation) :
    Fair t opens (unexpected t x) := ⟨rfl, rfl, rfl⟩

/-- A token that is no brace may lead to a place with the same braces open. -/
theorem fair_goto (r : Reader) (p : Place) {t : Token} {k : Kind} (hk : t.kind = k)
    (h : k.isPlain = true) : Fair t (p.opens ++ r.groupOpens) (r.goto p) := by
  subst hk
  refine ⟨?_, ?_⟩
  · unfold Token.brace
    split <;> simp_all [Kind.isPlain, opens, groupOpens]
  · intro hi
    rw [hi] at h
    cases h

theorem fair_statement (r : Reader) (desc : Description) (t : Token) :
    Fair t r.groupOpens (r.statement desc t) := by
  rcases r with ⟨title, groups, ss, place⟩
  cases groups <;> cases hk : t.kind <;>
    simp [statement, hk, Fair, goto, opens, groupOpens, Place.opens, Token.brace,
      SyntaxError.Blames, unexpected]

theorem fair_between (r : Reader) (run : Run) (desc : Description) (t : Token) :
    Fair t r.groupOpens (r.between run desc t) := by
  unfold between
  split
  · exact fair_goto r (.between _ _) ‹t.kind = _› rfl
  · exact fair_goto r (.between _ _) ‹t.kind = _› rfl
  · exact fair_goto r (.between _ _) ‹t.kind = _› rfl
  · exact fair_goto ⟨_, r.groups, r.statements, r.place⟩ (.between .none .none) ‹t.kind = _› rfl
  · exact fair_statement r desc t

theorem fair_ending (r : Reader) (s : Stmt) (t : Token) : Fair t r.groupOpens (r.ending s t) := by
  unfold ending
  split
  · exact fair_goto (r.finish s) (.between .none .none) ‹t.kind = _› rfl
  · split
    · exact fair_statement (r.finish s) .none t
    · simp

theorem fair_lineEnd (r : Reader) (s : Stmt) (t : Token) :
    Fair t r.groupOpens (r.lineEnd s t) := by
  unfold lineEnd
  split
  · exact fair_goto r (.commented _) ‹t.kind = _› rfl
  · exact fair_ending r s t

theorem fair_elements (r : Reader) (line : RowLine) (t : Token) :
    Fair t (line.opens ++ r.groupOpens) (r.elements line t) := by
  rcases line with ⟨role, desc, braces, es⟩
  unfold elements
  split
  · exact fair_goto r (.stitch _ _) ‹t.kind = _› rfl
  · exact ⟨by simp [Token.brace, opens, openBrace, Place.opens, RowLine.opens, groupOpens, *],
      by simp [*]⟩
  · exact ⟨by simp_all [Token.brace, opens, Place.opens, RowLine.opens, groupOpens], by simp [*]⟩
  · rename_i hb _ _
    obtain rfl : braces = [] := hb
    split
    · exact fair_lineEnd r _ t
    · simp
  · rename_i b bs hb _ _ _
    obtain rfl : braces = b :: bs := hb
    split
    · rename_i hk
      refine ⟨rfl, rfl, ?_⟩
      intro hi
      simp [hi, Kind.endsLine, Kind.endsSource] at hk
    · simp

theorem fair_stitch (r : Reader) (line : RowLine) (id : Identifier) (t : Token) :
    Fair t (line.opens ++ r.groupOpens) (r.stitch line id t) := by
  unfold stitch
  split
  · exact fair_goto r (.args (.stitch line id) [] .first) ‹t.kind = _› rfl
  · exact fair_elements r (line.push _) t
  all_goals first | exact fair_elements r (line.push _) t | simp

theorem fair_word (r : Reader) (desc : Description) (id : Identifier) (t : Token) :
    Fair t r.groupOpens (r.word desc id t) := by
  unfold word
  split
  · exact fair_goto r (.target desc id) ‹t.kind = _› rfl
  · exact fair_goto r (.body desc id) ‹t.kind = _› rfl
  all_goals first
    | exact fair_stitch r ⟨.statement, desc, [], []⟩ id t
    | split
      · exact fair_elements r ⟨.statement, desc, [], []⟩ t
      · exact fair_stitch r ⟨.statement, desc, [], []⟩ id t
    | simp

theorem fair_target (r : Reader) (desc : Description) (lhs : Identifier) (t : Token) :
    Fair t r.groupOpens (r.target desc lhs t) := by
  unfold target
  split
  · exact fair_goto r (.lineEnd _) ‹t.kind = _› rfl
  · simp

theorem fair_body (r : Reader) (desc : Description) (lhs : Identifier) (t : Token) :
    Fair t r.groupOpens (r.body desc lhs t) := by
  unfold body
  split
  · exact ⟨by simp [Token.brace, opens, Place.opens, groupOpens, *], by simp [*]⟩
  · exact fair_goto r (.stitch ⟨_, _, [], []⟩ _) ‹t.kind = _› rfl
  · simp

theorem fair_brace (r : Reader) (role : Role) (desc : Description) (lbrace : Position)
    (t : Token) : Fair t (lbrace :: r.groupOpens) (r.brace role desc lbrace t) := by
  unfold brace
  split
  · exact ⟨by simp [Token.brace, opens, Place.opens, groupOpens, *], by simp [*]⟩
  · exact fair_elements r ⟨role, desc, [⟨lbrace, []⟩], []⟩ t
  · exact fair_elements r ⟨role, desc, [⟨lbrace, []⟩], []⟩ t
  · simp

theorem fair_closed (r : Reader) (line : RowLine) (es : List Expr) (t : Token) :
    Fair t (line.opens ++ r.groupOpens) (r.closed line es t) := by
  unfold closed
  split
  · exact fair_goto r (.args (.inlineRow line es) [] .first) ‹t.kind = _› rfl
  · exact fair_elements r (line.push _) t

theorem fair_groupClosed (r : Reader) (g : OpenGroup) (rbrace : Position) (lines : List Stmt)
    (t : Token) : Fair t r.groupOpens (r.groupClosed g rbrace lines t) := by
  unfold groupClosed
  split
  · exact fair_goto r (.args (.group g rbrace lines) [] .first) ‹t.kind = _› rfl
  · exact fair_lineEnd r _ t

theorem opens_afterArgs (owner : Owner) (args : List Expr) :
    (afterArgs owner args).opens = owner.opens := by
  cases owner <;> rfl

theorem fair_sizeValue (r : Reader) (owner : Owner) (args : List Expr) (before : Bool) (t : Token)
    (x : Expectation) :
    Fair t (owner.opens ++ r.groupOpens) (r.sizeValue owner args before t x) := by
  unfold sizeValue
  split
  · exact fair_goto r (.args owner _ _) ‹t.kind = _› rfl
  · split
    · exact fair_goto r (.args owner _ _) ‹t.kind = _› rfl
    · exact ⟨rfl, rfl, by simp [*]⟩
  · exact fair_goto r (.args owner _ _) ‹t.kind = _› rfl
  · simp

theorem fair_argument (r : Reader) (owner : Owner) (args : List Expr) (t : Token) :
    Fair t (owner.opens ++ r.groupOpens) (r.argument owner args t) := by
  unfold argument
  split
  · exact fair_goto r (.args owner _ _) ‹t.kind = _› rfl
  · exact fair_goto r (.args owner _ _) ‹t.kind = _› rfl
  · exact fair_sizeValue r owner args false t .argument

theorem fair_afterArgument (r : Reader) (owner : Owner) (args : List Expr) (t : Token) :
    Fair t (owner.opens ++ r.groupOpens) (r.afterArgument owner args t) := by
  unfold afterArgument
  split
  · exact fair_goto r (.args owner _ _) ‹t.kind = _› rfl
  · rw [← opens_afterArgs owner args]
    exact fair_goto r _ ‹t.kind = _› rfl
  · simp

theorem fair_afterValue (r : Reader) (owner : Owner) (args : List Expr) (s : Size) (t : Token) :
    Fair t (owner.opens ++ r.groupOpens) (r.afterValue owner args s t) := by
  unfold afterValue
  split
  · exact fair_afterArgument r owner _ t
  · exact fair_afterArgument r owner _ t
  · exact fair_goto r (.args owner _ _) ‹t.kind = _› rfl
  · exact fair_goto r (.args owner _ _) ‹t.kind = _› rfl
  · split
    · exact fair_goto r (.args owner _ _) ‹t.kind = _› rfl
    · exact ⟨rfl, rfl, by simp [*]⟩
  · simp

theorem fair_args (r : Reader) (owner : Owner) (as : List Expr) (place : ArgumentPlace)
    (t : Token) : Fair t (owner.opens ++ r.groupOpens) (r.args owner as place t) := by
  cases place with
  | first =>
    simp only [args]
    split
    · rw [← opens_afterArgs owner as]
      exact fair_goto r _ ‹t.kind = _› rfl
    · exact fair_argument r owner as t
  | next => exact fair_argument r owner as t
  | minus => exact fair_sizeValue r owner as true t .sizeValue
  | name id =>
    simp only [args]
    split
    all_goals first
      | exact fair_afterValue r owner as _ t
      | exact fair_afterArgument r owner _ t
  | value s => exact fair_afterValue r owner as s t
  | done => exact fair_afterArgument r owner as t

/-- Whatever the reader has read, it goes on with the right braces open or blames the token it was
given. -/
theorem step_fair (r : Reader) (t : Token) : Fair t r.opens (r.step t) := by
  rcases r with ⟨title, groups, ss, place⟩
  cases place with
  | between run desc => exact fair_between _ run desc t
  | word desc id => exact fair_word _ desc id t
  | target desc lhs => exact fair_target _ desc lhs t
  | body desc lhs => exact fair_body _ desc lhs t
  | brace role desc lbrace => exact fair_brace _ role desc lbrace t
  | elements line => exact fair_elements _ line t
  | stitch line id => exact fair_stitch _ line id t
  | closed line es => exact fair_closed _ line es t
  | groupClosed g rbrace lines => exact fair_groupClosed _ g rbrace lines t
  | args owner as place => exact fair_args _ owner as place t
  | lineEnd s => exact fair_lineEnd _ s t
  | commented s => exact fair_ending _ s t

/-- A reader that goes on over tokens has the braces open that they leave unmatched. -/
theorem run_opens {r r' : Reader} {ts : List Token} (h : r.run ts = .ok r') :
    r'.opens = ts.foldl Token.brace r.opens ∧ ∀ t ∈ ts, t.kind ≠ .illegal := by
  induction ts generalizing r with
  | nil =>
    cases h
    simp
  | cons t ts ih =>
    have hf := step_fair r t
    cases hs : r.step t with
    | error e => simp [run, hs, bind, Except.bind] at h
    | ok q =>
      rw [hs] at hf
      have hq : q.run ts = .ok r' := by simpa [run, hs, bind, Except.bind] using h
      obtain ⟨ho, hk⟩ := ih hq
      exact ⟨by rw [ho, hf.1, List.foldl_cons], List.forall_mem_cons.mpr ⟨hf.2, hk⟩⟩

end Reader
end KnittingPattern
