import KnittingPattern.Token

/-! # Token streams

Several texts make one stream of tokens: the blanks are left out, one mark stands where a text ends
and another follows, and once the last text has ended every further token is the end of input.
Main definition: `TokenStream.ofSources`. -/

namespace KnittingPattern

/-- The tokens still to come, and the end of input that repeats after them. -/
structure TokenStream where
  tokens : List Token
  last : Token
deriving DecidableEq

namespace TokenStream

/-- The tokens of a text that matter to a reader. -/
def visible (source : Nat) (text : String) : List Token :=
  (Token.tokenize source text).filter fun t => t.kind != .whitespace

/-- The stream of the texts from number `source` on. -/
def ofSourcesFrom (source : Nat) : List String → TokenStream
  | [] => ⟨[], ⟨.endOfInput, "", .start, source⟩⟩
  | [text] => ⟨visible source text, ⟨.endOfInput, "", Token.endOf text, source⟩⟩
  | text :: texts =>
    let later := ofSourcesFrom (source + 1) texts
    let mark : Token := ⟨.endOfSource, "", Token.endOf text, source⟩
    ⟨visible source text ++ mark :: later.tokens, later.last⟩

/-- The stream of several texts, in their order. -/
def ofSources (texts : List String) : TokenStream := ofSourcesFrom 0 texts

/-- The stream of one text. -/
def ofText (text : String) : TokenStream := ofSources [text]

/-- The next token, left in the stream. -/
def peek (s : TokenStream) : Token := s.tokens.head?.getD s.last

/-- The stream without its next token. -/
def advance (s : TokenStream) : TokenStream := ⟨s.tokens.tail, s.last⟩

/-- Takes the next token. -/
def next (s : TokenStream) : Token × TokenStream := (s.peek, s.advance)

/-- Takes all tokens up to the first end of input. -/
def drain (s : TokenStream) : List Token × TokenStream := (s.tokens ++ [s.last], ⟨[], s.last⟩)

end TokenStream
end KnittingPattern
