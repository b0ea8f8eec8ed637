import KnittingPattern.Token.Stream

/-! # Token feeds

A feed hands out the tokens of several texts one at a time.  It reads a text when the tokens of the
one before have run out, and holds the token that was looked at last until that is taken.  Main
definitions: `TokenFeed.next`, `TokenFeed.peek`. -/

namespace KnittingPattern

structure TokenFeed where
  texts : List String
  /-- The number of the text that is being handed out. -/
  current : Nat
  /-- The tokens of this text that are still to come. -/
  pending : List Token
  /-- The position behind this text. -/
  ending : Position
  /-- A token that has been looked at and not been taken. -/
  held : Option Token
deriving DecidableEq

namespace TokenFeed

/-- Reads a text, if there is one of this number. -/
def load (f : TokenFeed) (n : Nat) : TokenFeed :=
  match f.texts[n]? with
  | some text => { f with pending := TokenStream.visible n text, ending := Token.endOf text }
  | none => f

/-- The feed of several texts, in their order. -/
def ofTexts (texts : List String) : TokenFeed := load ⟨texts, 0, [], .start, none⟩ 0

/-- Takes a token of the texts, whatever is held. -/
def read (f : TokenFeed) : Token × TokenFeed :=
  match f.pending with
  | t :: ts => (t, { f with pending := ts })
  | [] =>
    if f.current + 1 < f.texts.length then
      (⟨.endOfSource, "", f.ending, f.current⟩,
        { f with current := f.current + 1 }.load (f.current + 1))
    else (⟨.endOfInput, "", f.ending, f.current⟩, f)

/-- Takes the next token. -/
def next (f : TokenFeed) : Token × TokenFeed :=
  match f.held with
  | some t => (t, { f with held := none })
  | none => f.read

/-- Looks at the next token. -/
def peek (f : TokenFeed) : Token × TokenFeed :=
  match f.held with
  | some t => (t, f)
  | none => (f.read.1, { f.read.2 with held := some f.read.1 })

/-- What can be asked of a feed. -/
inductive Call where
  | next
  | peek
deriving DecidableEq

def call (f : TokenFeed) : Call → Token × TokenFeed
  | .next => f.next
  | .peek => f.peek

/-- The answers to a row of calls. -/
def answers (f : TokenFeed) : List Call → List Token
  | [] => []
  | c :: cs => (f.call c).1 :: (f.call c).2.answers cs

end TokenFeed
end KnittingPattern
