import KnittingPattern.Proofs.TokenPositions
import KnittingPattern.Token.Feed

/-! # What a token feed answers

However calls to take a token and calls to look at one alternate, a feed hands out the stream of its
texts: each call is answered with the first token of the stream that has not been taken.  The texts
are read one by one, and a token that is held may be older than the text at hand; so the invariant
is about the tokens still to come, those of texts that have not been read among them.  Main theorem:
`TokenFeed.answers_ofTexts`. -/

namespace KnittingPattern

namespace TokenStream

/-- The token of this number; behind the last one the end of input repeats. -/
def nth (s : TokenStream) (n : Nat) : Token := s.tokens[n]?.getD s.last

theorem nth_zero (s : TokenStream) : s.nth 0 = s.peek := by
  rw [nth, peek, List.head?_eq_getElem?]

theorem nth_advance (s : TokenStream) (n : Nat) : s.advance.nth n = s.nth (n + 1) := by
  rw [nth, nth, advance, List.getElem?_tail]

/-- The tokens of text number `i` of `count`, blanks left out, and the mark behind it if another
text follows. -/
def tokensOf (count i : Nat) (text : String) : List Token :=
  ((Token.tokenize 0 text).filter fun t => t.kind != .whitespace).map
      (fun t => { t with source := i }) ++
    if i + 1 < count then [⟨.endOfSource, "", .behind text.toList, i⟩] else []

def tokensOfTexts (texts : List String) : List Token :=
  (texts.mapIdx (tokensOf texts.length)).flatten

def endOfTexts (texts : List String) : Token :=
  match texts.getLast? with
  | some text => ⟨.endOfInput, "", .behind text.toList, texts.length - 1⟩
  | none => ⟨.endOfInput, "", ⟨1, 0⟩, 0⟩

theorem map_source_place (p : Position) (i : Nat) (ls : List Lexeme) :
    (Token.place 0 p ls).map (fun t => { t with source := i }) = Token.place i p ls := by
  induction ls generalizing p with
  | nil => rfl
  | cons l ls ih => rw [Token.place, List.map_cons, ih, Token.place]

theorem tokensOf_eq (count i : Nat) (text : String) :
    tokensOf count i text = visible i text ++
      if i + 1 < count then [⟨.endOfSource, "", Token.endOf text, i⟩] else [] := by
  have hvisible : ((Token.tokenize 0 text).filter fun t => t.kind != .whitespace).map
      (fun t => { t with source := i }) = visible i text := by
    rw [visible, Token.tokenize, Token.tokenize, ← map_source_place .start i, List.filter_map]
    rfl
  rw [tokensOf, hvisible, Token.endOf_eq]

theorem tokens_ofSourcesFrom (n : Nat) (texts : List String) :
    (ofSourcesFrom n texts).tokens =
      (texts.mapIdx fun i => tokensOf (n + texts.length) (n + i)).flatten := by
  induction texts generalizing n with
  | nil => rfl
  | cons text texts ih =>
    have hshift : (fun i => tokensOf (n + (text :: texts).length) (n + (i + 1))) =
        fun i => tokensOf (n + 1 + texts.length) (n + 1 + i) := by
      funext i
      rw [List.length_cons, Nat.add_right_comm n 1, Nat.add_right_comm n 1]
      rfl
    rw [List.mapIdx_cons, List.flatten_cons, hshift, ← ih, tokensOf_eq]
    cases texts with
    | nil => simp [ofSourcesFrom]
    | cons text' texts => simp [ofSourcesFrom]

theorem last_ofSourcesFrom (n : Nat) (text : String) (texts : List String) :
    (ofSourcesFrom n (text :: texts)).last =
      ⟨.endOfInput, "", .behind ((text :: texts).getLast (List.cons_ne_nil _ _)).toList,
        n + texts.length⟩ := by
  induction texts generalizing n text with
  | nil => rw [ofSourcesFrom, Token.endOf_eq]; rfl
  | cons text' texts ih =>
    have hlast : (ofSourcesFrom n (text :: text' :: texts)).last =
        (ofSourcesFrom (n + 1) (text' :: texts)).last := rfl
    rw [hlast, ih, List.getLast_cons_cons, List.length_cons, Nat.add_right_comm n 1]
    rfl

theorem ofSources_eq (texts : List String) :
    ofSources texts = ⟨tokensOfTexts texts, endOfTexts texts⟩ := by
  have htokens : (ofSources texts).tokens = tokensOfTexts texts := by
    have hfrom := tokens_ofSourcesFrom 0 texts
    simp only [Nat.zero_add] at hfrom
    exact hfrom
  have hlast : (ofSources texts).last = endOfTexts texts := by
    cases texts with
    | nil => rfl
    | cons text texts =>
      rw [ofSources, last_ofSourcesFrom, endOfTexts,
        List.getLast?_eq_some_getLast (List.cons_ne_nil text texts), Nat.zero_add]
      rfl
  rw [← htokens, ← hlast]

end TokenStream

namespace TokenFeed

open TokenStream (ofSourcesFrom ofSources visible)

/-- The tokens that have not been read, whatever is held. -/
def unread (f : TokenFeed) : TokenStream :=
  match f.texts.drop (f.current + 1) with
  | [] => ⟨f.pending, ⟨.endOfInput, "", f.ending, f.current⟩⟩
  | later =>
    ⟨f.pending ++ ⟨.endOfSource, "", f.ending, f.current⟩ ::
      (ofSourcesFrom (f.current + 1) later).tokens, (ofSourcesFrom (f.current + 1) later).last⟩

theorem unread_load {f : TokenFeed} (h : f.current < f.texts.length) :
    (f.load f.current).unread = ofSourcesFrom f.current (f.texts.drop f.current) := by
  rw [List.drop_eq_getElem_cons h, load, List.getElem?_eq_getElem h, unread]
  cases f.texts.drop (f.current + 1) with
  | nil => rfl
  | cons text later => rfl

theorem unread_ofTexts (texts : List String) : (ofTexts texts).unread = ofSources texts := by
  cases texts with
  | nil => rfl
  | cons text texts =>
    exact unread_load (f := ⟨text :: texts, 0, [], .start, none⟩) (Nat.succ_pos _)

theorem read_eq (f : TokenFeed) :
    f.read.1 = f.unread.peek ∧ f.read.2.unread = f.unread.advance := by
  cases hp : f.pending with
  | cons t ts =>
    have hread : f.read = (t, { f with pending := ts }) := by rw [read, hp]
    rw [hread, unread, unread, hp]
    cases f.texts.drop (f.current + 1) with
    | nil => exact ⟨rfl, rfl⟩
    | cons text later => exact ⟨rfl, rfl⟩
  | nil =>
    by_cases hmore : f.current + 1 < f.texts.length
    · have hread : f.read = (⟨.endOfSource, "", f.ending, f.current⟩,
          { f with current := f.current + 1 }.load (f.current + 1)) := by
        rw [read, hp]
        exact if_pos hmore
      have hload := unread_load (f := { f with current := f.current + 1 }) hmore
      have hdrop : f.texts.drop (f.current + 1) = _ := List.drop_eq_getElem_cons hmore
      rw [hread, hload, unread, hp, hdrop]
      exact ⟨rfl, rfl⟩
    · have hread : f.read = (⟨.endOfInput, "", f.ending, f.current⟩, f) := by
        rw [read, hp]
        exact if_neg hmore
      rw [hread, unread, hp, List.drop_eq_nil_of_le (Nat.le_of_not_lt hmore)]
      exact ⟨rfl, rfl⟩

theorem held_load (f : TokenFeed) (n : Nat) : (f.load n).held = f.held := by
  unfold load
  split <;> rfl

theorem held_read (f : TokenFeed) : f.read.2.held = f.held := by
  unfold read
  split
  · rfl
  · split
    · exact held_load _ _
    · rfl

/-- The tokens to come: the one that is held, and those that have not been read. -/
def upcoming (f : TokenFeed) : Nat → Token :=
  match f.held with
  | some t => fun n => if n = 0 then t else f.unread.nth (n - 1)
  | none => f.unread.nth

theorem upcoming_of_held {f : TokenFeed} {t : Token} (h : f.held = some t) :
    f.upcoming 0 = t ∧ ∀ n, f.upcoming (n + 1) = f.unread.nth n := by
  simp [upcoming, h]

theorem upcoming_of_none {f : TokenFeed} (h : f.held = none) (n : Nat) :
    f.upcoming n = f.unread.nth n := by
  simp [upcoming, h]

theorem next_eq (f : TokenFeed) :
    f.next.1 = f.upcoming 0 ∧ ∀ n, f.next.2.upcoming n = f.upcoming (n + 1) := by
  cases hheld : f.held with
  | some t =>
    have hnext : f.next = (t, { f with held := none }) := by rw [next, hheld]
    obtain ⟨hfirst, hlater⟩ := upcoming_of_held hheld
    rw [hnext, hfirst]
    exact ⟨rfl, fun n => (hlater n).symm⟩
  | none =>
    have hnext : f.next = f.read := by rw [next, hheld]
    obtain ⟨hfirst, hrest⟩ := f.read_eq
    rw [hnext]
    constructor
    · rw [upcoming_of_none hheld, TokenStream.nth_zero, hfirst]
    · intro n
      rw [upcoming_of_none (f.held_read.trans hheld), upcoming_of_none hheld, hrest,
        TokenStream.nth_advance]

theorem peek_eq (f : TokenFeed) :
    f.peek.1 = f.upcoming 0 ∧ ∀ n, f.peek.2.upcoming n = f.upcoming n := by
  cases hheld : f.held with
  | some t =>
    have hpeek : f.peek = (t, f) := by rw [peek, hheld]
    rw [hpeek]
    exact ⟨(upcoming_of_held hheld).1.symm, fun _ => rfl⟩
  | none =>
    have hpeek : f.peek = (f.read.1, { f.read.2 with held := some f.read.1 }) := by
      rw [peek, hheld]
    obtain ⟨hfirst, hrest⟩ := f.read_eq
    obtain ⟨hzero, hlater⟩ :=
      upcoming_of_held (f := { f.read.2 with held := some f.read.1 }) rfl
    have hpeeked : f.read.1 = f.upcoming 0 := by
      rw [upcoming_of_none hheld, TokenStream.nth_zero, hfirst]
    rw [hpeek]
    refine ⟨hpeeked, fun n => ?_⟩
    cases n with
    | zero => exact hzero.trans hpeeked
    | succ n =>
      calc upcoming { f.read.2 with held := some f.read.1 } (n + 1)
          = f.read.2.unread.nth n := hlater n
        _ = f.unread.nth (n + 1) := by rw [hrest, TokenStream.nth_advance]
        _ = f.upcoming (n + 1) := (upcoming_of_none hheld _).symm

/-- Each call is answered with the first token that none of the calls before it has taken. -/
theorem answers_eq (f : TokenFeed) (calls : List Call) :
    f.answers calls =
      (List.range calls.length).map fun i => f.upcoming ((calls.take i).count .next) := by
  induction calls generalizing f with
  | nil => rfl
  | cons c calls ih =>
    rw [answers, ih, List.length_cons, List.range_succ_eq_map, List.map_cons, List.map_map]
    cases c with
    | next =>
      obtain ⟨hfirst, hlater⟩ := f.next_eq
      simp [call, hfirst, hlater, Function.comp_def]
    | peek =>
      obtain ⟨hfirst, hlater⟩ := f.peek_eq
      simp [call, hfirst, hlater, Function.comp_def]

/-- The feed of several texts hands out their tokens, then the end of input again and again: call
number `i` is answered with the token whose number is how many tokens were taken before. -/
theorem answers_ofTexts (texts : List String) (calls : List Call) :
    (ofTexts texts).answers calls = (List.range calls.length).map fun i =>
      (TokenStream.tokensOfTexts texts)[(calls.take i).count .next]?.getD
        (TokenStream.endOfTexts texts) := by
  have hnone : (ofTexts texts).held = none := held_load _ _
  rw [answers_eq]
  refine List.map_congr_left fun i _ => ?_
  rw [upcoming_of_none hnone, unread_ofTexts, TokenStream.ofSources_eq, TokenStream.nth]

end TokenFeed

end KnittingPattern
