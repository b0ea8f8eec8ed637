import KnittingPattern.Pattern.Descent
import KnittingPattern.Proofs.BracketReading
import KnittingPattern.Proofs.CommentsCollected
import KnittingPattern.Proofs.FeedAnswers

/-! # Acts of reading

What an act of reading does is told by the tokens before it: which of them it takes, and what it
comes to.  The machine that reads token by token goes along with it.  Whatever is left once the act
has ended, the machine comes from there to the same outcome; so an act that fails has the error of
the machine.  Main definition: `Descent.Meets`. -/

namespace KnittingPattern

open Token (Kind)

namespace Token

/-- The end of input is the last of these tokens, and no other one. -/
def Closed : List Token → Prop
  | [] => False
  | t :: ts => if t.kind = .endOfInput then ts = [] else Closed ts

variable {t : Token} {ts : List Token}

theorem Closed.tail (h : Closed (t :: ts)) (hk : t.kind ≠ .endOfInput) : Closed ts := by
  simpa [Closed, hk] using h

theorem Closed.tail_eq_nil (h : Closed (t :: ts)) (hk : t.kind = .endOfInput) : ts = [] := by
  simpa [Closed, hk] using h

theorem closed_append_singleton (h : ∀ t ∈ ts, t.kind ≠ .endOfInput) (ht : t.kind = .endOfInput) :
    Closed (ts ++ [t]) := by
  induction ts with
  | nil => simp [Closed, ht]
  | cons u ts ih =>
    obtain ⟨hu, hts⟩ := List.forall_mem_cons.mp h
    simpa [Closed, hu] using ih hts

end Token

/-- These tokens come next; behind them the last one repeats. -/
def Intake.Faces (i : Intake) (last : Token) (ts : List Token) : Prop :=
  ∀ n, i.feed.upcoming n = ts[n]?.getD last

theorem Intake.Faces.next {i : Intake} {last t : Token} {ts : List Token}
    (h : i.Faces last (t :: ts)) :
    i.feed.next.1 = t ∧ Faces ⟨i.feed.next.2, i.taken ++ [t]⟩ last ts := by
  obtain ⟨hfirst, hlater⟩ := i.feed.next_eq
  exact ⟨hfirst.trans (h 0), fun n => (hlater n).trans (h (n + 1))⟩

theorem Intake.Faces.peek {i : Intake} {last : Token} {ts : List Token} (h : i.Faces last ts) :
    i.feed.peek.1 = ts.head?.getD last ∧ Faces ⟨i.feed.peek.2, i.taken⟩ last ts := by
  obtain ⟨hfirst, hlater⟩ := i.feed.peek_eq
  refine ⟨?_, fun n => (hlater n).trans (h n)⟩
  rw [hfirst, h 0, List.head?_eq_getElem?]

namespace Reader

variable {o : Except SyntaxError Reader} {r q : Reader} {t : Token} {ts : List Token}

/-- The reader has these tokens before it, and comes with them to `o`. -/
structure At (o : Except SyntaxError Reader) (r : Reader) (ts : List Token) : Prop where
  closed : Token.Closed ts
  run : r.run ts = o

theorem At.exists_cons (h : At o r ts) : ∃ t rest, ts = t :: rest := by
  cases ts with
  | nil => exact h.closed.elim
  | cons t rest => exact ⟨t, rest, rfl⟩

theorem At.ne_nil (h : At o r ts) : ts ≠ [] := by
  obtain ⟨t, rest, rfl⟩ := h.exists_cons
  exact List.cons_ne_nil _ _

/-- With all tokens before it a reader comes to something. -/
theorem at_run (r : Reader) (h : Token.Closed ts) : At (r.run ts) r ts := ⟨h, rfl⟩

/-- The next token is taken. -/
theorem At.take (h : At o r (t :: ts)) (hs : r.step t = .ok q) (hk : t.kind ≠ .endOfInput) :
    At o q ts :=
  ⟨h.closed.tail hk, (run_cons ts hs).symm.trans h.run⟩

/-- The next token is an error. -/
theorem At.reject (h : At o r (t :: ts)) {e : SyntaxError} (hs : r.step t = .error e) :
    o = .error e :=
  h.run.symm.trans (run_cons_error ts hs)

/-- A reader that does the same with the next token stands as well there. -/
theorem At.switch (h : At o r (t :: ts)) (hs : r.step t = q.step t) : At o q (t :: ts) :=
  ⟨h.closed, (run_congr hs ts).symm.trans h.run⟩

end Reader

namespace Descent

variable {α β σ : Type} {last t : Token} {o : Except SyntaxError Reader} {ts rest : List Token}
variable {m : Descent α} {f : α → Descent β} {P : α → List Token → Prop} {Q : β → List Token → Prop}

/-- With these tokens before it the act comes to an answer for which `Q` holds, or to the error
that is the outcome `o`. -/
def Meets (last : Token) (o : Except SyntaxError Reader) (m : Descent α) (ts : List Token)
    (Q : α → List Token → Prop) : Prop :=
  ∀ i : Intake, i.Faces last ts → ∃ x j taken rest,
    m i = some (x, j) ∧ j.taken = i.taken ++ taken ∧ ts = taken ++ rest ∧ j.Faces last rest ∧
      match x with
      | .ok a => Q a rest
      | .error e => o = .error e

namespace Meets

theorem pure {a : α} (h : P a ts) : Meets last o (Pure.pure a) ts P := fun i hi =>
  ⟨.ok a, i, [], ts, rfl, (List.append_nil _).symm, rfl, hi, h⟩

theorem error {e : SyntaxError} (h : o = .error e) : Meets last o (throw e : Descent α) ts P :=
  fun i hi => ⟨.error e, i, [], ts, rfl, (List.append_nil _).symm, rfl, hi, h⟩

theorem bind (hm : Meets last o m ts P)
    (hf : ∀ a rest, rest <:+ ts → P a rest → Meets last o (f a) rest Q) :
    Meets last o (m >>= f) ts Q := by
  intro i hi
  obtain ⟨x, j, taken, rest, hx, hj, rfl, hfaces, h⟩ := hm i hi
  cases x with
  | error e =>
    have hx' : (m >>= f) i = some (.error e, j) := by
      show (m i).bind _ = _
      rw [hx]
      rfl
    exact ⟨.error e, j, taken, rest, hx', hj, rfl, hfaces, h⟩
  | ok a =>
    obtain ⟨y, k, taken', rest', hy, hk, rfl, hfaces', h'⟩ :=
      hf a rest (List.suffix_append _ _) h j hfaces
    have hy' : (m >>= f) i = some (y, k) := by
      show (m i).bind _ = _
      rw [hx]
      exact hy
    refine ⟨y, k, taken ++ taken', rest', hy', ?_, (List.append_assoc _ _ _).symm, hfaces', h'⟩
    rw [hk, hj, List.append_assoc]

theorem mono {P' : α → List Token → Prop} (hm : Meets last o m ts P)
    (h : ∀ a rest, rest <:+ ts → P a rest → P' a rest) : Meets last o m ts P' := by
  intro i hi
  obtain ⟨x, j, taken, rest, hx, hj, rfl, hfaces, hP⟩ := hm i hi
  refine ⟨x, j, taken, rest, hx, hj, rfl, hfaces, ?_⟩
  cases x with
  | error e => exact hP
  | ok a => exact h a rest (List.suffix_append _ _) hP

/-- An act that takes a token and goes on. -/
theorem next {f : Token → Descent β} (h : Meets last o (f t) rest Q) :
    Meets last o (Descent.next >>= f) (t :: rest) Q := by
  intro i hi
  obtain ⟨ht, hfaces⟩ := hi.next
  obtain ⟨x, j, taken, rest', hx, hj, rfl, hfaces', hQ⟩ := h _ hfaces
  refine ⟨x, j, t :: taken, rest', ?_, ?_, rfl, hfaces', hQ⟩
  · rw [← hx, ← ht]
    rfl
  · rw [hj, List.append_assoc, List.singleton_append]

theorem look {f : Token → Descent β} (h : Meets last o (f (ts.head?.getD last)) ts Q) :
    Meets last o (Descent.peek >>= f) ts Q := by
  intro i hi
  obtain ⟨ht, hfaces⟩ := hi.peek
  obtain ⟨x, j, taken, rest', hx, hj, rfl, hfaces', hQ⟩ := h _ hfaces
  refine ⟨x, j, taken, rest', ?_, hj, rfl, hfaces', hQ⟩
  rw [← hx, ← ht]
  rfl

/-- An act that looks at a token and goes on. -/
theorem peek {f : Token → Descent β} (h : Meets last o (f t) (t :: rest) Q) :
    Meets last o (Descent.peek >>= f) (t :: rest) Q :=
  look h

end Meets

/-- What a round of a loop comes to: if the loop goes on, fewer tokens are left and `I` holds
again. -/
def GoesOn (I : σ → List Token → Prop) (P : α → List Token → Prop) (ts : List Token) :
    Round σ α → List Token → Prop
  | .again s, rest => rest.length < ts.length ∧ I s rest
  | .done a, rest => P a rest

theorem GoesOn.mono {I : σ → List Token → Prop} {P' : α → List Token → Prop} {x : Round σ α}
    (h : GoesOn I P ts x rest) (hP : ∀ a, P a rest → P' a rest) : GoesOn I P' ts x rest := by
  cases x with
  | again s => exact h
  | done a => exact hP a h

/-- A loop ends if each round that goes on takes a token: `I` holds before each round, as long as no
more than `n` tokens are left. -/
theorem Meets.rounds {rest : Round σ α → Descent α} (round : σ → Descent (Round σ α)) {n : Nat}
    {I : σ → List Token → Prop} (hagain : ∀ s, rest (.again s) = round s >>= rest)
    (hdone : ∀ a, rest (.done a) = Pure.pure a)
    (hround : ∀ s ts, ts.length ≤ n → I s ts → Meets last o (round s) ts (GoesOn I P ts))
    {s : σ} (hn : ts.length ≤ n) (h : I s ts) : Meets last o (rest (.again s)) ts P := by
  induction hlen : ts.length using Nat.strong_induction_on generalizing s ts with
  | _ l ih =>
    subst hlen
    rw [hagain]
    refine (hround s ts hn h).bind fun x ts' _ hx => ?_
    cases x with
    | done a =>
      rw [hdone]
      exact .pure hx
    | again s' =>
      obtain ⟨hlt, hI⟩ := hx
      exact ih ts'.length hlt (hlt.le.trans hn) hI rfl

theorem Meets.loop {round : σ → Descent (Round σ α)} {I : σ → List Token → Prop}
    (hround : ∀ s ts, I s ts → Meets last o (round s) ts (GoesOn I P ts)) {s : σ} (h : I s ts) :
    Meets last o (loop round s) ts P :=
  .rounds round (fun _ => by rw [Round.rest]) (fun _ => by rw [Round.rest])
    (fun s ts _ => hround s ts) le_rfl h

end Descent
end KnittingPattern
