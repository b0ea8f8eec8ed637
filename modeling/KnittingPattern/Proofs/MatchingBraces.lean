import KnittingPattern.Proofs.OpenBraces
import KnittingPattern.Proofs.TokenPositions
import Mathlib.Data.List.Induction

/-! # Matching braces

Behind a brace that is still open the braces match each other.  So the brace that closes a group is
the one that matches the brace that opens it.  Main theorem: `Token.exists_of_unmatched_eq_cons`. -/

namespace KnittingPattern
namespace Token

/-- Tokens in which each brace has its match. -/
inductive Balanced : List Token → Prop
  | nil : Balanced []
  | token {ts : List Token} {t : Token} (h : Balanced ts) (hl : t.kind ≠ .leftBrace)
    (hr : t.kind ≠ .rightBrace) : Balanced (ts ++ [t])
  | braces {ts inner : List Token} {l r : Token} (h : Balanced ts) (hl : l.kind = .leftBrace)
    (hi : Balanced inner) (hr : r.kind = .rightBrace) : Balanced (ts ++ l :: (inner ++ [r]))

variable {ts : List Token} {t : Token} {p : Position} {ps : List Position}

theorem unmatched_concat (ts : List Token) (t : Token) :
    unmatched (ts ++ [t]) = brace (unmatched ts) t := by
  rw [unmatched, List.foldl_append]
  rfl

theorem brace_of_ne (hl : t.kind ≠ .leftBrace) (hr : t.kind ≠ .rightBrace) :
    brace ps t = ps := by
  unfold brace
  split
  · contradiction
  · contradiction
  · rfl

/-- Behind the innermost brace that is open the braces match each other, and before it the others
are open.  The induction is on the length, for the braces before one that closes are found in a
shorter row of tokens, not in its tail. -/
theorem exists_of_unmatched_eq_cons (h : unmatched ts = p :: ps) :
    ∃ pre l inner, ts = pre ++ l :: inner ∧ l.kind = .leftBrace ∧ l.position = p ∧
      unmatched pre = ps ∧ Balanced inner := by
  induction hn : ts.length using Nat.strongRecOn generalizing ts p ps with
  | ind n ih =>
    rcases List.eq_nil_or_concat ts with rfl | ⟨ts, t, rfl⟩
    · cases h
    rw [List.concat_eq_append] at *
    rw [unmatched_concat] at h
    subst hn
    have hts : ts.length < (ts ++ [t]).length := by simp
    by_cases hl : t.kind = .leftBrace
    · simp only [brace, hl, List.cons.injEq] at h
      exact ⟨ts, t, [], rfl, hl, h.1, h.2, .nil⟩
    by_cases hr : t.kind = .rightBrace
    · simp only [brace, hr] at h
      obtain ⟨q, hq⟩ : ∃ q, unmatched ts = q :: p :: ps := by
        cases hu : unmatched ts with
        | nil => simp [hu] at h
        | cons q qs => exact ⟨q, by rw [← h, hu]; rfl⟩
      obtain ⟨mid, l', inner', rfl, hl', -, hmid, hinner'⟩ := ih _ hts hq rfl
      have hlt : mid.length < (mid ++ l' :: inner' ++ [t]).length := by
        simp only [List.length_append, List.length_cons]
        omega
      obtain ⟨pre, l, inner, rfl, hl, hp, hps, hinner⟩ := ih _ hlt hmid rfl
      exact ⟨pre, l, inner ++ l' :: (inner' ++ [t]), by simp, hl, hp, hps,
        hinner.braces hl' hinner' hr⟩
    · rw [brace_of_ne hl hr] at h
      obtain ⟨pre, l, inner, rfl, hl', hp, hps, hinner⟩ := ih _ hts h rfl
      exact ⟨pre, l, inner ++ [t], by simp, hl', hp, hps, hinner.token hl hr⟩

/-- Blanks are no braces. -/
theorem unmatched_filter (ts : List Token) :
    unmatched (ts.filter fun t => t.kind != .whitespace) = unmatched ts := by
  induction ts using List.reverseRecOn with
  | nil => rfl
  | append_singleton ts t ih =>
    rw [List.filter_append, unmatched_concat, ← ih]
    by_cases ht : t.kind = .whitespace
    · simp [ht, brace]
    · simp [ht, unmatched_concat]

/-- The braces that are open stand among the tokens, the innermost behind the others. -/
theorem pairwise_unmatched (hts : ts.Pairwise fun s t => s.position.Before t.position) :
    (unmatched ts).Pairwise (fun p q => q.Before p) ∧
      ∀ p ∈ unmatched ts, ∃ t ∈ ts, t.position = p := by
  induction ts using List.reverseRecOn with
  | nil => simp [unmatched]
  | append_singleton ts t ih =>
    obtain ⟨hts, -, hlast⟩ := List.pairwise_append.mp hts
    obtain ⟨hpairs, hmem⟩ := ih hts
    have hmem' : ∀ p ∈ unmatched ts, ∃ u ∈ ts ++ [t], u.position = p := fun p hp =>
      let ⟨u, hu, hp⟩ := hmem p hp
      ⟨u, List.mem_append_left _ hu, hp⟩
    rw [unmatched_concat, brace]
    split
    · refine ⟨List.pairwise_cons.mpr ⟨fun p hp => ?_, hpairs⟩, List.forall_mem_cons.mpr ⟨?_, hmem'⟩⟩
      · obtain ⟨u, hu, rfl⟩ := hmem p hp
        exact hlast u hu t (List.mem_singleton_self t)
      · exact ⟨t, by simp, rfl⟩
    · exact ⟨hpairs.sublist (List.tail_sublist _), fun p hp => hmem' p (List.mem_of_mem_tail hp)⟩
    · exact ⟨hpairs, hmem'⟩

end Token
end KnittingPattern
