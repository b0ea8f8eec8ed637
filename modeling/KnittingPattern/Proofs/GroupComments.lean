import KnittingPattern.Proofs.LineReading
import KnittingPattern.Proofs.MatchingBraces

/-! # Comments within groups

The comments that describe the statements of an open group are read behind the brace that opens it.
Main theorem: `Reader.commentsWithin_of_run`. -/

namespace KnittingPattern

open Token (Kind)

mutual

/-- The comments of a statement, and of those within it. -/
def Stmt.comments : Stmt → List Comment
  | .group _ _ _ lines desc => desc.comments ++ Stmt.allComments lines
  | .define _ (.group _ _ _ lines) desc => desc.comments ++ Stmt.allComments lines
  | .define _ _ desc | .synonym _ _ desc | .row _ _ desc | .block _ _ _ desc => desc.comments

def Stmt.allComments : List Stmt → List Comment
  | [] => []
  | s :: ss => s.comments ++ Stmt.allComments ss

end

theorem Stmt.comments_eq (s : Stmt) : s.comments = s.desc.comments ++ allComments s.lines := by
  cases s with
  | group => rfl
  | define lhs rhs d => cases rhs <;> simp [comments, Stmt.desc, Stmt.lines, allComments]
  | _ => simp [comments, Stmt.desc, Stmt.lines, allComments]

theorem Stmt.allComments_concat (ss : List Stmt) (s : Stmt) :
    allComments (ss ++ [s]) = allComments ss ++ s.comments := by
  induction ss with
  | nil => simp [allComments]
  | cons s' ss ih => simp [allComments, ih]

/-- A comment stands among these tokens, behind the brace of the innermost open group. -/
def Comment.Within (ts : List Token) (groups : List OpenGroup) (c : Comment) : Prop :=
  (∃ t ∈ ts, t.position = c.position) ∧ ∀ g ∈ groups.head?, g.lbrace.Before c.position

/-- The comments that are read for the next statement, or within the line of one. -/
inductive Place.CommentsAre (P : Comment → Prop) : Place → Prop
  | between (run : Run) {d : Description} (h : ∀ c ∈ d.comments, P c) :
    CommentsAre P (.between run d)
  | line {p : Place} {d : Description} (h : ∀ c ∈ d.comments, P c)
    (hp : p.Carries True (fun lines => ∀ c ∈ Stmt.allComments lines, P c) d) : CommentsAre P p
  | commented {s : Stmt} (h : ∀ c ∈ s.comments, P c) : CommentsAre P (.commented s)

theorem Comment.Within.mono {ts us : List Token} {groups : List OpenGroup} {c : Comment}
    (h : c.Within ts groups) (hts : ts ⊆ us) : c.Within us groups :=
  ⟨let ⟨t, ht, hc⟩ := h.1; ⟨t, hts ht, hc⟩, h.2⟩

theorem Place.CommentsAre.mono {P Q : Comment → Prop} {p : Place} (h : p.CommentsAre P)
    (hPQ : ∀ c, P c → Q c) : p.CommentsAre Q := by
  cases h with
  | between run h => exact .between run fun c hc => hPQ c (h c hc)
  | line h hp =>
    exact .line (fun c hc => hPQ c (h c hc))
      (hp.mono id fun _ hlines c hc => hPQ c (hlines c hc))
  | commented h => exact .commented fun c hc => hPQ c (h c hc)

namespace Reader

/-- The comments of the statements that are read stand within their groups, and the open groups
within each other. -/
structure BehindWithin (ts : List Token) (r : Reader) : Prop where
  statements : ∀ c ∈ Stmt.allComments r.statements, c.Within ts r.groups
  groups : ∀ g gs, g :: gs <:+ r.groups →
    (∀ c ∈ Stmt.allComments g.before, c.Within ts gs) ∧ (∀ c ∈ g.desc.comments, c.Within ts gs) ∧
      ∀ h ∈ gs.head?, h.lbrace.Before g.lbrace

/-- All comments stand within their groups. -/
structure CommentsWithin (ts : List Token) (r : Reader) : Prop extends r.BehindWithin ts where
  place : r.place.CommentsAre (Comment.Within ts r.groups)

variable {r q : Reader} {ts : List Token} {t : Token} {d : Description} {s : Stmt}

theorem CommentsWithin.mono {us : List Token} (h : r.CommentsWithin ts) (hts : ts ⊆ us) :
    r.CommentsWithin us where
  statements c hc := (h.statements c hc).mono hts
  groups g gs hg :=
    let ⟨hbefore, hdesc, hnest⟩ := h.groups g gs hg
    ⟨fun c hc => (hbefore c hc).mono hts, fun c hc => (hdesc c hc).mono hts, hnest⟩
  place := h.place.mono fun _ hc => hc.mono hts

theorem mem_extend {d : Description} {c c' : Comment} (h : c' ∈ (d.extend ⟨[c]⟩).comments) :
    c' ∈ d.comments ∨ c'.position = c.position := by
  obtain ⟨cs⟩ := d
  cases cs with
  | nil =>
    obtain rfl := List.mem_singleton.mp h
    exact .inr rfl
  | cons e es =>
    have h : c' ∈ e :: es ++ [⟨c.position, ""⟩, c] := h
    rcases List.mem_append.mp h with h | h
    · exact .inl h
    · rcases List.mem_cons.mp h with rfl | h
      · exact .inr rfl
      · obtain rfl := List.mem_singleton.mp h
        exact .inr rfl

/-- What stands within a group stands within the one around it. -/
theorem BehindWithin.around (h : r.BehindWithin ts) {g : OpenGroup} {gs : List OpenGroup}
    (hg : r.groups = g :: gs) {c : Comment} (hc : c.Within ts (g :: gs)) : c.Within ts gs := by
  obtain ⟨-, -, hnest⟩ := h.groups g gs (hg ▸ List.suffix_refl _)
  exact ⟨hc.1, fun o ho => (hnest o ho).trans (hc.2 g rfl)⟩

variable (ht : ∀ c : Comment, c.position = t.position → c.Within ts r.groups)

include ht

theorem BehindWithin.statement (h : r.BehindWithin ts) (hd : ∀ c ∈ d.comments, c.Within ts r.groups)
    (hq : r.statement d t = .ok q) : q.CommentsWithin ts := by
  unfold Reader.statement at hq
  split at hq
  case h_4 => cases hq
  case h_5 => cases hq
  case h_6 =>
    cases hq
    refine ⟨⟨h.statements, h.groups⟩, .between _ fun c hc => ?_⟩
    exact (mem_extend hc).elim (hd c) (ht c)
  case h_7 g gs hk hg =>
    cases hq
    obtain ⟨hbefore, hdesc, -⟩ := h.groups g gs (hg ▸ List.suffix_refl _)
    refine ⟨⟨hbefore, fun o os ho => h.groups o os ?_⟩, .line hdesc ⟨rfl, fun c hc => ?_⟩⟩
    · rw [hg]
      exact ho.trans (List.suffix_cons g gs)
    · have hwithin := h.statements c hc
      rw [hg] at hwithin
      exact h.around hg hwithin
  case h_8 =>
    cases hq
    exact ⟨⟨h.statements, h.groups⟩, .line hd ⟨rfl, trivial⟩⟩
  case h_9 =>
    cases hq
    exact ⟨⟨h.statements, h.groups⟩, .line hd ⟨rfl, trivial⟩⟩
  case h_10 => cases hq
  all_goals
    cases hq
    exact ⟨⟨h.statements, h.groups⟩, .between _ hd⟩

theorem BehindWithin.between (h : r.BehindWithin ts) (hd : ∀ c ∈ d.comments, c.Within ts r.groups)
    {run : Run} (hq : r.between run d t = .ok q) : q.CommentsWithin ts := by
  unfold Reader.between at hq
  split at hq
  · cases hq
    refine ⟨⟨h.statements, h.groups⟩, .between _ fun c hc => ?_⟩
    obtain rfl := List.mem_singleton.mp hc
    exact ht _ rfl
  · cases hq
    exact ⟨⟨h.statements, h.groups⟩, .between _ hd⟩
  · cases hq
    refine ⟨⟨h.statements, h.groups⟩, .between _ fun c hc => ?_⟩
    rcases List.mem_append.mp hc with hc | hc
    · exact hd c hc
    · obtain rfl := List.mem_singleton.mp hc
      exact ht _ rfl
  · cases hq
    exact ⟨⟨h.statements, h.groups⟩, .between _ (List.forall_mem_nil _)⟩
  · exact h.statement ht hd hq

theorem BehindWithin.ending (h : r.BehindWithin ts) (hs : ∀ c ∈ s.comments, c.Within ts r.groups)
    (hq : r.ending s t = .ok q) : q.CommentsWithin ts := by
  have hfinish : (r.finish s).BehindWithin ts := by
    refine ⟨fun c hc => ?_, h.groups⟩
    rcases List.mem_append.mp (Stmt.allComments_concat r.statements s ▸ hc) with hc | hc
    · exact h.statements c hc
    · exact hs c hc
  have hnone : ∀ c ∈ Description.none.comments, c.Within ts (r.finish s).groups :=
    List.forall_mem_nil _
  unfold Reader.ending at hq
  split at hq
  · cases hq
    exact ⟨hfinish, .between _ hnone⟩
  · split at hq
    · exact hfinish.statement (r := r.finish s) ht hnone hq
    · cases hq

theorem BehindWithin.line (h : r.BehindWithin ts) (hd : ∀ c ∈ d.comments, c.Within ts r.groups)
    (hp : r.place.Carries True (fun ss => ∀ c ∈ Stmt.allComments ss, c.Within ts r.groups) d)
    (hopens : r.opens.Pairwise fun p q => q.Before p) (hq : r.step t = .ok q) :
    q.CommentsWithin ts := by
  have hheld : True → ∀ c ∈ Stmt.allComments [], c.Within ts r.groups :=
    fun _ => List.forall_mem_nil _
  by_cases hin : t.kind.isInLine
  · obtain ⟨p, hp, rfl⟩ := moves_step hheld hp hin q hq
    exact ⟨⟨h.statements, h.groups⟩, .line hd hp⟩
  by_cases hc : t.kind = .comment
  · obtain ⟨run, desc, -, -, hplace, -⟩ | ⟨s, hs, rfl⟩ := step_comment hc hq
    · rw [hplace] at hp
      cases hp
    · obtain ⟨rfl, hlines⟩ := carries_ended hheld hp hs
      refine ⟨⟨h.statements, h.groups⟩, .commented fun c hc => ?_⟩
      rw [Stmt.comments_eq, Stmt.desc_withDesc, Stmt.lines_withDesc] at hc
      rcases List.mem_append.mp hc with hc | hc
      · rcases List.mem_append.mp hc with hc | hc
        · exact hd c hc
        · obtain rfl := List.mem_singleton.mp hc
          exact ht _ rfl
      · exact hlines c hc
  · have hends : t.kind.endsLine := by
      revert hin hc
      cases t.kind <;> decide
    obtain ⟨role, lbrace, -, -, hplace, rfl⟩ | ⟨s, hs, hending⟩ := ended_of_step hp hends hq
    · refine ⟨⟨List.forall_mem_nil _, fun g gs hg => ?_⟩, .between _ (List.forall_mem_nil _)⟩
      rcases List.suffix_cons_iff.mp hg with hg | hg
      · cases hg
        refine ⟨h.statements, hd, fun o ho => ?_⟩
        rw [opens, hplace] at hopens
        refine (List.pairwise_cons.mp hopens).1 _ ?_
        exact List.mem_map_of_mem (List.mem_of_mem_head? ho)
      · exact h.groups g gs hg
    · obtain ⟨rfl, hlines⟩ := carries_ended hheld hp hs
      refine h.ending ht (fun c hc => ?_) hending
      rw [Stmt.comments_eq] at hc
      exact (List.mem_append.mp hc).elim (hd c) (hlines c)

theorem CommentsWithin.step (h : r.CommentsWithin ts)
    (hopens : r.opens.Pairwise fun p q => q.Before p) (hq : r.step t = .ok q) :
    q.CommentsWithin ts := by
  obtain ⟨h, hplace⟩ := h
  generalize hp : r.place = place at hplace
  cases hplace with
  | between run hd =>
    rw [Reader.step, hp] at hq
    exact h.between ht hd hq
  | line hd hcarries => exact h.line ht hd (hp ▸ hcarries) hopens hq
  | commented hs =>
    rw [Reader.step, hp] at hq
    exact h.ending ht hs hq

omit ht

theorem commentsWithin_of_run (hts : ts.Pairwise fun s t => s.position.Before t.position)
    (h : start.run ts = .ok r) : r.CommentsWithin ts := by
  induction ts using List.reverseRecOn generalizing r with
  | nil =>
    cases h
    refine ⟨⟨List.forall_mem_nil _, fun g gs hg => ?_⟩, .between _ (List.forall_mem_nil _)⟩
    cases List.suffix_nil.mp hg
  | append_singleton ts t ih =>
    obtain ⟨p, hp, h⟩ := exists_of_run_append h
    obtain ⟨q, hq, hr⟩ := exists_of_run_cons h
    cases hr
    obtain ⟨hts, -, hlast⟩ := List.pairwise_append.mp hts
    have hopens : p.opens = Token.unmatched ts := (run_opens hp).1
    obtain ⟨hpairs, hmem⟩ := Token.pairwise_unmatched hts
    rw [← hopens] at hpairs hmem
    refine ((ih hts hp).mono (List.subset_append_left _ _)).step (fun c hc => ?_) hpairs hq
    refine ⟨⟨t, List.mem_append_right _ (List.mem_singleton_self t), hc.symm⟩, fun g hg => ?_⟩
    obtain ⟨u, hu, hposition⟩ := hmem g.lbrace
      (List.mem_append_right _ (List.mem_map_of_mem (List.mem_of_mem_head? hg)))
    rw [← hposition, hc]
    exact hlast u hu t (List.mem_singleton_self t)

end Reader
end KnittingPattern
