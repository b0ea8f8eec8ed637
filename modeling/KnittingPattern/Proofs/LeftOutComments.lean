import KnittingPattern.Proofs.PlainReading

/-! # Comments left out

A comment stands between statements or behind one.  Between statements it adds to a description.
Behind a statement it says no more than the end of the line that must follow it.  So a pattern is
read alike without its comments, but for positions and descriptions.  Main theorem:
`Pattern.plain_of_uncommented`. -/

namespace KnittingPattern

open Token (Kind)

/-- The tokens that are no comments. -/
def Token.uncommented (ts : List Token) : List Token := ts.filter fun t => t.kind != .comment

/-- The statement that a line is if it ends here. -/
def Place.ended? : Place → Option Stmt
  | word desc id => some (Reader.rowStmt ⟨.statement, desc, [], [.stitch id.position id []]⟩)
  | elements line => if line.braces.isEmpty then some (Reader.rowStmt line) else none
  | stitch line id =>
    if line.braces.isEmpty then some (Reader.rowStmt (line.push (.stitch id.position id [])))
    else none
  | closed line es =>
    if line.braces.isEmpty then some (Reader.rowStmt (line.push (.row es []))) else none
  | groupClosed g rbrace lines => some (Reader.groupStmt g rbrace [] lines)
  | lineEnd s => some s
  | _ => none

theorem Stmt.plain_withDesc (s : Stmt) (desc : Description) :
    (s.withDesc desc).plain = s.plain := by
  cases s <;> rfl

namespace Reader

variable {r q u : Reader} {c t : Token}

/-- Only the end of its line can follow a statement. -/
theorem endsLine_of_ending {s : Stmt} (h : r.ending s t = .ok q) : t.kind.endsLine := by
  obtain ⟨kind, literal, position, source⟩ := t
  cases kind <;> first | rfl | cases h

/-- Where a line may end, its end makes it the statement that it is. -/
theorem step_of_ended {s : Stmt} (h : r.place.ended? = some s) (ht : t.kind.endsLine) :
    r.step t = r.ending s t := by
  obtain ⟨kind, literal, position, source⟩ := t
  obtain ⟨title, groups, ss, place⟩ := r
  cases place with
  | word _ _ | groupClosed _ _ _ | lineEnd _ =>
    cases h
    cases kind <;> first | rfl | cases ht
  | elements line | stitch line _ | closed line _ =>
    obtain ⟨role, desc, braces, es⟩ := line
    cases braces with
    | nil =>
      cases h
      cases kind <;> first | rfl | cases ht
    | cons b braces => cases h
  | _ => cases h

/-- A comment goes to the description of the next statement, or else stands where a line may end. -/
theorem step_comment (hc : c.kind = .comment) (h : r.step c = .ok q) :
    (∃ run desc run' desc', r.place = .between run desc ∧
      q = { r with place := .between run' desc' }) ∨ ∃ s, r.place.ended? = some s ∧
      q = { r with place := .commented (s.withDesc (s.desc.push (comment c))) } := by
  obtain ⟨kind, literal, position, source⟩ := c
  obtain rfl : kind = .comment := hc
  obtain ⟨title, groups, ss, place⟩ := r
  cases place with
  | between run desc => cases run <;> cases h <;> exact .inl ⟨_, _, _, _, rfl, rfl⟩
  | word _ _ | groupClosed _ _ _ | lineEnd _ =>
    cases h
    exact .inr ⟨_, rfl, rfl⟩
  | elements line | stitch line _ | closed line _ =>
    obtain ⟨role, desc, braces, es⟩ := line
    cases braces with
    | nil =>
      cases h
      exact .inr ⟨_, rfl, rfl⟩
    | cons b braces => cases h
  | args owner as place => cases place <;> cases h
  | _ => cases h

/-- A comment may be left out before any other token. -/
theorem exists_step_of_comment (hc : c.kind = .comment) (ht : t.kind ≠ .comment)
    (hq : r.step c = .ok q) (hu : q.step t = .ok u) :
    ∃ v, r.step t = .ok v ∧ v.plain = u.plain := by
  obtain ⟨run, desc, run', desc', hplace, rfl⟩ | ⟨s, hended, rfl⟩ := step_comment hc hq
  · have hplain : r.plain = plain { r with place := .between run' desc' } := by
      simp only [plain, hplace, Place.plain]
    exact exists_step_of_plain hplain rfl ht hu
  · have hu : r.ending (s.withDesc (s.desc.push (comment c))) t = .ok u := hu
    have hdesc := goes_ending r (s.withDesc (s.desc.push (comment c))) ht
    rw [Stmt.plain_withDesc] at hdesc
    rw [step_of_ended hended (endsLine_of_ending hu)]
    exact hdesc.exists_ok (goes_ending r s ht) hu

theorem exists_run_of_comment {ts : List Token} (hc : c.kind = .comment) (hts : ts ≠ [])
    (hs : ∀ t ∈ ts, t.kind ≠ .comment) (hq : r.step c = .ok q) (hu : q.run ts = .ok u) :
    ∃ v, r.run ts = .ok v ∧ v.plain = u.plain := by
  cases ts with
  | nil => exact absurd rfl hts
  | cons t ts =>
    obtain ⟨ht, hs⟩ := List.forall_mem_cons.mp hs
    cases hp : q.step t with
    | error e =>
      rw [run_cons_error ts hp] at hu
      cases hu
    | ok p =>
      rw [run_cons ts hp] at hu
      obtain ⟨p', hp', hplain⟩ := exists_step_of_comment hc ht hq hp
      rw [run_cons ts hp']
      exact exists_run_of_plain hplain rfl hs hu

theorem kind_ne_of_mem_uncommented {ts : List Token} (h : t ∈ Token.uncommented ts) :
    t.kind ≠ .comment := by
  simpa [Token.uncommented] using (List.mem_filter.mp h).2

/-- Comments may be left out, if a token that is none follows them. -/
theorem exists_run_uncommented {ts : List Token} (ht : t.kind ≠ .comment)
    (h : r.run (ts ++ [t]) = .ok u) :
    ∃ v, r.run (Token.uncommented ts ++ [t]) = .ok v ∧ v.plain = u.plain := by
  induction ts generalizing r with
  | nil => exact ⟨u, h, rfl⟩
  | cons c ts ih =>
    cases hs : r.step c with
    | error e =>
      rw [List.cons_append, run_cons_error _ hs] at h
      cases h
    | ok q =>
      rw [List.cons_append, run_cons _ hs] at h
      obtain ⟨v, hv, hplain⟩ := ih h
      by_cases hc : c.kind = .comment
      · have hskip : Token.uncommented (c :: ts) = Token.uncommented ts := by
          simp [Token.uncommented, hc]
        have hsaid : ∀ t' ∈ Token.uncommented ts ++ [t], t'.kind ≠ .comment :=
          List.forall_mem_append.mpr ⟨fun _ => kind_ne_of_mem_uncommented, by simpa using ht⟩
        obtain ⟨w, hw, hplain'⟩ := exists_run_of_comment hc (by simp) hsaid hs hv
        exact ⟨w, by rw [hskip, hw], hplain'.trans hplain⟩
      · have hkeep : Token.uncommented (c :: ts) = c :: Token.uncommented ts := by
          simp [Token.uncommented, hc]
        exact ⟨v, by rw [hkeep, List.cons_append, run_cons _ hs, hv], hplain⟩

end Reader

/-- The pattern without its positions and descriptions. -/
def Block.plain (b : Block) : Block := b.map (fun _ => .start) fun _ => .none

/-- Patterns of which the same has been read but for positions and descriptions. -/
theorem Block.plain_eq {r r' : Reader} (h : r'.plain = r.plain) (p p' q q' : Position)
    (d d' : Description) :
    Block.plain ⟨r'.statements, p', q', d'⟩ = Block.plain ⟨r.statements, p, q, d⟩ := by
  have hstatements : r'.statements.map Stmt.plain = r.statements.map Stmt.plain :=
    congrArg Reader.statements h
  simp only [Block.plain, Block.map, Stmt.mapAll_eq_map]
  exact congrArg (Block.mk · Position.start Position.start Description.none) hstatements

/-- Streams with the same tokens but for comments and positions are read as the same pattern, but
for positions and descriptions. -/
theorem Pattern.plain_of_uncommented {s s' : TokenStream} {b b' : Block}
    (hlast : s.last.kind = .endOfInput) (hlast' : s'.last.plain = s.last.plain)
    (h : (Token.uncommented s'.tokens).map Token.plain =
      (Token.uncommented s.tokens).map Token.plain)
    (hb : read s = .ok b) (hb' : read s' = .ok b') : b'.plain = b.plain := by
  obtain ⟨u, hu, rfl⟩ := exists_of_read_ok hb
  obtain ⟨u', hu', rfl⟩ := exists_of_read_ok hb'
  have hsaid : s.last.kind ≠ .comment := by simp [hlast]
  have hsaid' : s'.last.kind ≠ .comment := by
    have hkind : s'.last.plain.kind = s.last.plain.kind := congrArg Token.kind hlast'
    exact fun hc => hsaid (hkind.symm.trans hc)
  obtain ⟨v, hv, hvu⟩ := Reader.exists_run_uncommented hsaid hu
  obtain ⟨v', hv', hvu'⟩ := Reader.exists_run_uncommented hsaid' hu'
  have htokens : (Token.uncommented s'.tokens ++ [s'.last]).map Token.plain =
      (Token.uncommented s.tokens ++ [s.last]).map Token.plain := by
    simp only [List.map_append, h, List.map_cons, List.map_nil, hlast']
  have huncommented : ∀ t ∈ Token.uncommented s.tokens ++ [s.last], t.kind ≠ .comment :=
    List.forall_mem_append.mpr ⟨fun _ => Reader.kind_ne_of_mem_uncommented, by simpa using hsaid⟩
  obtain ⟨w, hw, hwv⟩ := Reader.exists_run_of_plain rfl htokens huncommented hv
  obtain rfl : w = v' := Except.ok.inj (hw.symm.trans hv')
  exact Block.plain_eq (hvu'.symm.trans (hwv.trans hvu)) _ _ _ _ _ _

end KnittingPattern
