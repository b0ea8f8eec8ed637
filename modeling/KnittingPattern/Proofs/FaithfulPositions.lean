import KnittingPattern.Proofs.GroupComments
import KnittingPattern.Proofs.PatternNodes
import KnittingPattern.Proofs.TextSpots

/-! # Faithful positions

Names, sizes and groups keep where they stand in the text.  Main theorem:
`Pattern.ofText_positions`. -/

namespace KnittingPattern

open Token (Kind)

namespace Node

/-- The names of a node itself, from left to right. -/
def identifiers : Node → List Identifier
  | .expr (.ident id) | .expr (.size ⟨_, .named id, _, _⟩) | .expr (.stitch _ id _) => [id]
  | .stmt (.synonym lhs rhs _) => [lhs, rhs]
  | .stmt (.define lhs _ _) => [lhs]
  | _ => []

/-- The braces of a group and the statements between them. -/
def group? : Node → Option (Position × Position × List Stmt)
  | .expr (.group lbrace rbrace _ lines) | .stmt (.group lbrace rbrace _ lines _) =>
    some (lbrace, rbrace, lines)
  | _ => none

/-- The comments of a node itself. -/
def comments : Node → List Comment
  | .expr _ => []
  | .stmt s => s.desc.comments

/-- All positions that a node itself keeps. -/
def positions (n : Node) : List Position :=
  n.identifiers.map Identifier.position ++ n.comments.map Comment.position ++
    match n with
    | .expr (.size s) => [s.position]
    | .expr (.stitch p _ _) => [p]
    | .expr (.group lbrace rbrace _ _) | .stmt (.group lbrace rbrace _ _ _) => [lbrace, rbrace]
    | .stmt (.block _ start stop _) => [start, stop]
    | _ => []

/-- The spots of a node and of those within it. -/
def spots : Node → List TextSpot
  | .expr e => e.spots
  | .stmt s => s.spots

end Node

/-- All names of a pattern, from left to right. -/
def Block.identifiers (b : Block) : List Identifier := b.nodes.flatMap Node.identifiers

/-- The name that stands at a spot. -/
def TextSpot.identifier? : TextSpot → Option Identifier
  | .value _ (.named id) => some id
  | _ => none

mutual

theorem Expr.identifiers_eq (e : Expr) :
    e.nodes.flatMap Node.identifiers = e.spots.filterMap TextSpot.identifier? := by
  cases e with
  | ident id => rfl
  | size s =>
    obtain ⟨p, a, m, before⟩ := s
    cases a <;> rfl
  | stitch p name args =>
    simpa [Expr.nodes, Expr.spots, Node.identifiers, TextSpot.identifier?] using
      Expr.allIdentifiers_eq args
  | row es args =>
    simp [Expr.nodes, Expr.spots, Node.identifiers, Expr.allIdentifiers_eq es,
      Expr.allIdentifiers_eq args]
  | group lbrace rbrace args lines =>
    simp [Expr.nodes, Expr.spots, Node.identifiers, TextSpot.identifier?, List.filterMap_cons,
      Stmt.allIdentifiers_eq lines, Expr.allIdentifiers_eq args]

theorem Expr.allIdentifiers_eq (es : List Expr) :
    (Expr.allNodes es).flatMap Node.identifiers =
      (Expr.allSpots es).filterMap TextSpot.identifier? := by
  cases es with
  | nil => rfl
  | cons e es =>
    simp [Expr.allNodes, Expr.allSpots, Expr.identifiers_eq e, Expr.allIdentifiers_eq es]

theorem Stmt.identifiers_eq (s : Stmt) :
    s.nodes.flatMap Node.identifiers = s.spots.filterMap TextSpot.identifier? := by
  cases s with
  | synonym lhs rhs desc => rfl
  | define lhs rhs desc =>
    simpa [Stmt.nodes, Stmt.spots, Node.identifiers, TextSpot.identifier?, TextSpot.name] using
      Expr.identifiers_eq rhs
  | row es args desc =>
    simp [Stmt.nodes, Stmt.spots, Node.identifiers, Expr.allIdentifiers_eq es,
      Expr.allIdentifiers_eq args]
  | group lbrace rbrace args lines desc =>
    simp [Stmt.nodes, Stmt.spots, Node.identifiers, TextSpot.identifier?, List.filterMap_cons,
      Stmt.allIdentifiers_eq lines, Expr.allIdentifiers_eq args]
  | block ss start stop desc =>
    simpa [Stmt.nodes, Stmt.spots, Node.identifiers] using Stmt.allIdentifiers_eq ss

theorem Stmt.allIdentifiers_eq (ss : List Stmt) :
    (Stmt.allNodes ss).flatMap Node.identifiers =
      (Stmt.allSpots ss).filterMap TextSpot.identifier? := by
  cases ss with
  | nil => rfl
  | cons s ss =>
    simp [Stmt.allNodes, Stmt.allSpots, Stmt.identifiers_eq s, Stmt.allIdentifiers_eq ss]

end

section Together

variable {n : Node} {ns ms : List Node} {ss ts : List TextSpot}
  (hns : n ∈ ns → n.spots <:+: ss) (hms : n ∈ ms → n.spots <:+: ts)

include hns hms

theorem Node.isInfix_append (h : n ∈ ns ++ ms) : n.spots <:+: ss ++ ts := by
  rcases List.mem_append.mp h with h | h
  · exact (hns h).trans (List.prefix_append _ _).isInfix
  · exact (hms h).trans (List.suffix_append _ _).isInfix

theorem Node.isInfix_braces (l r : TextSpot) (h : n ∈ ns ++ ms) :
    n.spots <:+: l :: (ss ++ r :: ts) := by
  rcases List.mem_append.mp h with h | h
  · exact (hns h).trans ⟨[l], r :: ts, by simp⟩
  · exact (hms h).trans ⟨l :: (ss ++ [r]), [], by simp⟩

end Together

mutual

/-- The spots of a node stand together. -/
theorem Expr.isInfix_spots {e : Expr} {n : Node} (h : n ∈ e.nodes) : n.spots <:+: e.spots := by
  cases e with
  | ident id | size s =>
    obtain rfl := List.mem_singleton.mp h
    exact List.infix_refl _
  | stitch p name args =>
    rcases List.mem_cons.mp h with rfl | h
    · exact List.infix_refl _
    · exact (Expr.isInfix_allSpots h).trans (List.suffix_cons _ _).isInfix
  | row es args =>
    rcases List.mem_cons.mp h with rfl | h
    · exact List.infix_refl _
    · exact Node.isInfix_append Expr.isInfix_allSpots Expr.isInfix_allSpots h
  | group lbrace rbrace args lines =>
    rcases List.mem_cons.mp h with rfl | h
    · exact List.infix_refl _
    · exact Node.isInfix_braces Stmt.isInfix_allSpots Expr.isInfix_allSpots _ _ h

theorem Expr.isInfix_allSpots {es : List Expr} {n : Node} (h : n ∈ Expr.allNodes es) :
    n.spots <:+: Expr.allSpots es := by
  cases es with
  | nil => cases h
  | cons e es => exact Node.isInfix_append Expr.isInfix_spots Expr.isInfix_allSpots h

theorem Stmt.isInfix_spots {s : Stmt} {n : Node} (h : n ∈ s.nodes) : n.spots <:+: s.spots := by
  cases s with
  | synonym lhs rhs desc =>
    obtain rfl := List.mem_singleton.mp h
    exact List.infix_refl _
  | define lhs rhs desc =>
    rcases List.mem_cons.mp h with rfl | h
    · exact List.infix_refl _
    · exact (Expr.isInfix_spots h).trans (List.suffix_cons _ _).isInfix
  | row es args desc =>
    rcases List.mem_cons.mp h with rfl | h
    · exact List.infix_refl _
    · exact Node.isInfix_append Expr.isInfix_allSpots Expr.isInfix_allSpots h
  | group lbrace rbrace args lines desc =>
    rcases List.mem_cons.mp h with rfl | h
    · exact List.infix_refl _
    · exact Node.isInfix_braces Stmt.isInfix_allSpots Expr.isInfix_allSpots _ _ h
  | block ss start stop desc =>
    rcases List.mem_cons.mp h with rfl | h
    · exact List.infix_refl _
    · exact Stmt.isInfix_allSpots h

theorem Stmt.isInfix_allSpots {ss : List Stmt} {n : Node} (h : n ∈ Stmt.allNodes ss) :
    n.spots <:+: Stmt.allSpots ss := by
  cases ss with
  | nil => cases h
  | cons s ss => exact Node.isInfix_append Stmt.isInfix_spots Stmt.isInfix_allSpots h

end

theorem Node.InRow.comments_eq_nil {n : Node} (h : n.InRow) : n.comments = [] := by
  cases n with
  | expr e => rfl
  | stmt s => exact h.elim

theorem Node.InRow.comments_subset {n : Node} (h : n.InRow) (cs : List Comment) :
    n.comments ⊆ cs := by
  rw [h.comments_eq_nil]
  exact List.nil_subset cs

mutual

theorem Stmt.comments_line {s : Stmt} (h : s.isLine true) :
    ∀ n ∈ s.nodes, n.comments ⊆ s.comments := by
  have hs : (Node.stmt s).comments ⊆ s.comments := by
    rw [Stmt.comments_eq]
    exact List.subset_append_left _ _
  cases s with
  | synonym lhs rhs desc => exact List.forall_mem_singleton.mpr hs
  | define lhs rhs desc =>
    simp only [Stmt.isLine, Bool.and_eq_true] at h
    refine List.forall_mem_cons.mpr ⟨hs, ?_⟩
    cases rhs with
    | row es args =>
      simp only [Expr.isDefinition, Bool.and_eq_true] at h
      exact List.forall_mem_cons.mpr ⟨List.nil_subset _, fun n hn =>
        (Expr.nodes_row h.2.1.2 h.2.2 n hn).comments_subset _⟩
    | group lbrace rbrace args lines =>
      simp only [Expr.isDefinition, Bool.and_eq_true] at h
      exact List.forall_mem_cons.mpr ⟨List.nil_subset _, Stmt.comments_group h.2.1 h.2.2 desc⟩
    | _ => cases h.2
  | row es args desc =>
    simp only [Stmt.isLine, Bool.and_eq_true] at h
    exact List.forall_mem_cons.mpr ⟨hs, fun n hn =>
      (Expr.nodes_row h.1 h.2 n hn).comments_subset _⟩
  | group lbrace rbrace args lines desc =>
    simp only [Stmt.isLine, Bool.and_eq_true] at h
    exact List.forall_mem_cons.mpr ⟨hs, Stmt.comments_group h.1 h.2 desc⟩
  | block => cases h

theorem Stmt.comments_group {lines : List Stmt} {args : List Expr} (hl : Stmt.areLines true lines)
    (ha : args.all (Expr.isArgument true)) (desc : Description) :
    ∀ n ∈ Stmt.allNodes lines ++ Expr.allNodes args,
      n.comments ⊆ desc.comments ++ Stmt.allComments lines :=
  List.forall_mem_append.mpr
    ⟨fun n hn => List.subset_append_of_subset_right _ (Stmt.comments_lines hl n hn),
      fun n hn => (Expr.nodes_arguments ha n hn).comments_subset _⟩

/-- The comments of the nodes within statements are those of the statements. -/
theorem Stmt.comments_lines {ss : List Stmt} (h : Stmt.areLines true ss) :
    ∀ n ∈ Stmt.allNodes ss, n.comments ⊆ Stmt.allComments ss := by
  cases ss with
  | nil => simp [Stmt.allNodes]
  | cons s ss =>
    simp only [Stmt.areLines, Bool.and_eq_true] at h
    exact List.forall_mem_append.mpr
      ⟨fun n hn => List.subset_append_of_subset_left _ (Stmt.comments_line h.1 n hn),
        fun n hn => List.subset_append_of_subset_right _ (Stmt.comments_lines h.2 n hn)⟩

end

/-- What a spot says of the tokens of a text. -/
def TextSpot.StandsIn (ts : List Token) : TextSpot → Prop
  | .value p a => ∃ t ∈ ts, t.position = p ∧ t.value? = some a
  | .lbrace _ => True
  | .rbrace p opened lines =>
    (∃ pre t post ps, ts = pre ++ t :: post ∧ t.kind = .rightBrace ∧ t.position = p ∧
      Token.unmatched pre = opened :: ps) ∧
    ∀ c ∈ Stmt.allComments lines, opened.Before c.position ∧ c.position.Before p

namespace Reader

variable {r : Reader} {ts : List Token}

theorem standsIn_of_mem_spotsOf (hts : ts.Pairwise fun s t => s.position.Before t.position)
    {s : TextSpot} (hs : s ∈ start.spotsOf ts) : s.StandsIn ts := by
  obtain ⟨pre, t, post, q, rfl, hq, hs⟩ := exists_of_mem_spotsOf hs
  obtain ⟨hpre, -, hbefore⟩ := List.pairwise_append.mp hts
  unfold newSpots at hs
  split at hs
  · obtain rfl := List.mem_singleton.mp hs
    trivial
  · rename_i g gs hk hplace hgroups
    obtain rfl := List.mem_singleton.mp hs
    have hopens := (run_opens hq).1
    rw [opens, hplace, groupOpens, hgroups] at hopens
    refine ⟨⟨pre, t, post, _, rfl, hk, rfl, hopens.symm⟩, fun c hc => ?_⟩
    obtain ⟨⟨u, hu, hposition⟩, hlbrace⟩ :=
      (commentsWithin_of_run hpre hq).statements c hc
    rw [hgroups] at hlbrace
    refine ⟨hlbrace g rfl, ?_⟩
    rw [← hposition]
    exact hbefore u hu t List.mem_cons_self
  · cases hs
  · cases ha : t.value? with
    | none =>
      rw [ha] at hs
      cases hs
    | some a =>
      rw [ha] at hs
      obtain rfl := List.mem_singleton.mp hs
      exact ⟨t, by simp, rfl, ha⟩

end Reader

theorem Token.identifier_of_value? {t : Token} {id : Identifier}
    (h : t.value? = some (.named id)) :
    t.kind = .identifier ∧ t.literal = id.name ∧ t.position = id.position := by
  unfold value? at h
  split at h
  · rename_i hk
    cases h
    exact ⟨hk, rfl, rfl⟩
  · obtain ⟨n, hn⟩ | ⟨x, hx⟩ := Reader.amount?_cases h
    · cases hn
    · cases hx
  · cases h
  · cases h

/-- A name stands where its token stands. -/
theorem TextSpot.StandsIn.identifier {ts : List Token} {s : TextSpot} {id : Identifier}
    (h : s.StandsIn ts) (hid : s.identifier? = some id) : id.position = s.position ∧
      ∃ t ∈ ts, t.kind = .identifier ∧ t.literal = id.name ∧ t.position = id.position := by
  unfold identifier? at hid
  split at hid
  · cases hid
    obtain ⟨t, ht, hp, hvalue⟩ := h
    have hname := Token.identifier_of_value? hvalue
    exact ⟨hname.2.2.symm.trans hp, t, ht, hname⟩
  · cases hid

/-- Braces that match each other, by their positions. -/
def Token.Match (ts : List Token) (lbrace rbrace : Position) : Prop :=
  ∃ pre l inner r post, ts = pre ++ l :: (inner ++ r :: post) ∧
    l.kind = .leftBrace ∧ l.position = lbrace ∧ r.kind = .rightBrace ∧ r.position = rbrace ∧
    Token.Balanced inner

/-- Braces that match without the blanks match with them. -/
theorem Token.match_of_visible {source : Nat} {text : String} {pre post : List Token} {t : Token}
    {lbrace : Position} {ps : List Position}
    (h : TokenStream.visible source text = pre ++ t :: post) (ht : t.kind = .rightBrace)
    (hpre : unmatched pre = lbrace :: ps) : Match (tokenize source text) lbrace t.position := by
  obtain ⟨pre', rest, htext, rfl, hrest⟩ := List.filter_eq_append_iff.mp h
  obtain ⟨blanks, post', rfl, hblanks, -, -⟩ := List.filter_eq_cons_iff.mp hrest
  have hnone : blanks.filter (fun t => t.kind != .whitespace) = [] :=
    List.filter_eq_nil_iff.mpr hblanks
  have hopen : unmatched (pre' ++ blanks) = lbrace :: ps := by
    rw [← unmatched_filter, List.filter_append, hnone, List.append_nil]
    exact hpre
  obtain ⟨before, l, inner, hl, hk, hposition, -, hinner⟩ := exists_of_unmatched_eq_cons hopen
  refine ⟨before, l, inner, t, post', ?_, hk, hposition, ht, rfl, hinner⟩
  rw [htext, ← List.append_assoc, hl, List.append_assoc]
  rfl

namespace Node

theorem InGrammar.areLines {n : Node} (h : n.InGrammar) {lbrace rbrace : Position}
    {lines : List Stmt} (hn : n.group? = some (lbrace, rbrace, lines)) :
    Stmt.areLines true lines := by
  unfold group? at hn
  split at hn
  · cases hn
    obtain h | h | h := h
    · cases h
    · cases h
    · exact (Bool.and_eq_true_iff.mp h).1
  · cases hn
    exact (Bool.and_eq_true_iff.mp h).1
  · cases hn

/-- The spots of a group begin with one brace and hold the other behind its statements. -/
theorem spots_of_group? {n : Node} {lbrace rbrace : Position} {lines : List Stmt}
    (h : n.group? = some (lbrace, rbrace, lines)) : ∃ rest, n.spots =
      .lbrace lbrace :: (Stmt.allSpots lines ++ .rbrace rbrace lbrace lines :: rest) := by
  unfold group? at h
  split at h
  · cases h
    exact ⟨_, rfl⟩
  · cases h
    exact ⟨_, rfl⟩
  · cases h

theorem exists_of_mem_braces {n : Node} {lbrace rbrace p : Position} {lines : List Stmt}
    (h : ∃ rest, n.spots =
      .lbrace lbrace :: (Stmt.allSpots lines ++ .rbrace rbrace lbrace lines :: rest))
    (hp : p ∈ [lbrace, rbrace]) : ∃ s ∈ n.spots, s.position = p := by
  obtain ⟨rest, h⟩ := h
  rw [h]
  obtain rfl | hp := List.mem_cons.mp hp
  · exact ⟨.lbrace p, List.mem_cons_self, rfl⟩
  · obtain rfl := List.mem_singleton.mp hp
    exact ⟨.rbrace p lbrace lines, by simp, rfl⟩

/-- Every position that a node keeps is that of one of its names, comments or spots. -/
theorem InGrammar.of_mem_positions {n : Node} (h : n.InGrammar) {p : Position}
    (hp : p ∈ n.positions) : (∃ id ∈ n.identifiers, id.position = p) ∨
      (∃ c ∈ n.comments, c.position = p) ∨ ∃ s ∈ n.spots, s.position = p := by
  rcases List.mem_append.mp hp with hp | hp
  · rcases List.mem_append.mp hp with hp | hp
    · exact .inl (List.mem_map.mp hp)
    · exact .inr (.inl (List.mem_map.mp hp))
  · refine .inr (.inr ?_)
    cases n with
    | expr e =>
      cases e with
      | size s =>
        obtain rfl := List.mem_singleton.mp hp
        exact ⟨.value s.position s.amount, List.mem_singleton_self _, rfl⟩
      | stitch p' name args =>
        obtain rfl := List.mem_singleton.mp hp
        exact ⟨.value p (.named name), List.mem_cons_self, rfl⟩
      | group lbrace rbrace args lines =>
        have hbraces := spots_of_group? (n := .expr (.group lbrace rbrace args lines)) rfl
        exact exists_of_mem_braces hbraces hp
      | _ => cases hp
    | stmt s =>
      cases s with
      | group lbrace rbrace args lines desc =>
        have hbraces := spots_of_group? (n := .stmt (.group lbrace rbrace args lines desc)) rfl
        exact exists_of_mem_braces hbraces hp
      | block => cases h
      | _ => cases hp

end Node

namespace Pattern

variable {text : String} {b : Block}

theorem spots_of_ofText (h : ofText text = .ok b) :
    (Stmt.allSpots b.statements).Sublist
      (Reader.start.spotsOf (TokenStream.visible 0 text)) := by
  obtain ⟨r, hr, rfl⟩ := exists_of_read_ok h
  obtain ⟨q, hq, hr⟩ := Reader.exists_of_run_append hr
  obtain ⟨r', hlast, hr⟩ := Reader.exists_of_run_cons hr
  cases hr
  have hlast := Reader.points_step q _ _ hlast
  rw [Reader.newSpots_of_endsSource rfl, List.append_nil] at hlast
  have hstatements : (Stmt.allSpots r.statements).Sublist r.spots :=
    (List.sublist_append_right _ _).trans (List.sublist_append_left _ _)
  exact (hstatements.trans hlast).trans (Reader.run_spots hq)

theorem pairwise_visible (text : String) :
    (TokenStream.visible 0 text).Pairwise fun s t => s.position.Before t.position :=
  (Token.pairwise_place (Lexeme.cuts_scan _)).filter _

/-- The spots of a tree stand in the order of the text. -/
theorem pairwise_spots (h : ofText text = .ok b) :
    (Stmt.allSpots b.statements).Pairwise fun s t => s.position.Before t.position := by
  have htokens := List.pairwise_map.mpr (pairwise_visible text)
  have hspots := htokens.sublist (Reader.positions_spotsOf .start _)
  exact (List.pairwise_map.mp hspots).sublist (spots_of_ofText h)

theorem standsIn_of_ofText (h : ofText text = .ok b) {s : TextSpot}
    (hs : s ∈ Stmt.allSpots b.statements) : s.StandsIn (TokenStream.visible 0 text) :=
  Reader.standsIn_of_mem_spotsOf (pairwise_visible text) ((spots_of_ofText h).subset hs)

theorem pairwise_identifiers (h : ofText text = .ok b) :
    b.identifiers.Pairwise fun x y => x.position.Before y.position := by
  rw [Block.identifiers, Block.nodes, Stmt.allIdentifiers_eq, List.pairwise_filterMap]
  refine (pairwise_spots h).imp_of_mem fun {s s'} hs hs' hbefore x hx y hy => ?_
  rw [((standsIn_of_ofText h hs).identifier hx).1, ((standsIn_of_ofText h hs').identifier hy).1]
  exact hbefore

theorem token_of_mem_identifiers (h : ofText text = .ok b) {id : Identifier}
    (hid : id ∈ b.identifiers) : ∃ t ∈ TokenStream.visible 0 text,
      t.kind = .identifier ∧ t.literal = id.name ∧ t.position = id.position := by
  rw [Block.identifiers, Block.nodes, Stmt.allIdentifiers_eq] at hid
  obtain ⟨s, hs, hid⟩ := List.mem_filterMap.mp hid
  exact ((standsIn_of_ofText h hs).identifier hid).2

theorem mem_spots_of_mem_nodes {n : Node} (hn : n ∈ b.nodes) {s : TextSpot} (hs : s ∈ n.spots) :
    s ∈ Stmt.allSpots b.statements :=
  (Stmt.isInfix_allSpots hn).subset hs

/-- Whatever stands within a group stands between its braces. -/
theorem before_of_mem_group (h : ofText text = .ok b) {n : Node} (hn : n ∈ b.nodes)
    {lbrace rbrace : Position} {lines : List Stmt} (hg : n.group? = some (lbrace, rbrace, lines))
    {m : Node} (hm : m ∈ Stmt.allNodes lines) {p : Position} (hp : p ∈ m.positions) :
    lbrace.Before p ∧ p.Before rbrace := by
  obtain ⟨rest, hspots⟩ := Node.spots_of_group? hg
  have hpairs := (pairwise_spots h).sublist (Stmt.isInfix_allSpots hn).sublist
  rw [hspots] at hpairs
  obtain ⟨hl, hpairs⟩ := List.pairwise_cons.mp hpairs
  obtain ⟨-, -, hr⟩ := List.pairwise_append.mp hpairs
  have hspot : ∀ s ∈ Stmt.allSpots lines, lbrace.Before s.position ∧ s.position.Before rbrace :=
    fun s hs => ⟨hl s (List.mem_append_left _ hs), hr s hs _ List.mem_cons_self⟩
  have hstands : ∀ s ∈ n.spots, s.StandsIn (TokenStream.visible 0 text) :=
    fun s hs => standsIn_of_ofText h (mem_spots_of_mem_nodes hn hs)
  rw [hspots] at hstands
  have hlines := (Stmt.nodes_lines (areLines_of_ofSources h) n hn).areLines hg
  obtain ⟨id, hid, rfl⟩ | ⟨c, hc, rfl⟩ | ⟨s, hs, rfl⟩ :=
    (Stmt.nodes_lines hlines m hm).of_mem_positions hp
  · have hid : id ∈ (Stmt.allNodes lines).flatMap Node.identifiers :=
      List.mem_flatMap.mpr ⟨m, hm, hid⟩
    rw [Stmt.allIdentifiers_eq] at hid
    obtain ⟨s, hs, hid⟩ := List.mem_filterMap.mp hid
    have hs' := hstands s (List.mem_cons_of_mem _ (List.mem_append_left _ hs))
    rw [(hs'.identifier hid).1]
    exact hspot s hs
  · have hrbrace : (TextSpot.rbrace rbrace lbrace lines).StandsIn (TokenStream.visible 0 text) :=
      hstands _ (by simp)
    exact hrbrace.2 c (Stmt.comments_lines hlines m hm hc)
  · exact hspot s ((Stmt.isInfix_allSpots hm).subset hs)

/-- The braces of a group match each other. -/
theorem match_of_group? (h : ofText text = .ok b) {n : Node} (hn : n ∈ b.nodes)
    {lbrace rbrace : Position} {lines : List Stmt}
    (hg : n.group? = some (lbrace, rbrace, lines)) :
    Token.Match (Token.tokenize 0 text) lbrace rbrace := by
  obtain ⟨rest, hspots⟩ := Node.spots_of_group? hg
  have hrbrace : TextSpot.rbrace rbrace lbrace lines ∈ n.spots := by simp [hspots]
  obtain ⟨⟨pre, t, post, ps, hts, hk, rfl, hpre⟩, -⟩ :=
    standsIn_of_ofText h (mem_spots_of_mem_nodes hn hrbrace)
  exact Token.match_of_visible hts hk hpre

/-- What a tree keeps of positions is where its names, the values of its sizes and the braces of its
groups stand in the text. -/
theorem ofText_positions (h : ofText text = .ok b) :
    (∀ id ∈ b.identifiers, ∃ t ∈ Token.tokenize 0 text,
      t.kind = .identifier ∧ t.literal = id.name ∧ t.position = id.position) ∧
    (b.identifiers.map Identifier.position).Nodup ∧
    b.identifiers.Pairwise (fun x y => x.position.Before y.position) ∧
    (∀ p name args, .expr (.stitch p name args) ∈ b.nodes → p = name.position) ∧
    (∀ s, .expr (.size s) ∈ b.nodes → ∃ t ∈ Token.tokenize 0 text,
      t.position = s.position ∧ t.value? = some s.amount) ∧
    ∀ n ∈ b.nodes, ∀ lbrace rbrace lines, n.group? = some (lbrace, rbrace, lines) →
      Token.Match (Token.tokenize 0 text) lbrace rbrace ∧
      ∀ m ∈ Stmt.allNodes lines, ∀ p ∈ m.positions, lbrace.Before p ∧ p.Before rbrace := by
  refine ⟨fun id hid => ?_, ?_, pairwise_identifiers h, fun p name args hn => ?_,
    fun s hn => ?_, fun n hn lbrace rbrace lines hg => ?_⟩
  · obtain ⟨t, ht, htoken⟩ := token_of_mem_identifiers h hid
    exact ⟨t, (List.mem_filter.mp ht).1, htoken⟩
  · refine List.pairwise_map.mpr ((pairwise_identifiers h).imp fun {x y} hbefore heq => ?_)
    simp [Position.Before, heq] at hbefore
  · have hspot : TextSpot.value p (.named name) ∈ (Node.expr (.stitch p name args)).spots :=
      List.mem_cons_self
    exact ((standsIn_of_ofText h (mem_spots_of_mem_nodes hn hspot)).identifier rfl).1.symm
  · have hspot : TextSpot.value s.position s.amount ∈ (Node.expr (.size s)).spots :=
      List.mem_singleton_self _
    obtain ⟨t, ht, hvalue⟩ := standsIn_of_ofText h (mem_spots_of_mem_nodes hn hspot)
    exact ⟨t, (List.mem_filter.mp ht).1, hvalue⟩
  · exact ⟨match_of_group? h hn hg, fun m hm p hp => before_of_mem_group h hn hg hm hp⟩

/-- A group within a group, with a size that is a name behind a minus and one with a unit. -/
def edging : Block :=
  let two (p : Position) (m : Measure) : Expr := .size ⟨p, .whole 2, m, false⟩
  let row : Stmt := .row
    [.stitch ⟨5, 1⟩ ⟨⟨5, 1⟩, "k"⟩ [.size ⟨⟨5, 4⟩, .named ⟨⟨5, 4⟩, "n"⟩, .count, true⟩],
      .stitch ⟨5, 7⟩ ⟨⟨5, 7⟩, "yo"⟩ [two ⟨5, 10⟩ .centimetres]] [] .none
  let inner : Expr :=
    .group ⟨4, 5⟩ ⟨6, 1⟩ [.size ⟨⟨6, 3⟩, .unstated, .toEnd, false⟩] [row]
  ⟨[.synonym ⟨⟨1, 1⟩, "n"⟩ ⟨⟨1, 6⟩, "edge"⟩ .none,
    .group ⟨2, 1⟩ ⟨7, 1⟩ [two ⟨7, 3⟩ .count]
      [.define ⟨⟨4, 1⟩, "g"⟩ inner ⟨[⟨⟨3, 1⟩, "; rib"⟩]⟩] .none], ⟨1, 1⟩, ⟨8, 0⟩, .none⟩

def edgingText : String := "n := edge\n\x7b\n; rib\ng = \x7b\nk(-n) yo(2cm)\n\x7d(*)\n\x7d(2)\n"

theorem ofText_positions_edging :
    ofText edgingText = .ok edging ∧
    edging.identifiers.map Identifier.position =
      [⟨1, 1⟩, ⟨1, 6⟩, ⟨4, 1⟩, ⟨5, 1⟩, ⟨5, 4⟩, ⟨5, 7⟩] ∧
    edging.identifiers.Pairwise (fun x y => x.position.Before y.position) ∧
    (∃ t ∈ Token.tokenize 0 edgingText, t.position = ⟨5, 10⟩ ∧ t.value? = some (.whole 2)) ∧
    Token.Match (Token.tokenize 0 edgingText) ⟨2, 1⟩ ⟨7, 1⟩ ∧
    Token.Match (Token.tokenize 0 edgingText) ⟨4, 5⟩ ⟨6, 1⟩ := by
  have h : ofText edgingText = .ok edging := rfl
  obtain ⟨-, -, hpairs, -, hsizes, hgroups⟩ := ofText_positions h
  have hsize : .expr (.size ⟨⟨5, 10⟩, .whole 2, .centimetres, false⟩) ∈ edging.nodes :=
    List.mem_of_getElem? (i := 8) rfl
  have houter := (hgroups _ (List.mem_of_getElem? (i := 1) rfl) _ _ _ rfl).1
  have hinner := (hgroups _ (List.mem_of_getElem? (i := 3) rfl) _ _ _ rfl).1
  exact ⟨h, rfl, hpairs, hsizes _ hsize, houter, hinner⟩

end Pattern

end KnittingPattern
