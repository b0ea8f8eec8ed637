import KnittingPattern.Proofs.PatternDecoding
import KnittingPattern.Proofs.PatternNodes

/-! # The normal form of patterns in JSON

There are many ways to write a pattern in JSON, and one in which it is written.  Whatever a part of
a pattern is read from nests at least as deep as what it is written as, and the numbers that are
read can be held.  So a pattern that is read and written is read again.  Main theorem:
`Pattern.ofJson?_normalForm`. -/

namespace KnittingPattern

namespace Json

variable {n : Nat} {j part : Json} {js parts : List Json} {fs : List (String × Json)}

theorem depthItems_le_iff : depthItems js ≤ n ↔ ∀ j ∈ js, j.depth ≤ n := by
  induction js with
  | nil => simp [depthItems]
  | cons j js ih => simp [depthItems, ih]

theorem depthFields_le_iff : depthFields fs ≤ n ↔ ∀ f ∈ fs, f.2.depth ≤ n := by
  induction fs with
  | nil => simp [depthFields]
  | cons f fs ih => simp [depthFields, ih]

theorem depth_le_depthFields {f : String × Json} (h : f ∈ fs) : f.2.depth ≤ depthFields fs :=
  depthFields_le_iff.mp (Nat.le_refl _) f h

theorem exists_of_field? {name : String} (h : field? fs name = some (some j)) :
    ∃ f ∈ fs, f.2 = j := by
  unfold field? at h
  split at h
  · cases h
  · rename_i f hf
    cases h
    have hmem : f ∈ fs.filter fun f => f.1 = name := hf ▸ List.mem_singleton_self f
    exact ⟨f, (List.mem_filter.mp hmem).1, rfl⟩
  · cases h

/-- The parts of a record do not nest as deep as the record. -/
theorem depth_lt_of_record? {names : List String} (h : j.record? names = some parts) :
    ∀ part ∈ parts, part.depth < j.depth := by
  intro part hpart
  obtain ⟨found, hfound, h⟩ := Option.bind_eq_some_iff.mp h
  obtain ⟨_, hmem, rfl⟩ := exists_of_mem_mapM h hpart
  unfold parts? at hfound
  split at hfound
  · obtain ⟨name, -, hname⟩ := exists_of_mem_mapM hfound hmem
    obtain ⟨f, hf, rfl⟩ := exists_of_field? hname
    exact Nat.lt_succ_of_le (depth_le_depthFields hf)
  · split at hfound
    · cases hfound
      obtain ⟨item, hitem, h⟩ := List.mem_map.mp hmem
      cases h
      exact Nat.lt_succ_of_le (depthItems_le_iff.mp (Nat.le_refl _) _ hitem)
    · cases hfound
  · cases hfound

/-- A record without its type nests no deeper. -/
theorem depth_le_of_typed? {type rest : Json} (h : j.typed? = some (type, rest)) :
    rest.depth ≤ j.depth := by
  unfold typed? at h
  split at h
  · simp only [Option.bind_eq_bind, Option.bind_eq_some_iff] at h
    obtain ⟨_, -, _, -, h⟩ := h
    cases h
    refine Nat.succ_le_succ (depthFields_le_iff.mpr fun f hf => ?_)
    exact depth_le_depthFields (List.mem_filter.mp hf).1
  · cases h
    exact Nat.succ_le_succ (Nat.le_max_right _ _)
  · cases h

/-- The content of an alternative does not nest as deep as the alternative. -/
theorem depth_lt_of_alternative? {name : String} {content : Json}
    (h : j.alternative? = some (name, some content)) : content.depth < j.depth := by
  unfold alternative? at h
  split at h
  · cases h
  · cases h
    simp [depth, depthFields]
  · cases h

theorem depthItems_lt_of_array? (h : j.array? = some js) : depthItems js < j.depth := by
  unfold array? at h
  split at h
  · cases h
    exact Nat.lt_succ_self _
  · cases h

theorem depthItems_lt_of_args? (h : j.args? = some js) : depthItems js + 1 < j.depth := by
  simp only [args?, Option.bind_eq_bind, Option.bind_eq_some_iff] at h
  obtain ⟨parts, hparts, h⟩ := h
  split at h
  · have hargs := depth_lt_of_record? hparts
    simp only [List.forall_mem_singleton] at hargs
    have hitems := depthItems_lt_of_array? h
    omega
  · cases h

end Json

theorem Document.depth_typed (type : String) (fs : List (String × Document)) :
    (typed type fs).toJson.depth = (record fs).toJson.depth := by
  simp [typed, fieldsToJson, Json.depthFields, toJson, Json.depth]

theorem Document.itemsToJson_eq_map (ds : List Document) :
    itemsToJson ds = ds.map Document.toJson := by
  induction ds with
  | nil => rfl
  | cons d ds ih => rw [itemsToJson, ih, List.map_cons]

theorem Decimal.bounds_of_int64? {cs : List Char} {n : Int} (h : int64? cs = some n) :
    -2 ^ 63 ≤ n ∧ n < 2 ^ 63 := by
  simp only [int64?, Option.bind_eq_bind, Option.bind_eq_some_iff] at h
  obtain ⟨k, -, h⟩ := h
  have hpow : Nat.pow 2 63 = 2 ^ 63 := rfl
  split at h
  · split at h
    · cases h
      omega
    · cases h
  · split at h
    · cases h
      omega
    · cases h

theorem Position.fits_of_ofJson? {j : Json} {p : Position} (h : ofJson? j = some p) :
    p.fits ∧ p.document.toJson.depth ≤ j.depth := by
  simp only [ofJson?, Option.bind_eq_bind, Option.bind_eq_some_iff] at h
  obtain ⟨parts, hparts, h⟩ := h
  split at h
  · simp only [Option.bind_eq_some_iff] at h
    obtain ⟨line, hline, column, hcolumn, h⟩ := h
    cases h
    have hdepth := Json.depth_lt_of_record? hparts _ List.mem_cons_self
    refine ⟨by simp [fits, Json.lt_of_nat64? hline, Json.lt_of_nat64? hcolumn, -Nat.reducePow], ?_⟩
    exact Nat.lt_of_le_of_lt (Nat.zero_le _) hdepth
  · cases h

theorem Identifier.fits_of_ofJson? {j : Json} {id : Identifier} (h : ofJson? j = some id) :
    id.fits ∧ id.document.toJson.depth ≤ j.depth := by
  simp only [ofJson?, Option.bind_eq_bind, Option.bind_eq_some_iff] at h
  obtain ⟨parts, hparts, h⟩ := h
  split at h
  · simp only [Option.bind_eq_some_iff] at h
    obtain ⟨p, hp, name, -, h⟩ := h
    cases h
    have hdepth := Json.depth_lt_of_record? hparts _ List.mem_cons_self
    obtain ⟨hfits, hp⟩ := Position.fits_of_ofJson? hp
    refine ⟨hfits, ?_⟩
    simp only [document, fields, Document.fieldsToJson, Json.depthFields, Document.toJson,
      Json.depth]
    omega
  · cases h

theorem Comment.fits_of_ofJson? {j : Json} {c : Comment} (h : ofJson? j = some c) :
    c.position.fits ∧ c.position.document.toJson.depth < j.depth := by
  simp only [ofJson?, Option.bind_eq_bind, Option.bind_eq_some_iff] at h
  obtain ⟨parts, hparts, h⟩ := h
  split at h
  · simp only [Option.bind_eq_some_iff] at h
    obtain ⟨p, hp, text, -, h⟩ := h
    cases h
    have hdepth := Json.depth_lt_of_record? hparts _ List.mem_cons_self
    obtain ⟨hfits, hp⟩ := Position.fits_of_ofJson? hp
    exact ⟨hfits, Nat.lt_of_le_of_lt hp hdepth⟩
  · cases h

theorem Description.fits_of_ofJson? {j : Json} {d : Description} (h : ofJson? j = some d) :
    d.fits ∧ d.document.toJson.depth ≤ j.depth := by
  simp only [ofJson?, Option.bind_eq_bind, Option.bind_eq_some_iff] at h
  obtain ⟨parts, hparts, h⟩ := h
  split at h
  · simp only [Option.bind_eq_some_iff] at h
    obtain ⟨items, hitems, comments, hcomments, h⟩ := h
    cases h
    have hdepth := Json.depth_lt_of_record? hparts _ List.mem_cons_self
    have hlist := Json.depthItems_lt_of_array? hitems
    have hread : ∀ c ∈ comments, c.position.fits ∧
        c.position.document.toJson.depth + 1 ≤ Json.depthItems items := by
      intro c hc
      obtain ⟨item, hitem, hc⟩ := exists_of_mem_mapM hcomments hc
      obtain ⟨hfits, hc⟩ := Comment.fits_of_ofJson? hc
      exact ⟨hfits, Nat.le_trans hc (Json.depthItems_le_iff.mp (Nat.le_refl _) item hitem)⟩
    refine ⟨List.all_eq_true.mpr fun c hc => (hread c hc).1, ?_⟩
    have hitems : Json.depthItems (Document.itemsToJson (comments.map fun c =>
        .record [("at", c.position.document), ("text", .text c.text)])) ≤
          Json.depthItems items := by
      rw [Document.itemsToJson_eq_map, Json.depthItems_le_iff]
      simpa [Document.depth_record, Document.fieldsToJson, Json.depthFields, Document.toJson,
        Json.depth] using fun c hc => (hread c hc).2
    simp only [document, Document.depth_record, Document.fieldsToJson, Json.depthFields,
      Document.depth_list]
    omega
  · cases h

/-- Whatever an amount is read from nests as deep as it, and it can be held if it is a number. -/
theorem Amount.fits_of_ofJson? {within : Bool} {j : Json} {a : Amount}
    (h : ofJson? within j = some a) :
    (a ≠ .decimal .nan → a.fits) ∧ a.document.toJson.depth ≤ j.depth := by
  simp only [ofJson?, Option.bind_eq_bind, Option.bind_eq_some_iff] at h
  obtain ⟨alternative, halternative, h⟩ := h
  split at h
  · simp only [Option.bind_eq_some_iff] at h
    obtain ⟨literal, -, n, hn, h⟩ := h
    cases h
    have hdepth := Json.depth_lt_of_alternative? halternative
    have hn := Decimal.bounds_of_int64? hn
    exact ⟨fun _ => by simpa [fits] using hn, Nat.lt_of_le_of_lt (Nat.zero_le _) hdepth⟩
  · simp only [Option.bind_eq_some_iff] at h
    obtain ⟨literal, -, x, -, h⟩ := h
    cases h
    have hdepth := Json.depth_lt_of_alternative? halternative
    exact ⟨fun hx => by simpa [fits] using hx, Nat.lt_of_le_of_lt (Nat.zero_le _) hdepth⟩
  · simp only [Option.bind_eq_some_iff] at h
    obtain ⟨id, hid, h⟩ := h
    cases h
    have hdepth := Json.depth_lt_of_alternative? halternative
    obtain ⟨hfits, hid⟩ := Identifier.fits_of_ofJson? hid
    refine ⟨fun _ => hfits, ?_⟩
    simp only [document, Document.toJson, Json.depth, Json.depthFields] at hid ⊢
    omega
  · split at h
    · cases h
      exact ⟨fun _ => rfl, Nat.zero_le _⟩
    · cases h
  · cases h

theorem Size.fits_of_ofJson? {within : Bool} {j : Json} {s : Size}
    (h : ofJson? within j = some s) :
    (s.amount ≠ .decimal .nan → s.fits) ∧ s.document.toJson.depth ≤ j.depth := by
  simp only [ofJson?, Option.bind_eq_bind, Option.bind_eq_some_iff] at h
  obtain ⟨parts, hparts, h⟩ := h
  split at h
  · simp only [Option.bind_eq_some_iff] at h
    obtain ⟨p, hp, a, ha, m, -, before, -, h⟩ := h
    cases h
    have hdepth := Json.depth_lt_of_record? hparts
    simp only [List.forall_mem_cons] at hdepth
    obtain ⟨hfits, hp⟩ := Position.fits_of_ofJson? hp
    obtain ⟨hamount, ha⟩ := Amount.fits_of_ofJson? ha
    refine ⟨fun hnan => ?_, ?_⟩
    · rw [fits, hfits, hamount hnan, Bool.and_self]
    · simp only [document, fields, Document.depth_record, Document.fieldsToJson, Json.depthFields]
      have hmeasure : (Document.text m.label).toJson.depth = 0 := rfl
      have hbefore : (Document.flag before).toJson.depth = 0 := rfl
      omega
  · cases h

/-- The decimal of a node that is a size. -/
def Node.decimal? : Node → Option Binary64
  | .expr (.size ⟨_, .decimal x, _, _⟩) => some x
  | _ => none

/-- All decimals among nodes. -/
def Node.decimals (ns : List Node) : List Binary64 := ns.filterMap Node.decimal?

/-- All decimals of a pattern. -/
def Block.decimals (b : Block) : List Binary64 := Node.decimals b.nodes

@[simp] theorem Node.decimals_append (ns ns' : List Node) :
    decimals (ns ++ ns') = decimals ns ++ decimals ns' := List.filterMap_append

/-- What the expression is written as nests no deeper than the value, and it can be held if all its
decimals are numbers. -/
def Expr.ReadFrom (e : Expr) (j : Json) : Prop :=
  (.nan ∉ Node.decimals e.nodes → e.fits) ∧ e.document.toJson.depth ≤ j.depth

/-- What the statement is written as nests no deeper than the value, and it can be held if all its
decimals are numbers. -/
def Stmt.ReadFrom (s : Stmt) (j : Json) : Prop :=
  (.nan ∉ Node.decimals s.nodes → s.fits) ∧ s.document.toJson.depth ≤ j.depth

theorem Expr.allReadFrom {read : Json → Option Expr} (hread : ∀ j e, read j = some e → e.ReadFrom j)
    {js : List Json} {es : List Expr} (h : js.mapM read = some es) :
    (.nan ∉ Node.decimals (allNodes es) → allFit es) ∧
      Json.depthItems (Document.itemsToJson (documents es)) ≤ Json.depthItems js := by
  induction js generalizing es with
  | nil =>
    cases h
    exact ⟨fun _ => rfl, Nat.le_refl _⟩
  | cons j js ih =>
    simp only [List.mapM_cons, Option.bind_eq_bind, Option.bind_eq_some_iff] at h
    obtain ⟨e, he, es, hes, h⟩ := h
    cases h
    obtain ⟨hfits, hdepth⟩ := hread j e he
    obtain ⟨hallFit, hdepths⟩ := ih hes
    refine ⟨fun hnan => ?_, ?_⟩
    · simp only [allNodes, Node.decimals_append, List.mem_append, not_or] at hnan
      rw [allFit, hfits hnan.1, hallFit hnan.2, Bool.and_self]
    · simp only [documents, Document.itemsToJson, Json.depthItems]
      omega

theorem Stmt.allReadFrom {read : Json → Option Stmt} (hread : ∀ j s, read j = some s → s.ReadFrom j)
    {js : List Json} {ss : List Stmt} (h : js.mapM read = some ss) :
    (.nan ∉ Node.decimals (allNodes ss) → allFit ss) ∧
      Json.depthItems (Document.itemsToJson (documents ss)) ≤ Json.depthItems js := by
  induction js generalizing ss with
  | nil =>
    cases h
    exact ⟨fun _ => rfl, Nat.le_refl _⟩
  | cons j js ih =>
    simp only [List.mapM_cons, Option.bind_eq_bind, Option.bind_eq_some_iff] at h
    obtain ⟨s, hs, ss, hss, h⟩ := h
    cases h
    obtain ⟨hfits, hdepth⟩ := hread j s hs
    obtain ⟨hallFit, hdepths⟩ := ih hss
    refine ⟨fun hnan => ?_, ?_⟩
    · simp only [allNodes, Node.decimals_append, List.mem_append, not_or] at hnan
      rw [allFit, hfits hnan.1, hallFit hnan.2, Bool.and_self]
    · simp only [documents, Document.itemsToJson, Json.depthItems]
      omega

namespace Pattern

section

variable {n : Nat} {j : Json} (hexpr : ∀ j e, exprOfJson? true n j = some e → e.ReadFrom j)
  (hstmt : ∀ j s, stmtOfJson? n j = some s → s.ReadFrom j)

include hexpr

/-- The elements and arguments of a row. -/
theorem row_readFrom {elements args : Json} {xs ys : List Json} {es as : List Expr}
    (hparts : j.record? ["stitches", "args"] = some [elements, args])
    (hxs : elements.array? = some xs) (hes : xs.mapM (exprOfJson? true n) = some es)
    (hys : args.args? = some ys) (has : ys.mapM (exprOfJson? true n) = some as) :
    (.nan ∉ Node.decimals (Expr.allNodes es ++ Expr.allNodes as) →
      Expr.allFit es ∧ Expr.allFit as) ∧
    (Document.record [("stitches", .list (Expr.documents es)),
      ("args", .brackets (Expr.documents as))]).toJson.depth ≤ j.depth := by
  have hparts := Json.depth_lt_of_record? hparts
  simp only [List.forall_mem_cons] at hparts
  obtain ⟨hesfit, hes⟩ := Expr.allReadFrom hexpr hes
  obtain ⟨hasfit, has⟩ := Expr.allReadFrom hexpr has
  have hxs := Json.depthItems_lt_of_array? hxs
  have hys := Json.depthItems_lt_of_args? hys
  constructor
  · intro hnan
    simp only [Node.decimals_append, List.mem_append, not_or] at hnan
    exact ⟨hesfit hnan.1, hasfit hnan.2⟩
  · simp only [Document.depth_record, Document.fieldsToJson, Json.depthFields,
      Document.depth_list, Document.depth_brackets]
    omega

include hstmt

/-- The braces, arguments and lines of a group. -/
theorem group_readFrom {lbrace rbrace args lines : Json} {p q : Position} {xs ys : List Json}
    {as : List Expr} {ss : List Stmt}
    (hparts : j.record? ["lbrace", "rbrace", "args", "lines"] = some [lbrace, rbrace, args, lines])
    (hp : Position.ofJson? lbrace = some p) (hq : Position.ofJson? rbrace = some q)
    (hxs : args.args? = some xs) (has : xs.mapM (exprOfJson? true n) = some as)
    (hys : lines.array? = some ys) (hss : ys.mapM (stmtOfJson? n) = some ss) :
    (.nan ∉ Node.decimals (Stmt.allNodes ss ++ Expr.allNodes as) →
      p.fits ∧ q.fits ∧ Expr.allFit as ∧ Stmt.allFit ss) ∧
    (Document.record [("lbrace", p.document), ("rbrace", q.document),
      ("args", .brackets (Expr.documents as)),
      ("lines", .list (Stmt.documents ss))]).toJson.depth ≤ j.depth := by
  have hparts := Json.depth_lt_of_record? hparts
  simp only [List.forall_mem_cons] at hparts
  obtain ⟨hpfits, hp⟩ := Position.fits_of_ofJson? hp
  obtain ⟨hqfits, hq⟩ := Position.fits_of_ofJson? hq
  obtain ⟨hasfit, has⟩ := Expr.allReadFrom hexpr has
  obtain ⟨hssfit, hss⟩ := Stmt.allReadFrom hstmt hss
  have hxs := Json.depthItems_lt_of_args? hxs
  have hys := Json.depthItems_lt_of_array? hys
  constructor
  · intro hnan
    simp only [Node.decimals_append, List.mem_append, not_or] at hnan
    exact ⟨hpfits, hqfits, hasfit hnan.2, hssfit hnan.1⟩
  · simp only [Document.depth_record, Document.fieldsToJson, Json.depthFields,
      Document.depth_list, Document.depth_brackets]
    omega

/-- An expression is read from its value, if those within it are. -/
theorem exprOfJson?_readFrom {within : Bool} {e : Expr}
    (h : exprOfJson? within (n + 1) j = some e) : e.ReadFrom j := by
  simp only [exprOfJson?, Option.bind_eq_bind, Option.bind_eq_some_iff] at h
  obtain ⟨⟨type, rest⟩, htyped, name, -, h⟩ := h
  have hrest : rest.depth ≤ j.depth := Json.depth_le_of_typed? htyped
  split at h
  · simp only [Option.bind_eq_some_iff] at h
    obtain ⟨id, hid, h⟩ := h
    cases h
    obtain ⟨hfits, hdepth⟩ := Identifier.fits_of_ofJson? hid
    refine ⟨fun _ => hfits, ?_⟩
    rw [Expr.document, Document.depth_typed]
    exact Nat.le_trans hdepth hrest
  · simp only [Option.bind_eq_some_iff] at h
    obtain ⟨s, hs, h⟩ := h
    cases h
    obtain ⟨hfits, hdepth⟩ := Size.fits_of_ofJson? hs
    constructor
    · intro hnan
      refine hfits fun hs => hnan ?_
      obtain ⟨p, a, m, before⟩ := s
      subst hs
      exact List.mem_singleton_self _
    · rw [Expr.document, Document.depth_typed]
      exact Nat.le_trans hdepth hrest
  · simp only [Option.bind_eq_some_iff] at h
    obtain ⟨parts, hparts, h⟩ := h
    split at h
    · simp only [Option.bind_eq_some_iff] at h
      obtain ⟨p, hp, name, hname, items, hitems, args, hargs, h⟩ := h
      cases h
      have hparts := Json.depth_lt_of_record? hparts
      simp only [List.forall_mem_cons] at hparts
      obtain ⟨hpfits, hp⟩ := Position.fits_of_ofJson? hp
      obtain ⟨hnfits, hname⟩ := Identifier.fits_of_ofJson? hname
      obtain ⟨hafit, hargs⟩ := Expr.allReadFrom hexpr hargs
      have hitems := Json.depthItems_lt_of_args? hitems
      constructor
      · intro hnan
        rw [Expr.fits, hpfits, hnfits, hafit hnan]
        rfl
      · simp only [Expr.document, Document.depth_typed, Document.depth_record,
          Document.fieldsToJson, Json.depthFields, Document.depth_brackets]
        omega
    · cases h
  · simp only [Option.bind_eq_some_iff] at h
    obtain ⟨parts, hparts, h⟩ := h
    split at h
    · simp only [Option.bind_eq_some_iff] at h
      obtain ⟨xs, hxs, es, hes, ys, hys, as, has, h⟩ := h
      cases h
      obtain ⟨hfits, hdepth⟩ := row_readFrom hexpr hparts hxs hes hys has
      constructor
      · intro hnan
        simp [Expr.fits, hfits hnan]
      · rw [Expr.document, Document.depth_typed]
        exact Nat.le_trans hdepth hrest
    · cases h
  · simp only [Option.bind_eq_some_iff] at h
    obtain ⟨parts, hparts, h⟩ := h
    split at h
    · simp only [Option.bind_eq_some_iff] at h
      obtain ⟨p, hp, q, hq, xs, hxs, as, has, ys, hys, ss, hss, h⟩ := h
      cases h
      obtain ⟨hfits, hdepth⟩ := group_readFrom hexpr hstmt hparts hp hq hxs has hys hss
      constructor
      · intro hnan
        simp [Expr.fits, hfits hnan]
      · rw [Expr.document, Document.depth_typed]
        exact Nat.le_trans hdepth hrest
    · cases h
  · cases h

omit hexpr

theorem blockOfJson?_readFrom {b : Block} (h : blockOfJson? (stmtOfJson? n) j = some b) :
    b.toStmt.ReadFrom j := by
  simp only [blockOfJson?, Option.bind_eq_bind, Option.bind_eq_some_iff] at h
  obtain ⟨parts, hparts, h⟩ := h
  split at h
  · simp only [Option.bind_eq_some_iff] at h
    obtain ⟨xs, hxs, ss, hss, p, hp, q, hq, desc, hdesc, h⟩ := h
    cases h
    have hparts := Json.depth_lt_of_record? hparts
    simp only [List.forall_mem_cons] at hparts
    obtain ⟨hssfit, hss⟩ := Stmt.allReadFrom hstmt hss
    obtain ⟨hpfits, hp⟩ := Position.fits_of_ofJson? hp
    obtain ⟨hqfits, hq⟩ := Position.fits_of_ofJson? hq
    obtain ⟨hdfits, hdesc⟩ := Description.fits_of_ofJson? hdesc
    have hxs := Json.depthItems_lt_of_array? hxs
    constructor
    · intro hnan
      simp only [Block.toStmt, Stmt.fits, hpfits, hqfits, hdfits, hssfit hnan, Bool.and_self]
    · simp only [Block.toStmt, Stmt.document, Document.depth_typed, Document.depth_record,
        Document.fieldsToJson, Json.depthFields, Document.depth_list]
      omega
  · cases h

include hexpr

/-- A statement is read from its value, if those within it are. -/
theorem stmtOfJson?_readFrom {s : Stmt} (h : stmtOfJson? (n + 1) j = some s) : s.ReadFrom j := by
  simp only [stmtOfJson?, Option.bind_eq_bind, Option.bind_eq_some_iff] at h
  obtain ⟨⟨type, rest⟩, htyped, name, -, h⟩ := h
  have hrest : rest.depth ≤ j.depth := Json.depth_le_of_typed? htyped
  split at h
  · simp only [Option.bind_eq_some_iff] at h
    obtain ⟨parts, hparts, h⟩ := h
    split at h
    · simp only [Option.bind_eq_some_iff] at h
      obtain ⟨lhs, hlhs, rhs, hrhs, desc, hdesc, h⟩ := h
      cases h
      have hparts := Json.depth_lt_of_record? hparts
      simp only [List.forall_mem_cons] at hparts
      obtain ⟨hlfits, hlhs⟩ := Identifier.fits_of_ofJson? hlhs
      obtain ⟨hrfits, hrhs⟩ := Identifier.fits_of_ofJson? hrhs
      obtain ⟨hdfits, hdesc⟩ := Description.fits_of_ofJson? hdesc
      constructor
      · intro _
        rw [Stmt.fits, hlfits, hrfits, hdfits]
        rfl
      · simp only [Stmt.document, Document.depth_typed, Document.depth_record,
          Document.fieldsToJson, Json.depthFields]
        omega
    · cases h
  · simp only [Option.bind_eq_some_iff] at h
    obtain ⟨parts, hparts, h⟩ := h
    split at h
    · simp only [Option.bind_eq_some_iff] at h
      obtain ⟨lhs, hlhs, rhs, hrhs, desc, hdesc, h⟩ := h
      cases h
      have hparts := Json.depth_lt_of_record? hparts
      simp only [List.forall_mem_cons] at hparts
      obtain ⟨hlfits, hlhs⟩ := Identifier.fits_of_ofJson? hlhs
      obtain ⟨hrfits, hrhs⟩ := hexpr _ _ hrhs
      obtain ⟨hdfits, hdesc⟩ := Description.fits_of_ofJson? hdesc
      constructor
      · intro hnan
        rw [Stmt.fits, hlfits, hrfits hnan, hdfits]
        rfl
      · simp only [Stmt.document, Document.depth_typed, Document.depth_record,
          Document.fieldsToJson, Json.depthFields]
        omega
    · cases h
  · simp only [Option.bind_eq_some_iff] at h
    obtain ⟨parts, hparts, h⟩ := h
    split at h
    · simp only [Option.bind_eq_some_iff] at h
      obtain ⟨inner, hinner, h⟩ := h
      split at h
      · simp only [Option.bind_eq_some_iff] at h
        obtain ⟨xs, hxs, es, hes, ys, hys, as, has, desc, hdesc, h⟩ := h
        cases h
        have hparts := Json.depth_lt_of_record? hparts
        simp only [List.forall_mem_cons] at hparts
        obtain ⟨hfits, hdepth⟩ := row_readFrom hexpr hinner hxs hes hys has
        obtain ⟨hdfits, hdesc⟩ := Description.fits_of_ofJson? hdesc
        constructor
        · intro hnan
          simp [Stmt.fits, hfits hnan, hdfits]
        · simp only [Stmt.document, Document.depth_typed]
          simp only [Document.depth_record, Document.fieldsToJson, Json.depthFields] at hdepth ⊢
          omega
      · cases h
    · cases h
  · simp only [Option.bind_eq_some_iff] at h
    obtain ⟨parts, hparts, h⟩ := h
    split at h
    · simp only [Option.bind_eq_some_iff] at h
      obtain ⟨inner, hinner, h⟩ := h
      split at h
      · simp only [Option.bind_eq_some_iff] at h
        obtain ⟨p, hp, q, hq, xs, hxs, as, has, ys, hys, ss, hss, desc, hdesc, h⟩ := h
        cases h
        have hparts := Json.depth_lt_of_record? hparts
        simp only [List.forall_mem_cons] at hparts
        obtain ⟨hfits, hdepth⟩ := group_readFrom hexpr hstmt hinner hp hq hxs has hys hss
        obtain ⟨hdfits, hdesc⟩ := Description.fits_of_ofJson? hdesc
        constructor
        · intro hnan
          simp [Stmt.fits, hfits hnan, hdfits]
        · simp only [Stmt.document, Document.depth_typed]
          simp only [Document.depth_record, Document.fieldsToJson, Json.depthFields] at hdepth ⊢
          omega
      · cases h
    · cases h
  · obtain ⟨b, hb, rfl⟩ := Option.map_eq_some_iff.mp h
    obtain ⟨hfits, hdepth⟩ := blockOfJson?_readFrom hstmt hb
    exact ⟨hfits, Nat.le_trans hdepth hrest⟩
  · cases h

end

/-- Whatever is read nests no deeper when it is written, by induction on how deep it may nest. -/
theorem readFrom_of_ofJson? (n : Nat) :
    (∀ within j e, exprOfJson? within n j = some e → e.ReadFrom j) ∧
      ∀ j s, stmtOfJson? n j = some s → s.ReadFrom j := by
  induction n with
  | zero =>
    constructor
    · intro within j e h
      simp [exprOfJson?] at h
    · intro j s h
      simp [stmtOfJson?] at h
  | succ n ih =>
    exact ⟨fun _ _ _ h => exprOfJson?_readFrom (ih.1 true) ih.2 h,
      fun _ _ h => stmtOfJson?_readFrom (ih.1 true) ih.2 h⟩

theorem readFrom_of_ofJsonValue? {j : Json} {b : Block} (h : ofJsonValue? j = some b) :
    b.toStmt.ReadFrom j ∧ j.depth ≤ maxDepth := by
  unfold ofJsonValue? at h
  split at h
  · rename_i hj
    simp only [Option.bind_eq_bind, Option.bind_eq_some_iff] at h
    obtain ⟨⟨type, parts⟩, htyped, h⟩ := h
    split at h
    · obtain ⟨hfits, hdepth⟩ := blockOfJson?_readFrom (readFrom_of_ofJson? _).2 h
      exact ⟨⟨hfits, Nat.le_trans hdepth (Json.depth_le_of_typed? htyped)⟩, hj.2⟩
    · cases h
  · cases h

/-- A pattern that is read from a text in any spelling, and whose decimals are numbers, is written
as a text that nests no deeper and is read as the same pattern, and so written as the same text
again. -/
theorem ofJson?_normalForm {t : String} {b : Block} (h : ofJson? t = some b)
    (hnan : .nan ∉ b.decimals) :
    (∃ j, Json.parse? t = some j ∧ b.toJson.depth ≤ j.depth) ∧
    ofJson? b.toJson.pretty = some b ∧
    (ofJson? b.toJson.pretty).map (fun c => c.toJson.pretty) = some b.toJson.pretty := by
  obtain ⟨j, hj, h⟩ := Option.bind_eq_some_iff.mp h
  obtain ⟨⟨hfits, hdepth⟩, hmax⟩ := readFrom_of_ofJsonValue? h
  have hread := b.ofJson?_pretty (hfits hnan)
  exact ⟨⟨j, hj, hdepth⟩, hread.1 (Nat.le_trans hdepth hmax)⟩

/-- A pattern with the fields in another order and one more, records and sizes as arrays, a number
with a sign, and types by their number. -/
def oddSpelling : String :=
  "\x7b\"end\":[2,0],\"x\":[],\"desc\":[[]],\"type\":\"BlockStmt\",\"start\":[1,1]," ++
    "\"statements\":[[2,[[[2,[1,1],[[1,1],\"k\"],[[[1,[1,3],\x7b\"int\":\"+07\"\x7d," ++
    "\"cm\",false]]]]],[[]]],[[]]]]\x7d"

theorem ofJson?_normalForm_oddSpelling :
    ∃ b, ofJson? oddSpelling = some b ∧ .nan ∉ b.decimals ∧
      ofJson? b.toJson.pretty = some b := by
  have hread : (ofJson? oddSpelling).any fun b => .nan ∉ b.decimals := by decide +kernel
  cases h : ofJson? oddSpelling with
  | none =>
    rw [h] at hread
    cases hread
  | some b =>
    rw [h] at hread
    have hnan : .nan ∉ b.decimals := of_decide_eq_true hread
    exact ⟨b, rfl, hnan, (ofJson?_normalForm h hnan).2.1⟩

end Pattern

end KnittingPattern
