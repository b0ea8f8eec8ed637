import KnittingPattern.Pattern.Decoding
import KnittingPattern.Proofs.DocumentReading
import KnittingPattern.Proofs.JsonRoundTrip

/-! # Patterns read back from JSON

Whatever a tree is written as is read as the same tree.  The reader may go one node deeper for each
array or object that it enters, and no node stands without one of its own; so the depth of the JSON
value is enough for the tree in it.  Main theorem: `Block.ofJson?_pretty`. -/

namespace KnittingPattern

/-- Lines and columns are numbers of 64 bits. -/
def Position.fits (p : Position) : Bool := p.line < 2 ^ 64 && p.column < 2 ^ 64

def Identifier.fits (id : Identifier) : Bool := id.position.fits

def Description.fits (d : Description) : Bool := d.comments.all fun c => c.position.fits

/-- Whole amounts are numbers of 64 bits, one of them for the sign; decimals are numbers. -/
def Amount.fits : Amount → Bool
  | whole n => -2 ^ 63 ≤ n && n < 2 ^ 63
  | decimal x => x ≠ .nan
  | named id => id.fits
  | unstated => true

def Size.fits (s : Size) : Bool := s.position.fits && s.amount.fits

theorem Position.ofJson?_document {p : Position} (h : p.fits) :
    ofJson? p.document.toJson = some p := by
  simp only [fits, Bool.and_eq_true, decide_eq_true_eq] at h
  simp [ofJson?, document, Document.nat64?_natural h.1, Document.nat64?_natural h.2]

theorem Identifier.ofJson?_document {id : Identifier} (h : id.fits) :
    ofJson? id.document.toJson = some id := by
  simp [ofJson?, document, fields, Position.ofJson?_document h]

theorem Description.ofJson?_document {d : Description} (h : d.fits) :
    ofJson? d.document.toJson = some d := by
  simp only [fits, List.all_eq_true] at h
  have hc : (Document.itemsToJson (d.comments.map fun c => Document.record
      [("at", c.position.document), ("text", .text c.text)])).mapM Comment.ofJson? =
        some d.comments := by
    refine Document.mapM_itemsToJson fun c hc => ?_
    simp [Comment.ofJson?, Position.ofJson?_document (h c hc)]
  simp [ofJson?, document, hc]

theorem Measure.ofJson?_label (m : Measure) (within : Bool) :
    ofJson? within (Document.text m.label).toJson = some m := by
  cases m <;> rfl

theorem Amount.ofJson?_document {a : Amount} (h : a.fits) (within : Bool) :
    ofJson? within a.document.toJson = some a := by
  cases a with
  | whole n =>
    simp only [fits, Bool.and_eq_true, decide_eq_true_eq] at h
    have hn := Decimal.int64?_toString h.1 h.2
    simp only [ofJson?, document, Document.alternative?_tagged, Document.text?_text,
      Option.bind_eq_bind, Option.bind_some, hn]
    rfl
  | decimal x =>
    have hx := Binary64.ofChars?_text (of_decide_eq_true h)
    simp [ofJson?, document, hx]
  | named id => simp [ofJson?, document, Identifier.ofJson?_document h]
  | unstated => rfl

theorem Size.ofJson?_document {s : Size} (h : s.fits) (within : Bool) :
    ofJson? within s.document.toJson = some s := by
  simp only [fits, Bool.and_eq_true] at h
  simp [ofJson?, document, fields, Position.ofJson?_document h.1, Amount.ofJson?_document h.2,
    Measure.ofJson?_label]

mutual

def Expr.fits : Expr → Bool
  | .ident id => id.fits
  | .size s => s.fits
  | .stitch p name args => p.fits && name.fits && Expr.allFit args
  | .row elements args => Expr.allFit elements && Expr.allFit args
  | .group lbrace rbrace args lines =>
    lbrace.fits && rbrace.fits && Expr.allFit args && Stmt.allFit lines

def Expr.allFit : List Expr → Bool
  | [] => true
  | e :: es => e.fits && Expr.allFit es

def Stmt.fits : Stmt → Bool
  | .synonym lhs rhs desc => lhs.fits && rhs.fits && desc.fits
  | .define lhs rhs desc => lhs.fits && rhs.fits && desc.fits
  | .row elements args desc => Expr.allFit elements && Expr.allFit args && desc.fits
  | .group lbrace rbrace args lines desc =>
    lbrace.fits && rbrace.fits && Expr.allFit args && Stmt.allFit lines && desc.fits
  | .block statements start stop desc =>
    Stmt.allFit statements && start.fits && stop.fits && desc.fits

def Stmt.allFit : List Stmt → Bool
  | [] => true
  | s :: ss => s.fits && Stmt.allFit ss

end

/-- Every number of the pattern can be held in 64 bits, and every decimal is a number. -/
def Block.fits (b : Block) : Bool := b.toStmt.fits

namespace Pattern

mutual

/-- The induction is on the tree; each node takes one level of the depth that is left. -/
theorem exprOfJson?_document {n : Nat} {e : Expr} (he : e.fits)
    (hn : e.document.toJson.depth ≤ n) : exprOfJson? true n e.document.toJson = some e := by
  cases e with
  | ident id =>
    obtain ⟨n, rfl, -⟩ := Document.exists_of_depth_typed hn
    have ht : (Expr.ident id).document.toJson.typed? =
        some (.text "IdentExpr", id.document.toJson) :=
      Document.typed?_typed (by simp [Identifier.fields])
    simp [exprOfJson?, exprTypes, ht, Identifier.ofJson?_document he]
  | size s =>
    obtain ⟨n, rfl, -⟩ := Document.exists_of_depth_typed hn
    have ht : (Expr.size s).document.toJson.typed? = some (.text "SizeExpr", s.document.toJson) :=
      Document.typed?_typed (by simp [Size.fields])
    simp [exprOfJson?, exprTypes, ht, Size.ofJson?_document he]
  | stitch p name args =>
    obtain ⟨n, rfl, hm⟩ := Document.exists_of_depth_typed hn
    simp only [Document.fieldsToJson, Json.depthFields, Document.depth_brackets] at hm
    simp only [Expr.fits, Bool.and_eq_true] at he
    have hargs := exprsOfJson?_documents he.2 (show _ ≤ n by omega)
    simp [exprOfJson?, Expr.document, exprTypes, Position.ofJson?_document he.1.1,
      Identifier.ofJson?_document he.1.2, hargs]
  | row elements args =>
    obtain ⟨n, rfl, hm⟩ := Document.exists_of_depth_typed hn
    simp only [Document.fieldsToJson, Json.depthFields, Document.depth_list,
      Document.depth_brackets] at hm
    simp only [Expr.fits, Bool.and_eq_true] at he
    have helements := exprsOfJson?_documents he.1 (show _ ≤ n by omega)
    have hargs := exprsOfJson?_documents he.2 (show _ ≤ n by omega)
    simp [exprOfJson?, Expr.document, exprTypes, helements, hargs]
  | group lbrace rbrace args lines =>
    obtain ⟨n, rfl, hm⟩ := Document.exists_of_depth_typed hn
    simp only [Document.fieldsToJson, Json.depthFields, Document.depth_list,
      Document.depth_brackets] at hm
    simp only [Expr.fits, Bool.and_eq_true] at he
    have hargs := exprsOfJson?_documents he.1.2 (show _ ≤ n by omega)
    have hlines := stmtsOfJson?_documents he.2 (show _ ≤ n by omega)
    simp [exprOfJson?, Expr.document, exprTypes, Position.ofJson?_document he.1.1.1,
      Position.ofJson?_document he.1.1.2, hargs, hlines]

theorem exprsOfJson?_documents {n : Nat} {es : List Expr} (he : Expr.allFit es)
    (hn : Json.depthItems (Document.itemsToJson (Expr.documents es)) ≤ n) :
    (Document.itemsToJson (Expr.documents es)).mapM (exprOfJson? true n) = some es := by
  cases es with
  | nil => rfl
  | cons e es =>
    simp only [Expr.documents, Document.itemsToJson, Json.depthItems] at hn ⊢
    simp only [Expr.allFit, Bool.and_eq_true] at he
    rw [List.mapM_cons, exprOfJson?_document he.1 (by omega),
      exprsOfJson?_documents he.2 (by omega)]
    rfl

theorem stmtOfJson?_document {n : Nat} {s : Stmt} (hs : s.fits)
    (hn : s.document.toJson.depth ≤ n) : stmtOfJson? n s.document.toJson = some s := by
  cases s with
  | synonym lhs rhs desc =>
    obtain ⟨n, rfl, -⟩ := Document.exists_of_depth_typed hn
    simp only [Stmt.fits, Bool.and_eq_true] at hs
    simp [stmtOfJson?, Stmt.document, stmtTypes, Identifier.ofJson?_document hs.1.1,
      Identifier.ofJson?_document hs.1.2, Description.ofJson?_document hs.2]
  | define lhs rhs desc =>
    obtain ⟨n, rfl, hm⟩ := Document.exists_of_depth_typed hn
    simp only [Document.fieldsToJson, Json.depthFields] at hm
    simp only [Stmt.fits, Bool.and_eq_true] at hs
    have hrhs := exprOfJson?_document hs.1.2 (show _ ≤ n by omega)
    simp [stmtOfJson?, Stmt.document, stmtTypes, Identifier.ofJson?_document hs.1.1, hrhs,
      Description.ofJson?_document hs.2]
  | row elements args desc =>
    obtain ⟨n, rfl, hm⟩ := Document.exists_of_depth_typed hn
    simp only [Document.fieldsToJson, Json.depthFields, Document.depth_record, Document.depth_list,
      Document.depth_brackets] at hm
    simp only [Stmt.fits, Bool.and_eq_true] at hs
    have helements := exprsOfJson?_documents hs.1.1 (show _ ≤ n by omega)
    have hargs := exprsOfJson?_documents hs.1.2 (show _ ≤ n by omega)
    simp [stmtOfJson?, Stmt.document, stmtTypes, helements, hargs,
      Description.ofJson?_document hs.2]
  | group lbrace rbrace args lines desc =>
    obtain ⟨n, rfl, hm⟩ := Document.exists_of_depth_typed hn
    simp only [Document.fieldsToJson, Json.depthFields, Document.depth_record, Document.depth_list,
      Document.depth_brackets] at hm
    simp only [Stmt.fits, Bool.and_eq_true] at hs
    have hargs := exprsOfJson?_documents hs.1.1.2 (show _ ≤ n by omega)
    have hlines := stmtsOfJson?_documents hs.1.2 (show _ ≤ n by omega)
    simp [stmtOfJson?, Stmt.document, stmtTypes, Position.ofJson?_document hs.1.1.1.1,
      Position.ofJson?_document hs.1.1.1.2, hargs, hlines, Description.ofJson?_document hs.2]
  | block statements start stop desc =>
    obtain ⟨n, rfl, hm⟩ := Document.exists_of_depth_typed hn
    simp only [Document.fieldsToJson, Json.depthFields, Document.depth_list] at hm
    simp only [Stmt.fits, Bool.and_eq_true] at hs
    have hstatements := stmtsOfJson?_documents hs.1.1.1 (show _ ≤ n by omega)
    simp [stmtOfJson?, blockOfJson?, Stmt.document, stmtTypes, Block.toStmt, hstatements,
      Position.ofJson?_document hs.1.1.2, Position.ofJson?_document hs.1.2,
      Description.ofJson?_document hs.2]

theorem stmtsOfJson?_documents {n : Nat} {ss : List Stmt} (hs : Stmt.allFit ss)
    (hn : Json.depthItems (Document.itemsToJson (Stmt.documents ss)) ≤ n) :
    (Document.itemsToJson (Stmt.documents ss)).mapM (stmtOfJson? n) = some ss := by
  cases ss with
  | nil => rfl
  | cons s ss =>
    simp only [Stmt.documents, Document.itemsToJson, Json.depthItems] at hn ⊢
    simp only [Stmt.allFit, Bool.and_eq_true] at hs
    rw [List.mapM_cons, stmtOfJson?_document hs.1 (by omega),
      stmtsOfJson?_documents hs.2 (by omega)]
    rfl

end

theorem isPlain_position {p : Position} (h : p.fits) : p.document.toJson.isPlain := by
  simp only [Position.fits, Bool.and_eq_true] at h
  simp [Position.document, -Nat.reducePow, h.1, h.2]

theorem isPlain_identifier {id : Identifier} (h : id.fits) : id.document.toJson.isPlain := by
  simp [Identifier.document, Identifier.fields, isPlain_position h]

theorem isPlain_description {d : Description} (h : d.fits) : d.document.toJson.isPlain := by
  simp only [Description.fits, List.all_eq_true] at h
  simpa [Description.document] using fun c hc => isPlain_position (h c hc)

theorem isPlain_amount {a : Amount} (h : a.fits) : a.document.toJson.isPlain := by
  cases a with
  | named id => simpa [Amount.document] using isPlain_identifier h
  | _ => rfl

theorem isPlain_size {s : Size} (h : s.fits) : s.document.toJson.isPlain := by
  simp only [Size.fits, Bool.and_eq_true] at h
  simp [Size.document, Size.fields, isPlain_position h.1, isPlain_amount h.2]

mutual

theorem isPlain_expr {e : Expr} (h : e.fits) : e.document.toJson.isPlain := by
  cases e with
  | ident id =>
    rw [Expr.document, Document.isPlain_typed]
    exact isPlain_identifier h
  | size s =>
    rw [Expr.document, Document.isPlain_typed]
    exact isPlain_size h
  | stitch p name args =>
    simp only [Expr.fits, Bool.and_eq_true] at h
    simp [Expr.document, isPlain_position h.1.1, isPlain_identifier h.1.2, arePlain_exprs h.2]
  | row elements args =>
    simp only [Expr.fits, Bool.and_eq_true] at h
    simp [Expr.document, arePlain_exprs h.1, arePlain_exprs h.2]
  | group lbrace rbrace args lines =>
    simp only [Expr.fits, Bool.and_eq_true] at h
    simp [Expr.document, isPlain_position h.1.1.1, isPlain_position h.1.1.2,
      arePlain_exprs h.1.2, arePlain_stmts h.2]

theorem arePlain_exprs {es : List Expr} (h : Expr.allFit es) :
    (Document.list (Expr.documents es)).toJson.isPlain := by
  cases es with
  | nil => rfl
  | cons e es =>
    simp only [Expr.allFit, Bool.and_eq_true] at h
    have hes := arePlain_exprs h.2
    rw [Document.isPlain_list] at hes ⊢
    rw [Expr.documents, List.all_cons, isPlain_expr h.1, hes, Bool.and_self]

theorem isPlain_stmt {s : Stmt} (h : s.fits) : s.document.toJson.isPlain := by
  cases s with
  | synonym lhs rhs desc =>
    simp only [Stmt.fits, Bool.and_eq_true] at h
    simp [Stmt.document, isPlain_identifier h.1.1, isPlain_identifier h.1.2,
      isPlain_description h.2]
  | define lhs rhs desc =>
    simp only [Stmt.fits, Bool.and_eq_true] at h
    simp [Stmt.document, isPlain_identifier h.1.1, isPlain_expr h.1.2, isPlain_description h.2]
  | row elements args desc =>
    simp only [Stmt.fits, Bool.and_eq_true] at h
    simp [Stmt.document, arePlain_exprs h.1.1, arePlain_exprs h.1.2, isPlain_description h.2]
  | group lbrace rbrace args lines desc =>
    simp only [Stmt.fits, Bool.and_eq_true] at h
    simp [Stmt.document, isPlain_position h.1.1.1.1, isPlain_position h.1.1.1.2,
      arePlain_exprs h.1.1.2, arePlain_stmts h.1.2, isPlain_description h.2]
  | block statements start stop desc =>
    simp only [Stmt.fits, Bool.and_eq_true] at h
    simp [Stmt.document, arePlain_stmts h.1.1.1, isPlain_position h.1.1.2,
      isPlain_position h.1.2, isPlain_description h.2]

theorem arePlain_stmts {ss : List Stmt} (h : Stmt.allFit ss) :
    (Document.list (Stmt.documents ss)).toJson.isPlain := by
  cases ss with
  | nil => rfl
  | cons s ss =>
    simp only [Stmt.allFit, Bool.and_eq_true] at h
    have hss := arePlain_stmts h.2
    rw [Document.isPlain_list] at hss ⊢
    rw [Stmt.documents, List.all_cons, isPlain_stmt h.1, hss, Bool.and_self]

end

end Pattern

namespace Block

theorem isPlain_toJson {b : Block} (h : b.fits) : b.toJson.isPlain := Pattern.isPlain_stmt h

/-- The fields of a block. -/
def fields (b : Block) : List (String × Document) :=
  [("statements", .list (Stmt.documents b.statements)), ("start", b.start.document),
    ("end", b.stop.document), ("desc", b.desc.document)]

theorem ofJsonValue?_toJson {b : Block} (h : b.fits) (hd : b.toJson.depth ≤ maxDepth) :
    Pattern.ofJsonValue? b.toJson = some b := by
  have hreadable := Json.readable_of_isPlain (isPlain_toJson h)
  have hjson : b.toJson = (Document.typed "BlockStmt" b.fields).toJson := rfl
  have htype : b.toJson.typed? = some (.text "BlockStmt", (Document.record b.fields).toJson) := by
    rw [hjson, Document.typed?_typed (by simp [fields])]
  have hdepth := Nat.le_of_eq (congrArg Json.depth hjson).symm
  obtain ⟨n, hn, hm⟩ := Document.exists_of_depth_typed hdepth
  simp only [fields, Document.fieldsToJson, Json.depthFields, Document.depth_list] at hm
  simp only [fits, toStmt, Stmt.fits, Bool.and_eq_true] at h
  have hstatements := Pattern.stmtsOfJson?_documents h.1.1.1 (show _ ≤ b.toJson.depth by omega)
  have hparts : Pattern.blockOfJson? (Pattern.stmtOfJson? b.toJson.depth)
      (Document.record b.fields).toJson = some b := by
    simp [Pattern.blockOfJson?, fields, hstatements, Position.ofJson?_document h.1.1.2,
      Position.ofJson?_document h.1.2, Description.ofJson?_document h.2]
  rw [Pattern.ofJsonValue?, if_pos ⟨hreadable, hd⟩, htype]
  exact hparts

/-- A pattern that is written is read as the same pattern, and written as the same text again; only
a text that nests too deeply is refused. -/
theorem ofJson?_pretty (b : Block) (h : b.fits) :
    (b.toJson.depth ≤ maxDepth → Pattern.ofJson? b.toJson.pretty = some b ∧
      (Pattern.ofJson? b.toJson.pretty).map (fun c => c.toJson.pretty) = some b.toJson.pretty) ∧
    (maxDepth < b.toJson.depth → Pattern.ofJson? b.toJson.pretty = none) := by
  have hparse : Pattern.ofJson? b.toJson.pretty = Pattern.ofJsonValue? b.toJson := by
    rw [Pattern.ofJson?, Json.parse?_pretty (isPlain_toJson h), Option.bind_some]
  rw [hparse]
  constructor
  · intro hd
    rw [ofJsonValue?_toJson h hd]
    exact ⟨rfl, rfl⟩
  · intro hd
    rw [Pattern.ofJsonValue?, if_neg fun hj => Nat.not_lt.mpr hj.2 hd]

/-- One row, in which so many rows nest around an expression. -/
def ofNestedRow (n : Nat) (e : Expr) : Block :=
  ⟨[.row [(fun e => Expr.row [e] [])^[n] e] [] .none], ⟨1, 1⟩, ⟨2, 0⟩, .none⟩

/-- A pattern whose text nests as deep as it may. -/
def atLimit : Block :=
  ofNestedRow 59 (.size ⟨⟨1, 60⟩, .named ⟨⟨1, 60⟩, "\"half\""⟩, .centimetres, true⟩)

/-- A pattern whose text nests one level too deep. -/
def beyondLimit : Block :=
  ofNestedRow 59 (.stitch ⟨1, 60⟩ ⟨⟨1, 60⟩, "k"⟩
    [.size ⟨⟨1, 61⟩, .whole (-2 ^ 63), .count, false⟩,
      .size ⟨⟨1, 63⟩, .decimal (.infinite true), .toEnd, true⟩])

theorem ofJson?_pretty_atLimit :
    (atLimit.fits ∧ atLimit.toJson.depth = 127 ∧
      Pattern.ofJson? atLimit.toJson.pretty = some atLimit) ∧
    (beyondLimit.fits ∧ beyondLimit.toJson.depth = 128 ∧
      Pattern.ofJson? beyondLimit.toJson.pretty = none) := by
  have hat : atLimit.fits ∧ atLimit.toJson.depth = 127 := by decide +kernel
  have hbeyond : beyondLimit.fits ∧ beyondLimit.toJson.depth = 128 := by decide +kernel
  have hread := (ofJson?_pretty atLimit hat.1).1 (Nat.le_of_eq hat.2)
  have hdeep : maxDepth < beyondLimit.toJson.depth := by
    rw [hbeyond.2]
    decide
  have hrefused := (ofJson?_pretty beyondLimit hbeyond.1).2 hdeep
  exact ⟨⟨hat.1, hat.2, hread.1⟩, hbeyond.1, hbeyond.2, hrefused⟩

end Block

end KnittingPattern
