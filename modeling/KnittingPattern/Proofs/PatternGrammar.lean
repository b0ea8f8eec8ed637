import KnittingPattern.Pattern.Tree
import KnittingPattern.Token

/-! # The grammar of patterns

Which trees patterns have: every name is a word, a bracket list holds names and sizes that can be
written, a row holds stitches and rows, and a statement is a synonym, a definition, a row or a
group.  Positions and descriptions play no part in the grammar.  Main definitions:
`Block.InGrammar`, `Block.bare`, `Block.unplaced`. -/

namespace KnittingPattern

/-- A name that can be written: a letter, then letters and hyphens. -/
def isWord (s : String) : Bool :=
  match s.toList with
  | c :: cs => Lexeme.isLetter c && cs.all Lexeme.isNamePart
  | [] => false

/-- Sizes that can be written.  A whole number has no sign and 64 bits; a name needs a measure, or
else `before`, for a name alone is no size; only the rest of the row has no amount.  Decimal numbers
may be excluded. -/
def Size.isWritten (decimals : Bool) (s : Size) : Bool :=
  match s.amount with
  | .whole n => 0 ≤ n && n.toNat < Nat.pow 2 63 && s.measure != .toEnd
  | .decimal _ => decimals && s.measure != .toEnd
  | .named id => isWord id.name && s.measure != .toEnd && (s.measure != .count || s.before)
  | .unstated => s.measure == .toEnd

/-- Arguments of a bracket list: names and sizes. -/
def Expr.isArgument (decimals : Bool) : Expr → Bool
  | .ident id => isWord id.name
  | .size s => s.isWritten decimals
  | _ => false

mutual

/-- Elements of a row: stitches and rows, each with a bracket list. -/
def Expr.isElement (decimals : Bool) : Expr → Bool
  | .stitch _ name args => isWord name.name && args.all (Expr.isArgument decimals)
  | .row es args => Expr.areElements decimals es && args.all (Expr.isArgument decimals)
  | _ => false

def Expr.areElements (decimals : Bool) : List Expr → Bool
  | [] => true
  | e :: es => e.isElement decimals && Expr.areElements decimals es

end

mutual

/-- What a name may be defined as: a row that is not empty, or a group. -/
def Expr.isDefinition (decimals : Bool) : Expr → Bool
  | .row es args =>
    !es.isEmpty && Expr.areElements decimals es && args.all (Expr.isArgument decimals)
  | .group _ _ args lines => Stmt.areLines decimals lines && args.all (Expr.isArgument decimals)
  | _ => false

/-- Statements; a block is none. -/
def Stmt.isLine (decimals : Bool) : Stmt → Bool
  | .synonym lhs rhs _ => isWord lhs.name && isWord rhs.name
  | .define lhs rhs _ => isWord lhs.name && rhs.isDefinition decimals
  | .row es args _ => Expr.areElements decimals es && args.all (Expr.isArgument decimals)
  | .group _ _ args lines _ => Stmt.areLines decimals lines && args.all (Expr.isArgument decimals)
  | .block _ _ _ _ => false

def Stmt.areLines (decimals : Bool) : List Stmt → Bool
  | [] => true
  | s :: ss => s.isLine decimals && Stmt.areLines decimals ss

end

def Identifier.map (f : Position → Position) (id : Identifier) : Identifier :=
  ⟨f id.position, id.name⟩

def Amount.map (f : Position → Position) : Amount → Amount
  | .named id => .named (id.map f)
  | a => a

def Size.map (f : Position → Position) (s : Size) : Size :=
  ⟨f s.position, s.amount.map f, s.measure, s.before⟩

section

variable (f : Position → Position) (g : Description → Description)

mutual

/-- An expression with other positions and descriptions. -/
def Expr.map : Expr → Expr
  | .ident id => .ident (id.map f)
  | .size s => .size (s.map f)
  | .stitch p name args => .stitch (f p) (name.map f) (Expr.mapAll args)
  | .row es args => .row (Expr.mapAll es) (Expr.mapAll args)
  | .group lbrace rbrace args lines =>
    .group (f lbrace) (f rbrace) (Expr.mapAll args) (Stmt.mapAll lines)

def Expr.mapAll : List Expr → List Expr
  | [] => []
  | e :: es => e.map :: Expr.mapAll es

/-- A statement with other positions and descriptions. -/
def Stmt.map : Stmt → Stmt
  | .synonym lhs rhs desc => .synonym (lhs.map f) (rhs.map f) (g desc)
  | .define lhs rhs desc => .define (lhs.map f) rhs.map (g desc)
  | .row es args desc => .row (Expr.mapAll es) (Expr.mapAll args) (g desc)
  | .group lbrace rbrace args lines desc =>
    .group (f lbrace) (f rbrace) (Expr.mapAll args) (Stmt.mapAll lines) (g desc)
  | .block ss start stop desc => .block (Stmt.mapAll ss) (f start) (f stop) (g desc)

def Stmt.mapAll : List Stmt → List Stmt
  | [] => []
  | s :: ss => s.map :: Stmt.mapAll ss

end

def Block.map (b : Block) : Block :=
  ⟨Stmt.mapAll f g b.statements, f b.start, f b.stop, g b.desc⟩

@[simp] theorem Expr.mapAll_eq_map (es : List Expr) : mapAll f g es = es.map (map f g) := by
  induction es with
  | nil => rfl
  | cons e es ih => simp [mapAll, ih]

@[simp] theorem Stmt.mapAll_eq_map (ss : List Stmt) : mapAll f g ss = ss.map (map f g) := by
  induction ss with
  | nil => rfl
  | cons s ss ih => simp [mapAll, ih]

end

/-- The pattern without descriptions. -/
def Block.bare (b : Block) : Block := b.map id fun _ => .none

/-- The pattern with all positions forgotten. -/
def Block.unplaced (b : Block) : Block := b.map (fun _ => .start) id

/-- The grammar of patterns: trees without descriptions whose statements are lines. -/
def Block.InGrammar (decimals : Bool) (b : Block) : Prop :=
  Stmt.areLines decimals b.statements ∧ b.bare = b

@[simp] theorem Expr.areElements_eq_all (decimals : Bool) (es : List Expr) :
    areElements decimals es = es.all (isElement decimals) := by
  induction es with
  | nil => rfl
  | cons e es ih => simp [areElements, ih]

@[simp] theorem Stmt.areLines_eq_all (decimals : Bool) (ss : List Stmt) :
    areLines decimals ss = ss.all (isLine decimals) := by
  induction ss with
  | nil => rfl
  | cons s ss ih => simp [areLines, ih]

section

variable (f f' : Position → Position) (g g' : Description → Description)

@[simp] theorem Identifier.map_map (id : Identifier) : (id.map f).map f' = id.map (f' ∘ f) := rfl

@[simp] theorem Size.map_map (s : Size) : (s.map f).map f' = s.map (f' ∘ f) := by
  rcases s with ⟨p, a, m, b⟩
  cases a <;> rfl

mutual

@[simp] theorem Expr.map_map (e : Expr) : (e.map f g).map f' g' = e.map (f' ∘ f) (g' ∘ g) := by
  cases e with
  | ident id => rfl
  | size s => simp [Expr.map]
  | stitch p name args => simpa [Expr.map] using Expr.map_map_list args
  | row es args => simpa [Expr.map] using ⟨Expr.map_map_list es, Expr.map_map_list args⟩
  | group lbrace rbrace args lines =>
    simpa [Expr.map] using ⟨Expr.map_map_list args, Stmt.map_map_list lines⟩

theorem Expr.map_map_list (es : List Expr) :
    ∀ e ∈ es, (e.map f g).map f' g' = e.map (f' ∘ f) (g' ∘ g) := by
  cases es with
  | nil => simp
  | cons e es => exact List.forall_mem_cons.mpr ⟨Expr.map_map e, Expr.map_map_list es⟩

@[simp] theorem Stmt.map_map (s : Stmt) : (s.map f g).map f' g' = s.map (f' ∘ f) (g' ∘ g) := by
  cases s with
  | synonym lhs rhs desc => simp [Stmt.map]
  | define lhs rhs desc => simp [Stmt.map, Expr.map_map rhs]
  | row es args desc => simpa [Stmt.map] using ⟨Expr.map_map_list es, Expr.map_map_list args⟩
  | group lbrace rbrace args lines desc =>
    simpa [Stmt.map] using ⟨Expr.map_map_list args, Stmt.map_map_list lines⟩
  | block ss start stop desc => simpa [Stmt.map] using Stmt.map_map_list ss

theorem Stmt.map_map_list (ss : List Stmt) :
    ∀ s ∈ ss, (s.map f g).map f' g' = s.map (f' ∘ f) (g' ∘ g) := by
  cases ss with
  | nil => simp
  | cons s ss => exact List.forall_mem_cons.mpr ⟨Stmt.map_map s, Stmt.map_map_list ss⟩

end

theorem Block.map_map (b : Block) : (b.map f g).map f' g' = b.map (f' ∘ f) (g' ∘ g) := by
  simp [Block.map]

variable (decimals : Bool)

@[simp] theorem Expr.isArgument_map (e : Expr) :
    (e.map f g).isArgument decimals = e.isArgument decimals := by
  cases e with
  | size s => rcases s with ⟨p, a, m, b⟩; cases a <;> rfl
  | _ => rfl

@[simp] theorem Expr.isArgument_comp_map :
    isArgument decimals ∘ map f g = isArgument decimals := by
  funext e
  exact isArgument_map f g decimals e

mutual

@[simp] theorem Expr.isElement_map (e : Expr) :
    (e.map f g).isElement decimals = e.isElement decimals := by
  cases e with
  | stitch p name args => simp [Expr.map, Expr.isElement, Identifier.map]
  | row es args => simp [Expr.map, Expr.isElement, Expr.all_isElement_map es]
  | _ => rfl

theorem Expr.all_isElement_map (es : List Expr) :
    es.all (Expr.isElement decimals ∘ Expr.map f g) = es.all (Expr.isElement decimals) := by
  cases es with
  | nil => rfl
  | cons e es => simp [Expr.isElement_map e, Expr.all_isElement_map es]

end

mutual

@[simp] theorem Expr.isDefinition_map (e : Expr) :
    (e.map f g).isDefinition decimals = e.isDefinition decimals := by
  cases e with
  | row es args => simp [Expr.map, Expr.isDefinition, Expr.all_isElement_map]
  | group lbrace rbrace args lines => simp [Expr.map, Expr.isDefinition, Stmt.all_isLine_map lines]
  | _ => rfl

@[simp] theorem Stmt.isLine_map (s : Stmt) : (s.map f g).isLine decimals = s.isLine decimals := by
  cases s with
  | define lhs rhs desc => simp [Stmt.map, Stmt.isLine, Identifier.map, Expr.isDefinition_map rhs]
  | row es args desc => simp [Stmt.map, Stmt.isLine, Expr.all_isElement_map]
  | group lbrace rbrace args lines desc =>
    simp [Stmt.map, Stmt.isLine, Stmt.all_isLine_map lines]
  | _ => rfl

theorem Stmt.all_isLine_map (ss : List Stmt) :
    ss.all (Stmt.isLine decimals ∘ Stmt.map f g) = ss.all (Stmt.isLine decimals) := by
  cases ss with
  | nil => rfl
  | cons s ss => simp [Stmt.isLine_map s, Stmt.all_isLine_map ss]

end

end

/-- A pattern whose statements are lines is in the grammar once its descriptions are dropped. -/
theorem Block.inGrammar_bare {decimals : Bool} {b : Block}
    (h : Stmt.areLines decimals b.statements) : b.bare.InGrammar decimals := by
  refine ⟨?_, b.map_map id id _ _⟩
  simpa [bare, map, Stmt.all_isLine_map] using h

/-- The tree without its positions. -/
def Expr.unplaced (e : Expr) : Expr := e.map (fun _ => .start) id

def Stmt.unplaced (s : Stmt) : Stmt := s.map (fun _ => .start) id

/-- The tree without its positions and descriptions. -/
def Expr.plain (e : Expr) : Expr := e.map (fun _ => .start) fun _ => .none

def Stmt.plain (s : Stmt) : Stmt := s.map (fun _ => .start) fun _ => .none

section

variable {p p' q q' : Position} {id id' : Identifier} {as as' es es' : List Expr}

theorem Identifier.unplaced_eq (h : id'.name = id.name) :
    id'.map (fun _ => .start) = id.map fun _ => .start := by
  simp [Identifier.map, h]

theorem Expr.unplaced_stitch (hn : id'.name = id.name) (ha : as'.map unplaced = as.map plain) :
    (stitch p' id' as').unplaced = (stitch p id as).plain := by
  simp only [unplaced, plain, Expr.map, mapAll_eq_map, Identifier.unplaced_eq hn]
  exact congrArg (stitch _ _) ha

theorem Expr.unplaced_row (he : es'.map unplaced = es.map plain)
    (ha : as'.map unplaced = as.map plain) : (row es' as').unplaced = (row es as).plain := by
  simp only [unplaced, plain, Expr.map, mapAll_eq_map]
  exact congr (congrArg row he) ha

theorem Stmt.unplaced_synonym {desc : Description} {lhs lhs' : Identifier}
    (hl : lhs'.name = lhs.name) (hr : id'.name = id.name) :
    (synonym lhs' id' .none).unplaced = (synonym lhs id desc).plain := by
  simp only [unplaced, plain, Stmt.map, Identifier.unplaced_eq hl, Identifier.unplaced_eq hr, id_eq]

theorem Stmt.unplaced_define {desc : Description} {e e' : Expr} (hn : id'.name = id.name)
    (he : e'.unplaced = e.plain) :
    (define id' e' .none).unplaced = (define id e desc).plain := by
  simp only [unplaced, plain, Stmt.map, Identifier.unplaced_eq hn, id_eq]
  exact congrArg (define _ · _) he

theorem Stmt.unplaced_row {desc : Description} (he : es'.map Expr.unplaced = es.map Expr.plain)
    (ha : as'.map Expr.unplaced = as.map Expr.plain) :
    (row es' as' .none).unplaced = (row es as desc).plain := by
  simp only [unplaced, plain, Stmt.map, Expr.mapAll_eq_map, id_eq]
  change row (es'.map Expr.unplaced) (as'.map Expr.unplaced) _ = _
  rw [he, ha]
  rfl

theorem Stmt.unplaced_group {desc : Description} {ss ss' : List Stmt}
    (ha : as'.map Expr.unplaced = as.map Expr.plain)
    (hs : ss'.map Stmt.unplaced = ss.map Stmt.plain) :
    (group p' q' as' ss' .none).unplaced = (group p q as ss desc).plain := by
  simp only [unplaced, plain, Stmt.map, Expr.mapAll_eq_map, mapAll_eq_map, id_eq]
  change group _ _ (as'.map Expr.unplaced) (ss'.map unplaced) _ = _
  rw [ha, hs]
  rfl

theorem Expr.unplaced_group {ss ss' : List Stmt} (ha : as'.map unplaced = as.map plain)
    (hs : ss'.map Stmt.unplaced = ss.map Stmt.plain) :
    (group p' q' as' ss').unplaced = (group p q as ss).plain := by
  simp only [unplaced, plain, Expr.map, mapAll_eq_map, Stmt.mapAll_eq_map]
  exact congr (congrArg (group _ _) ha) hs

end

end KnittingPattern
