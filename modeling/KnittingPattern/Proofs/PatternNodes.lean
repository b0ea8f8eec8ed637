import KnittingPattern.Proofs.ReaderGrammar

/-! # The nodes of a pattern

The expressions and statements of a pattern in the order of the text: a node stands before those
within it, the elements of a row and the lines of a group before their arguments.  In the grammar
every node is an argument, an element, a definition or a line.  Main definition: `Block.nodes`. -/

namespace KnittingPattern

inductive Node where
  | expr (e : Expr)
  | stmt (s : Stmt)

mutual

/-- An expression with all nodes within it. -/
def Expr.nodes : Expr → List Node
  | .ident id => [.expr (.ident id)]
  | .size s => [.expr (.size s)]
  | .stitch p name args => .expr (.stitch p name args) :: Expr.allNodes args
  | .row es args => .expr (.row es args) :: (Expr.allNodes es ++ Expr.allNodes args)
  | .group lbrace rbrace args lines =>
    .expr (.group lbrace rbrace args lines) :: (Stmt.allNodes lines ++ Expr.allNodes args)

def Expr.allNodes : List Expr → List Node
  | [] => []
  | e :: es => e.nodes ++ Expr.allNodes es

/-- A statement with all nodes within it. -/
def Stmt.nodes : Stmt → List Node
  | .synonym lhs rhs desc => [.stmt (.synonym lhs rhs desc)]
  | .define lhs rhs desc => .stmt (.define lhs rhs desc) :: rhs.nodes
  | .row es args desc => .stmt (.row es args desc) :: (Expr.allNodes es ++ Expr.allNodes args)
  | .group lbrace rbrace args lines desc =>
    .stmt (.group lbrace rbrace args lines desc) :: (Stmt.allNodes lines ++ Expr.allNodes args)
  | .block ss start stop desc => .stmt (.block ss start stop desc) :: Stmt.allNodes ss

def Stmt.allNodes : List Stmt → List Node
  | [] => []
  | s :: ss => s.nodes ++ Stmt.allNodes ss

end

def Block.nodes (b : Block) : List Node := Stmt.allNodes b.statements

/-- The bracket list of a node that may have one; one that is not written is empty. -/
def Node.args? : Node → Option (List Expr)
  | .expr (.stitch _ _ args) | .expr (.row _ args) | .expr (.group _ _ args _) => some args
  | .stmt (.row _ args _) | .stmt (.group _ _ args _ _) => some args
  | _ => none

/-- All bracket lists of a pattern. -/
def Block.bracketLists (b : Block) : List (List Expr) := b.nodes.filterMap Node.args?

def Node.InGrammar : Node → Prop
  | .expr e => e.isArgument true ∨ e.isElement true ∨ e.isDefinition true
  | .stmt s => s.isLine true

/-- A node within a row: an argument or an element, and no statement. -/
def Node.InRow : Node → Prop
  | .expr e => e.isArgument true ∨ e.isElement true
  | .stmt _ => False

theorem Node.InRow.inGrammar {n : Node} (h : n.InRow) : n.InGrammar := by
  cases n with
  | expr e => exact h.elim .inl fun he => .inr (.inl he)
  | stmt s => exact h.elim

theorem Expr.nodes_arguments {args : List Expr} (h : args.all (isArgument true)) :
    ∀ n ∈ allNodes args, n.InRow := by
  induction args with
  | nil => simp [allNodes]
  | cons a args ih =>
    simp only [List.all_cons, Bool.and_eq_true] at h
    refine List.forall_mem_append.mpr ⟨?_, ih h.2⟩
    cases a with
    | ident id => simpa [nodes, Node.InRow] using Or.inl h.1
    | size s => simpa [nodes, Node.InRow] using Or.inl h.1
    | _ => cases h.1

mutual

theorem Expr.nodes_element {e : Expr} (h : e.isElement true) : ∀ n ∈ e.nodes, n.InRow := by
  have he : (Node.expr e).InRow := .inr h
  cases e with
  | stitch p name args =>
    simp only [isElement, Bool.and_eq_true] at h
    exact List.forall_mem_cons.mpr ⟨he, nodes_arguments h.2⟩
  | row es args =>
    simp only [isElement, Bool.and_eq_true] at h
    exact List.forall_mem_cons.mpr
      ⟨he, List.forall_mem_append.mpr ⟨Expr.nodes_elements h.1, nodes_arguments h.2⟩⟩
  | _ => cases h

theorem Expr.nodes_elements {es : List Expr} (h : Expr.areElements true es) :
    ∀ n ∈ allNodes es, n.InRow := by
  cases es with
  | nil => simp [allNodes]
  | cons e es =>
    simp only [areElements, Bool.and_eq_true] at h
    exact List.forall_mem_append.mpr ⟨Expr.nodes_element h.1, Expr.nodes_elements h.2⟩

end

theorem Expr.nodes_row {es args : List Expr} (hes : Expr.areElements true es)
    (hargs : args.all (isArgument true)) : ∀ n ∈ allNodes es ++ allNodes args, n.InRow :=
  List.forall_mem_append.mpr ⟨nodes_elements hes, nodes_arguments hargs⟩

mutual

theorem Expr.nodes_definition {e : Expr} (h : e.isDefinition true) :
    ∀ n ∈ e.nodes, n.InGrammar := by
  have he : (Node.expr e).InGrammar := .inr (.inr h)
  cases e with
  | row es args =>
    simp only [Expr.isDefinition, Bool.and_eq_true] at h
    exact List.forall_mem_cons.mpr ⟨he, fun n hn => (Expr.nodes_row h.1.2 h.2 n hn).inGrammar⟩
  | group lbrace rbrace args lines =>
    simp only [Expr.isDefinition, Bool.and_eq_true] at h
    refine List.forall_mem_cons.mpr ⟨he, List.forall_mem_append.mpr ⟨Stmt.nodes_lines h.1, ?_⟩⟩
    exact fun n hn => (Expr.nodes_arguments h.2 n hn).inGrammar
  | _ => cases h

theorem Stmt.nodes_line {s : Stmt} (h : s.isLine true) : ∀ n ∈ s.nodes, n.InGrammar := by
  have hs : (Node.stmt s).InGrammar := h
  cases s with
  | synonym lhs rhs desc => exact List.forall_mem_singleton.mpr hs
  | define lhs rhs desc =>
    simp only [Stmt.isLine, Bool.and_eq_true] at h
    exact List.forall_mem_cons.mpr ⟨hs, Expr.nodes_definition h.2⟩
  | row es args desc =>
    simp only [Stmt.isLine, Bool.and_eq_true] at h
    exact List.forall_mem_cons.mpr ⟨hs, fun n hn => (Expr.nodes_row h.1 h.2 n hn).inGrammar⟩
  | group lbrace rbrace args lines desc =>
    simp only [Stmt.isLine, Bool.and_eq_true] at h
    refine List.forall_mem_cons.mpr ⟨hs, List.forall_mem_append.mpr ⟨Stmt.nodes_lines h.1, ?_⟩⟩
    exact fun n hn => (Expr.nodes_arguments h.2 n hn).inGrammar
  | block => cases h

theorem Stmt.nodes_lines {ss : List Stmt} (h : Stmt.areLines true ss) :
    ∀ n ∈ Stmt.allNodes ss, n.InGrammar := by
  cases ss with
  | nil => simp [Stmt.allNodes]
  | cons s ss =>
    simp only [Stmt.areLines, Bool.and_eq_true] at h
    exact List.forall_mem_append.mpr ⟨Stmt.nodes_line h.1, Stmt.nodes_lines h.2⟩

end

/-- The bracket list of a node holds arguments. -/
theorem Node.InGrammar.isArgument {n : Node} (h : n.InGrammar) {args : List Expr}
    (ha : n.args? = some args) : args.all (Expr.isArgument true) := by
  cases n with
  | expr e =>
    cases e with
    | stitch p name as =>
      cases ha
      obtain h | h | h := h
      · cases h
      · exact (Bool.and_eq_true_iff.mp h).2
      · cases h
    | row es as =>
      cases ha
      obtain h | h | h := h
      · cases h
      · exact (Bool.and_eq_true_iff.mp h).2
      · exact (Bool.and_eq_true_iff.mp h).2
    | group lbrace rbrace as lines =>
      cases ha
      obtain h | h | h := h
      · cases h
      · cases h
      · exact (Bool.and_eq_true_iff.mp h).2
    | ident id => cases ha
    | size s => cases ha
  | stmt s =>
    cases s with
    | row es as desc =>
      cases ha
      exact (Bool.and_eq_true_iff.mp h).2
    | group lbrace rbrace as lines desc =>
      cases ha
      exact (Bool.and_eq_true_iff.mp h).2
    | _ => cases ha

/-- Every bracket list of a pattern that is read holds arguments. -/
theorem Pattern.isArgument_of_mem_bracketLists {texts : List String} {b : Block}
    (h : ofSources texts = .ok b) {args : List Expr} (ha : args ∈ b.bracketLists) :
    args.all (Expr.isArgument true) := by
  obtain ⟨n, hn, hargs⟩ := List.mem_filterMap.mp ha
  exact (Stmt.nodes_lines (areLines_of_ofSources h) n hn).isArgument hargs

end KnittingPattern
