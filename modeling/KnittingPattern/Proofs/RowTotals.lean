import KnittingPattern.Proofs.PatternDecoding
import KnittingPattern.Proofs.RowContexts

/-! # How often rows are knitted

A row is knitted as often as the counts of the groups and rows around it ask for.  The end of a
block ends the unrolling: a pattern has as many states as its rows are to be knitted, if no block
stands within it; else those behind the first end of a block are left out, and so are further rounds
of the groups around that end.  Main theorem: `Compilation.length_states`. -/

namespace KnittingPattern

namespace Record

/-- The records end a scope that has begun before them; `inner` scopes have begun within it. -/
def closes (inner : Nat) : List Record → Bool
  | [] => false
  | .startGroup _ _ :: rs | .startRow _ _ :: rs => closes (inner + 1) rs
  | .endGroup :: rs | .endRow :: rs =>
    match inner with
    | 0 => true
    | inner + 1 => closes inner rs
  | .startBlock _ :: rs | .endBlock :: rs | .content _ :: rs => closes inner rs

/-- How often a scope is knitted that these records follow: as its count says, if it ends. -/
def timesBefore (args : List String) (rs : List Record) : Nat :=
  if closes 0 rs then (repeatCount? args).getD 1 else 1

/-- How often the rows among the records are to be knitted: each as often as the counts of all
groups and rows that enclose it say.  `around` are the counts around the first record, innermost
first. -/
def knittings (around : List Nat) : List Record → Nat
  | [] => 0
  | .startGroup _ args :: rs | .startRow _ args :: rs =>
    knittings (timesBefore args rs :: around) rs
  | .endGroup :: rs | .endRow :: rs => knittings around.tail rs
  | .content c :: rs => (if c.row.isEmpty then 0 else around.prod) + knittings around rs
  | .startBlock _ :: rs | .endBlock :: rs => knittings around rs

end Record

namespace Nested

/-- How often the rows of nested records are to be knitted. -/
def knitted : Nested → Nat
  | nil => 0
  | content c rest => (if c.row.isEmpty then 0 else 1) + rest.knitted
  | scope _ _ args body rest => (repeatCount? args).getD 1 * body.knitted + rest.knitted

theorem length_unroll (x : Nested) (rounds : Scope → Option Repeat) (d : Descriptions) :
    (x.unroll rounds d).length = x.knitted := by
  induction x generalizing rounds d with
  | nil => rfl
  | content c rest ih =>
    rw [unroll, List.length_append, ih, knitted]
    split <;> rfl
  | scope s desc args body rest ihb ihr =>
    rw [unroll, List.length_append, ihr, knitted]
    cases repeatCount? args with
    | none => simp [ihb]
    | some n => simp [List.length_flatMap, ihb]

theorem length_steps (x : Nested) (levels : Scope → Unrolling.Level) (d : Descriptions) :
    (x.steps levels d).length = x.knitted := by
  rw [← x.length_unroll (fun s => (levels s).current) d, ← map_state_steps, List.length_map]

theorem endBlock_notMem (x : Nested) : .endBlock ∉ x.records := by
  induction x with
  | nil => simp [records]
  | content c rest ih => simpa [records] using ih
  | scope s desc args body rest ihb ihr =>
    cases s <;> simp [records, Scope.opening, Scope.ending, ihb, ihr]

/-- Nested records end nothing that has begun before them. -/
theorem closes_records (x : Nested) (inner : Nat) (tail : List Record) :
    Record.closes inner (x.records ++ tail) = Record.closes inner tail := by
  induction x generalizing inner tail with
  | nil => rfl
  | content c rest ih => exact ih inner tail
  | scope s desc args body rest ihb ihr =>
    cases s <;> simp [records, Scope.opening, Scope.ending, Record.closes, ihb, ihr]

/-- Among nested records, each row is knitted as often as the scopes around all of them and those
around it within them ask for. -/
theorem knittings_records (x : Nested) (around : List Nat) (tail : List Record) :
    Record.knittings around (x.records ++ tail) =
      around.prod * x.knitted + Record.knittings around tail := by
  induction x generalizing around tail with
  | nil => simp [records, knitted]
  | content c rest ih =>
    simp only [records, List.cons_append, Record.knittings, ih, knitted]
    split <;> ring
  | scope s desc args body rest ihb ihr =>
    have htimes (e : Record) (he : e = .endGroup ∨ e = .endRow) :
        Record.timesBefore args (body.records ++ e :: (rest.records ++ tail)) =
          (repeatCount? args).getD 1 := by
      rw [Record.timesBefore, closes_records]
      obtain rfl | rfl := he <;> rfl
    cases s <;>
      simp only [records, Scope.opening, Scope.ending, List.cons_append, List.append_assoc,
        Record.knittings, htimes _ (.inl rfl), htimes _ (.inr rfl), ihb, ihr, knitted,
        List.prod_cons, List.tail_cons] <;>
      ring

end Nested

/-- Records of statements up to an end of a block, which may leave groups without an end. -/
inductive Record.Cut : List Record → Prop where
  | whole (x : Nested) : Cut x.records
  | group (x : Nested) (desc args : List String) {pre : List Record} (h : Cut pre) :
      Cut (x.records ++ .startGroup desc args :: pre)
  | block (x : Nested) (desc : List String) {pre : List Record} (h : Cut pre) :
      Cut (x.records ++ .startBlock desc :: pre)

namespace Record.Cut

variable {pre : List Record}

theorem prepend (x : Nested) (h : Cut pre) : Cut (x.records ++ pre) := by
  cases h with
  | whole y =>
    rw [← Nested.records_append]
    exact .whole _
  | group y desc args h =>
    rw [← List.append_assoc, ← Nested.records_append]
    exact .group _ desc args h
  | block y desc h =>
    rw [← List.append_assoc, ← Nested.records_append]
    exact .block _ desc h

theorem endBlock_notMem (h : Cut pre) : .endBlock ∉ pre := by
  induction h with
  | whole x => exact x.endBlock_notMem
  | group x desc args _ ih => simp [x.endBlock_notMem, ih]
  | block x desc _ ih => simp [x.endBlock_notMem, ih]

/-- What has begun before such records does not end among them. -/
theorem closes_eq_false (h : Cut pre) (inner : Nat) : closes inner pre = false := by
  induction h generalizing inner with
  | whole x => simpa [closes] using x.closes_records inner []
  | group x desc args _ ih => rw [x.closes_records, closes, ih]
  | block x desc _ ih => rw [x.closes_records, closes, ih]

end Record.Cut

open Record (Cut Statements knittings)

/-- Statements have nested records if no block is among them; else they go on behind the first end
of a block. -/
theorem Record.Statements.exists_cut {rs : List Record} (h : Statements rs) :
    (∃ x : Nested, x.records = rs) ∨ ∃ pre tail, rs = pre ++ .endBlock :: tail ∧ Cut pre := by
  induction h with
  | nil => exact .inl ⟨.nil, rfl⟩
  | @row desc args c rest _ _ ih =>
    obtain ⟨y, rfl⟩ | ⟨pre, tail, rfl, hpre⟩ := ih
    · exact .inl ⟨.scope .row desc args (.content c .nil) y, rfl⟩
    · have hrow : Cut ((Nested.scope .row desc args (.content c .nil) .nil).records ++ pre) :=
        hpre.prepend _
      exact .inr ⟨_, tail, rfl, hrow⟩
  | @group desc args body rest _ _ ihb ihr =>
    obtain ⟨x, rfl⟩ | ⟨pre, tail, rfl, hpre⟩ := ihb
    · obtain ⟨y, rfl⟩ | ⟨pre, tail, rfl, hpre⟩ := ihr
      · exact .inl ⟨.scope .group desc args x y, rfl⟩
      · refine .inr ⟨_, tail, ?_, hpre.prepend (.scope .group desc args x .nil)⟩
        simp [Nested.records, Scope.opening, Scope.ending]
    · exact .inr ⟨_, tail ++ .endGroup :: rest, by simp [Nested.records],
        .group .nil desc args hpre⟩
  | @block desc body rest _ _ ihb _ =>
    obtain ⟨x, rfl⟩ | ⟨pre, tail, rfl, hpre⟩ := ihb
    · exact .inr ⟨_, rest, rfl, .block .nil desc (.whole x)⟩
    · exact .inr ⟨_, tail ++ .endBlock :: rest, by simp [Nested.records], .block .nil desc hpre⟩

/-- A block goes on behind the first end of a block, unless there is no other. -/
theorem Record.OfBlock.exists_cut {rs : List Record} (h : OfBlock rs) :
    ∃ desc pre tail, rs = .startBlock desc :: (pre ++ .endBlock :: tail) ∧ Cut pre ∧
      (rs.count .endBlock = 1 → tail = [] ∧ ∃ x : Nested, x.records = pre) := by
  obtain ⟨desc, hb⟩ := h
  obtain ⟨x, rfl⟩ | ⟨pre, tail, rfl, hpre⟩ := hb.exists_cut
  · exact ⟨desc, x.records, [], rfl, .whole x, fun _ => ⟨rfl, x, rfl⟩⟩
  · refine ⟨desc, pre, tail ++ [.endBlock], by simp, hpre, fun hcount => ?_⟩
    simp only [List.count_cons, List.count_append, beq_self_eq_true, if_true] at hcount
    omega

namespace Unrolling.Progress

theorem read_startBlock (steps : Array Step) (d : Descriptions) (scopes : Scope → Scopes) (i : Nat)
    (desc : List String) : (of steps d scopes).read i (.startBlock desc) =
      .ok (of steps ⟨"\n".intercalate desc, d.group, d.row⟩ scopes) := rfl

/-- Up to an end of a block each row is read as often as it is to be knitted among the records read;
scopes that do not end there are knitted once. -/
theorem exists_readAll_cut {pre : List Record} (h : Cut pre) (before : Array Step)
    (d : Descriptions) (scopes : Scope → Scopes) (i : Nat) {around : List Nat}
    (ha : around.prod = 1) (tail : List Record) :
    ∃ p, (of before d scopes).readAll i (pre ++ .endBlock :: tail) = .ok p ∧
      p.steps.size = before.size + knittings around pre := by
  induction h generalizing before d scopes i around with
  | whole x =>
    refine ⟨_, (x.readAll_records before d scopes i _).trans (readAll_endBlock _ _ _), ?_⟩
    have hx := x.knittings_records around []
    rw [List.append_nil, ha, Nat.one_mul, knittings, Nat.add_zero] at hx
    simp [of, x.length_steps, hx]
  | group x desc args h ih =>
    have htimes : Record.timesBefore args _ = 1 := if_neg (by rw [h.closes_eq_false]; decide)
    have hone : (1 :: around).prod = 1 := by simpa using ha
    obtain ⟨p, hp, hsize⟩ := ih _ _ _ _ hone
    refine ⟨p, ?_, ?_⟩
    · rw [List.append_assoc, x.readAll_records, List.cons_append]
      exact (readAll_cons_ok _ (by simp) (read_opening _ _ _ _ .group desc args)).trans hp
    · rw [hsize, x.knittings_records, ha, knittings, htimes]
      simp [x.length_steps, Nat.add_assoc]
  | block x desc h ih =>
    obtain ⟨p, hp, hsize⟩ := ih _ _ _ _ ha
    refine ⟨p, ?_, ?_⟩
    · rw [List.append_assoc, x.readAll_records, List.cons_append]
      exact (readAll_cons_ok _ (by simp) (read_startBlock _ _ _ _ desc)).trans hp
    · rw [hsize, x.knittings_records, ha, knittings]
      simp [x.length_steps, Nat.add_assoc]

end Unrolling.Progress

/-- Up to the first end of a block, each row is unrolled as often as it is to be knitted there. -/
theorem State.length_ofRecords_cut {pre : List Record} (h : Cut pre) (desc : List String)
    (tail : List Record) :
    ∃ ss, ofRecords (.startBlock desc :: (pre ++ .endBlock :: tail)) = .ok ss ∧
      ss.length = knittings [] pre := by
  have hs := Unrolling.Progress.read_startBlock #[] .none (fun _ => .none) 0 desc
  obtain ⟨p, hp, hsize⟩ := Unrolling.Progress.exists_readAll_cut h #[] _ (fun _ => .none) 1
    List.prod_nil tail
  have hread := (Unrolling.Progress.readAll_cons_ok _ (by simp) hs).trans hp
  refine ⟨_, congrArg (Except.map _) hread, ?_⟩
  simpa using hsize

namespace Compilation

/-- A pattern that is laid out has as many states as its rows are to be knitted up to the first end
of a block.  Those are all its rows if no block stands within it, so of a pattern that is read from
texts no row is left out. -/
theorem length_states (b : Block) {rs : List Record} (h : b.records = .ok rs) :
    ∃ ss, State.ofRecords rs = .ok ss ∧
      ss.length = knittings [] (rs.takeWhile (· ≠ .endBlock)) ∧
      (rs.count .endBlock = 1 → ss.length = knittings [] rs) ∧
      ∀ texts, Pattern.ofSources texts = .ok b → ss.length = knittings [] rs := by
  have hb := b.recordsUnder_ofBlock _ h
  obtain ⟨desc, pre, tail, hrs, hpre, hone⟩ := hb.exists_cut
  obtain ⟨ss, hss, hlength⟩ := State.length_ofRecords_cut hpre desc tail
  rw [← hrs] at hss
  have htake : rs.takeWhile (· ≠ .endBlock) = .startBlock desc :: pre := by
    have hpos : ∀ r ∈ pre, decide (r ≠ .endBlock) = true := fun r hr =>
      decide_eq_true fun he => hpre.endBlock_notMem (he ▸ hr)
    rw [hrs, List.takeWhile_cons_of_pos rfl, List.takeWhile_append_of_pos hpos,
      List.takeWhile_cons_of_neg (by simp), List.append_nil]
  have hall (hcount : rs.count .endBlock = 1) : ss.length = knittings [] rs := by
    obtain ⟨rfl, x, rfl⟩ := hone hcount
    have hx := x.knittings_records [] []
    rw [List.append_nil] at hx
    calc ss.length = knittings [] x.records := hlength
      _ = [].prod * x.knitted + 0 := hx
      _ = knittings [] (x.records ++ [.endBlock]) := by
        rw [x.knittings_records]
        rfl
      _ = knittings [] rs := by
        rw [hrs]
        rfl
  refine ⟨ss, hss, by rw [htake, hlength]; rfl, hall, fun texts ht => hall ?_⟩
  obtain ⟨y, hy⟩ := Block.exists_nested ht h
  rw [hy]
  simp [List.count_append, List.count_eq_zero.mpr y.endBlock_notMem]

/-- A row repeated thrice and another row, in a group to be knitted twice. -/
def rowsInGroup : Block :=
  ⟨[.group ⟨1, 1⟩ ⟨4, 1⟩ [.size ⟨⟨4, 3⟩, .whole 2, .count, false⟩]
    [.row [.stitch ⟨2, 2⟩ ⟨⟨2, 2⟩, "k"⟩ [], .stitch ⟨2, 4⟩ ⟨⟨2, 4⟩, "p"⟩ []]
        [.size ⟨⟨2, 7⟩, .whole 3, .count, false⟩] .none,
      .row [.stitch ⟨3, 1⟩ ⟨⟨3, 1⟩, "p"⟩ []] [] .none] .none], ⟨1, 1⟩, ⟨5, 0⟩, .none⟩

theorem length_states_rowsInGroup :
    Pattern.ofSources ["\x7b\n\x7bk p\x7d(3)\np\n\x7d(2)\n"] = .ok rowsInGroup ∧
    ∃ rs ss, rowsInGroup.records = .ok rs ∧ State.ofRecords rs = .ok ss ∧
      knittings [] rs = 8 ∧ ss.length = knittings [] rs := by
  have htext : Pattern.ofSources ["\x7b\n\x7bk p\x7d(3)\np\n\x7d(2)\n"] = .ok rowsInGroup := rfl
  refine ⟨htext, [.startBlock [], .startGroup [] ["2"], .startRow [] ["3"],
    .content ⟨[], ["3"], ["k", "p"]⟩, .endRow, .startRow [] [], .content ⟨[], [], ["p"]⟩, .endRow,
    .endGroup, .endBlock], ?_⟩
  obtain ⟨ss, hss, -, -, htexts⟩ := length_states rowsInGroup rfl
  exact ⟨ss, rfl, hss, by decide, htexts _ htext⟩

/-- A block and a row in a group to be knitted thrice. -/
def blockInGroup : Block :=
  ⟨[.group ⟨1, 1⟩ ⟨4, 1⟩ [.size ⟨⟨4, 3⟩, .whole 3, .count, false⟩]
    [.block [.row [.stitch ⟨2, 1⟩ ⟨⟨2, 1⟩, "k"⟩ []] [] .none] ⟨2, 1⟩ ⟨2, 2⟩ .none,
      .row [.stitch ⟨3, 1⟩ ⟨⟨3, 1⟩, "p"⟩ []] [] .none] .none], ⟨1, 1⟩, ⟨5, 0⟩, .none⟩

/-- Both rows are to be knitted thrice.  But the block within the group ends the unrolling, so its
row comes once and the row behind it never. -/
theorem rows_behind_block :
    Pattern.ofJson? blockInGroup.toJson.pretty = some blockInGroup ∧
    ∃ rs ss, blockInGroup.records = .ok rs ∧ State.ofRecords rs = .ok ss ∧
      knittings [] rs = 6 ∧ ss.map State.row = [["k"]] := by
  refine ⟨?_, [.startBlock [], .startGroup [] ["3"], .startBlock [], .startRow [] [],
    .content ⟨[], [], ["k"]⟩, .endRow, .endBlock, .startRow [] [], .content ⟨[], [], ["p"]⟩,
    .endRow, .endGroup, .endBlock], _, rfl, rfl, by decide, rfl⟩
  have hfits : blockInGroup.fits := by decide +kernel
  have hdepth : blockInGroup.toJson.depth ≤ maxDepth := by decide +kernel
  rw [Pattern.ofJson?, Json.parse?_pretty (Block.isPlain_toJson hfits), Option.bind_some,
    Block.ofJsonValue?_toJson hfits hdepth]

end Compilation
end KnittingPattern
