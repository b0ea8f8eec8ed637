import KnittingPattern.Proofs.DocumentReading
import KnittingPattern.Proofs.JsonRoundTrip
import KnittingPattern.Session.Snapshot

/-! # Snapshots read back

A session whose numbers have 64 bits is read back from its snapshot, at the state it is at.  What is
read from any snapshot has such numbers.  Main theorems: `Session.ofSnapshot?_snapshot`,
`Session.fits_of_ofSnapshot?`. -/

namespace KnittingPattern

def Repeat.fits (r : Repeat) : Bool := r.current < 2 ^ 64 && r.max < 2 ^ 64

def Counters.fits (c : Counters) : Bool :=
  c.stitch < 2 ^ 64 && c.row < 2 ^ 64 && c.phrase < 2 ^ 64

/-- All numbers of a state have 64 bits. -/
def State.fits (s : State) : Bool :=
  s.groupRepeat.all Repeat.fits && s.rowRepeat.all Repeat.fits && s.counters.fits

@[simp] theorem Descriptions.ofJson?_document (d : Descriptions) :
    ofJson? d.document.toJson = some d := by
  simp [ofJson?, document]

theorem Repeat.ofJson?_document {r : Repeat} (h : r.fits) : ofJson? r.document.toJson = some r := by
  simp only [fits, Bool.and_eq_true, decide_eq_true_eq] at h
  simp [ofJson?, document, Document.nat64?_natural h.1, Document.nat64?_natural h.2]

theorem Repeat.optionOfJson?_document {r : Option Repeat} (h : r.all fits) :
    optionOfJson? (some (optionDocument r).toJson) = some r := by
  cases r with
  | none => rfl
  | some r =>
    have hr := ofJson?_document (r := r) h
    have hread : optionOfJson? (some (optionDocument (some r)).toJson) =
        (ofJson? r.document.toJson).map some := rfl
    rw [hread, hr]
    rfl

theorem Counters.ofJson?_document {c : Counters} (h : c.fits) :
    ofJson? c.document.toJson = some c := by
  simp only [fits, Bool.and_eq_true, decide_eq_true_eq] at h
  simp [ofJson?, document, Document.nat64?_natural h.1.1, Document.nat64?_natural h.1.2,
    Document.nat64?_natural h.2]

@[simp] theorem Document.texts?_texts (ss : List String) :
    (texts ss).toJson.texts? = some ss := by
  rw [texts, Json.texts?, array?_list]
  exact mapM_itemsToJson fun s _ => rfl

theorem State.ofJson?_document {s : State} (h : s.fits) : ofJson? s.document.toJson = some s := by
  simp only [fits, Bool.and_eq_true] at h
  simp [ofJson?, document, Repeat.optionOfJson?_document h.1.1, Repeat.optionOfJson?_document h.1.2,
    Counters.ofJson?_document h.2]

@[simp] theorem Document.isPlain_texts (ss : List String) : (texts ss).toJson.isPlain := by
  simp [texts]

@[simp] theorem Document.isPlain_absent : absent.toJson.isPlain := rfl

@[simp] theorem Repeat.isPlain_optionDocument {r : Option Repeat} (h : r.all fits) :
    (optionDocument r).toJson.isPlain := by
  cases r with
  | none => rfl
  | some r =>
    simp only [Option.all_some, fits, Bool.and_eq_true, decide_eq_true_eq] at h
    simp [optionDocument, document, h, -Nat.reducePow]

theorem State.isPlain_document {s : State} (h : s.fits) : s.document.toJson.isPlain := by
  simp only [fits, Counters.fits, Bool.and_eq_true, decide_eq_true_eq] at h
  simp [document, Descriptions.document, Counters.document, h, -Nat.reducePow]

theorem Repeat.fits_of_ofJson? {j : Json} {r : Repeat} (h : ofJson? j = some r) : r.fits := by
  simp only [ofJson?, Option.bind_eq_bind, Option.bind_eq_some_iff] at h
  obtain ⟨parts, -, h⟩ := h
  split at h
  · simp only [Option.bind_eq_some_iff] at h
    obtain ⟨current, hcurrent, max, hmax, h⟩ := h
    cases h
    simp [fits, Json.lt_of_nat64? hcurrent, Json.lt_of_nat64? hmax, -Nat.reducePow]
  · cases h

theorem Repeat.all_fits_of_optionOfJson? {j : Option Json} {r : Option Repeat}
    (h : optionOfJson? j = some r) : r.all fits := by
  unfold optionOfJson? at h
  split at h
  · cases h; rfl
  · cases h; rfl
  · obtain ⟨r, hr, h⟩ := Option.map_eq_some_iff.mp h
    cases h
    exact fits_of_ofJson? hr

theorem Counters.fits_of_ofJson? {j : Json} {c : Counters} (h : ofJson? j = some c) : c.fits := by
  simp only [ofJson?, Option.bind_eq_bind, Option.bind_eq_some_iff] at h
  obtain ⟨parts, -, h⟩ := h
  split at h
  · simp only [Option.bind_eq_some_iff] at h
    obtain ⟨stitch, hstitch, row, hrow, phrase, hphrase, h⟩ := h
    cases h
    simp [fits, Json.lt_of_nat64? hstitch, Json.lt_of_nat64? hrow, Json.lt_of_nat64? hphrase,
      -Nat.reducePow]
  · cases h

theorem State.fits_of_ofJson? {j : Json} {s : State} (h : ofJson? j = some s) : s.fits := by
  simp only [ofJson?, Option.bind_eq_bind, Option.bind_eq_some_iff] at h
  obtain ⟨parts, -, h⟩ := h
  split at h
  · simp only [Option.bind_eq_some_iff] at h
    obtain ⟨desc, -, groupRepeat, hgroup, rowRepeat, hrow, counters, hcounters, row, -, args, -,
      historyRow, -, h⟩ := h
    cases h
    simp [fits, Repeat.all_fits_of_optionOfJson? hgroup, Repeat.all_fits_of_optionOfJson? hrow,
      Counters.fits_of_ofJson? hcounters]
  · cases h

namespace Session

def fits (s : Session) : Bool := s.index < 2 ^ 64 && s.states.all State.fits

/-- The session is at one of its states, unless there is none. -/
def Placed (s : Session) : Prop := s.index < s.size ∨ s.index = 0

theorem clamp_of_placed {s : Session} (h : s.Placed) : s.clamp = s := by
  unfold clamp
  split
  · rfl
  case isFalse hout =>
    have hindex : s.index = 0 := h.resolve_left hout
    have hlast : s.size - 1 = s.index := by omega
    rw [last, hlast]
    rfl

theorem placed_clamp (s : Session) : s.clamp.Placed := by
  unfold clamp
  split
  case isTrue hin => exact .inl hin
  case isFalse hout =>
    change s.size - 1 < s.size ∨ s.size - 1 = 0
    omega

theorem ofJson?_document {s : Session} (h : s.fits) :
    ofJson? s.document.toJson = some ⟨s.states, s.index, none⟩ := by
  simp only [fits, Bool.and_eq_true, decide_eq_true_eq, List.all_eq_true] at h
  have hstates := Document.mapM_itemsToJson fun t ht => State.ofJson?_document (h.2 t ht)
  simp [ofJson?, document, Document.nat64?_natural h.1, hstates]

theorem isPlain_document {s : Session} (h : s.fits) : s.document.toJson.isPlain := by
  simp only [fits, Bool.and_eq_true, decide_eq_true_eq, List.all_eq_true] at h
  have hstates : ∀ t ∈ s.states, t.document.toJson.isPlain := fun t ht =>
    State.isPlain_document (h.2 t ht)
  simpa [document, h.1, -Nat.reducePow] using hstates

/-- A session is read back from its snapshot, but for its file. -/
theorem ofSnapshot?_snapshot {s : Session} (h : s.fits) (hs : s.Placed) :
    ofSnapshot? s.snapshot = some ⟨s.states, s.index, none⟩ := by
  have hplaced : Placed ⟨s.states, s.index, none⟩ := hs
  rw [ofSnapshot?, snapshot, Json.parse?_pretty (isPlain_document h), Option.bind_some,
    ofJson?_document h, Option.map_some, clamp_of_placed hplaced]

theorem fits_clamp {s : Session} (h : s.fits) : s.clamp.fits := by
  simp only [fits, Bool.and_eq_true, decide_eq_true_eq] at h
  unfold clamp
  split
  · simp [fits, h, -Nat.reducePow]
  case isFalse hout =>
    have hlast : s.size - 1 < 2 ^ 64 := by omega
    simp [fits, last, moveTo, h.2, hlast, -Nat.reducePow]

theorem fits_of_ofJson? {j : Json} {s : Session} (h : ofJson? j = some s) :
    s.fits ∧ s.file = none := by
  simp only [ofJson?, Option.bind_eq_bind, Option.bind_eq_some_iff] at h
  obtain ⟨parts, -, h⟩ := h
  split at h
  · simp only [Option.bind_eq_some_iff] at h
    obtain ⟨items, -, states, hstates, index, hindex, h⟩ := h
    cases h
    have hfit : states.all State.fits := by
      refine List.all_eq_true.mpr fun t ht => ?_
      obtain ⟨item, -, hitem⟩ := exists_of_mem_mapM hstates ht
      exact State.fits_of_ofJson? hitem
    simp [fits, Json.lt_of_nat64? hindex, hfit, -Nat.reducePow]
  · cases h

theorem fits_of_ofSnapshot? {text : String} {s : Session} (h : ofSnapshot? text = some s) :
    s.fits ∧ s.Placed ∧ s.file = none := by
  obtain ⟨read, hread, rfl⟩ := Option.map_eq_some_iff.mp h
  obtain ⟨j, -, hj⟩ := Option.bind_eq_some_iff.mp hread
  obtain ⟨hfits, hfile⟩ := fits_of_ofJson? hj
  refine ⟨fits_clamp hfits, placed_clamp read, ?_⟩
  rw [← hfile]
  unfold clamp
  split <;> rfl

end Session

end KnittingPattern
